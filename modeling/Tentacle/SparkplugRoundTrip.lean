import Tentacle.SparkplugPayload

/-!
# Encoding and decoding a payload again

Payloads are compared after forgetting the width of the Go integers, so that
only numbers count, and with one form for a metric without a value, which the
encoder flags as null. The comparison recurses through templates of any depth.
-/

namespace SparkplugRoundTrip

open GoValues SparkplugPayload

variable {F32 F64 : Type}

/-- The shape of the values of each datatype and the range of its integers. -/
def InRange {T : Type} (dt : DataType) : Value F32 F64 T → Prop
  | .int _ n =>
    match dt with
    | .int8 => -2 ^ 7 ≤ n ∧ n < 2 ^ 7
    | .int16 => -2 ^ 15 ≤ n ∧ n < 2 ^ 15
    | .int32 => -2 ^ 31 ≤ n ∧ n < 2 ^ 31
    | .int64 => -2 ^ 63 ≤ n ∧ n < 2 ^ 63
    | .uint8 => 0 ≤ n ∧ n < 2 ^ 8
    | .uint16 => 0 ≤ n ∧ n < 2 ^ 16
    | .uint32 => 0 ≤ n ∧ n < 2 ^ 32
    | .uint64 => 0 ≤ n ∧ n < 2 ^ 64
    | .dateTime => 0 ≤ n ∧ n < 2 ^ 64
    | _ => False
  | .float32 _ => dt = .float
  | .float64 _ => dt = .double
  | .bool _ => dt = .boolean
  | .string _ => dt = .string ∨ dt = .text
  | .bytes _ => dt = .bytes
  | .template _ => dt = .template
  | .other _ => False

/-- A parameter is in range; parameters have no bytes. -/
def ValidParameter (p : Parameter F32 F64) : Prop :=
  ∀ v ∈ p.value, InRange p.datatype v ∧ p.datatype ≠ .bytes

mutual

/-- Every value, at every depth, is in the range of its supported datatype. -/
def ValidMetric : Metric F32 F64 → Prop
  | ⟨_, _, _, datatype, _, _, isNull, value⟩ =>
    isNull = true ∨
      match value with
      | none => True
      | some v => InRange datatype v ∧ ValidValue v

def ValidValue : Value F32 F64 (Template F32 F64 (Metric F32 F64)) → Prop
  | .template t => ValidTemplate t
  | _ => True

def ValidTemplate : Template F32 F64 (Metric F32 F64) → Prop
  | ⟨_, _, _, metrics, parameters⟩ =>
    ValidMetrics metrics ∧ ∀ p ∈ parameters, ValidParameter p

def ValidMetrics : List (Metric F32 F64) → Prop
  | [] => True
  | m :: ms => ValidMetric m ∧ ValidMetrics ms

end

def ValidPayload (p : Payload F32 F64) : Prop := ValidMetrics p.metrics

/-- A parameter with the width of its integer forgotten. -/
def plainParameter (p : Parameter F32 F64) : Parameter F32 F64 :=
  { p with
    value := p.value.map (fun v =>
      match v with
      | .int _ n => .int .int n
      | v => v) }

mutual

/-- A metric with integer widths forgotten and absent values flagged as null. -/
def plainMetric : Metric F32 F64 → Metric F32 F64
  | ⟨name, aliasId, timestamp, datatype, isHistorical, isTransient, isNull, value⟩ =>
    match isNull, value with
    | false, some v =>
      ⟨name, aliasId, timestamp, datatype, isHistorical, isTransient, false, some (plainValue v)⟩
    | _, _ => ⟨name, aliasId, timestamp, datatype, isHistorical, isTransient, true, none⟩

def plainValue : Value F32 F64 (Template F32 F64 (Metric F32 F64)) →
    Value F32 F64 (Template F32 F64 (Metric F32 F64))
  | .int _ n => .int .int n
  | .template t => .template (plainTemplate t)
  | v => v

def plainTemplate : Template F32 F64 (Metric F32 F64) → Template F32 F64 (Metric F32 F64)
  | ⟨version, templateRef, isDefinition, metrics, parameters⟩ =>
    ⟨version, templateRef, isDefinition, plainMetrics metrics, parameters.map plainParameter⟩

def plainMetrics : List (Metric F32 F64) → List (Metric F32 F64)
  | [] => []
  | m :: ms => plainMetric m :: plainMetrics ms

end

/-- `OmitSeq` is an order to the encoder: such a payload has no sequence number. -/
def plainPayload (p : Payload F32 F64) : Payload F32 F64 :=
  { timestamp := p.timestamp
    seq := if p.omitSeq then 0 else p.seq
    metrics := plainMetrics p.metrics }

variable [GoFloats F32 F64]

/-- Encoding and decoding succeed and give the same payload back. -/
def RoundTrips (proto : Proto F32 F64) (p : Payload F32 F64) : Prop :=
  ∃ data q, encodePayload proto p = .ok data ∧ decodePayload proto data = .ok q ∧
    plainPayload q = plainPayload p

/-- The parameter's value is not the zero of its type and not negative. -/
def KeptParameter (p : Parameter F32 F64) : Prop :=
  ∀ v ∈ p.value,
    match v with
    | .int _ n => 0 < n
    | .float32 x => GoFloats.isZero32 F64 x = false
    | .float64 x => GoFloats.isZero64 F32 x = false
    | .bool b => b = true
    | .string s => s ≠ ""
    | .bytes _ => True
    | .template e => e.elim
    | .other _ => False

mutual

/-- No integer of the metric, at any depth, is negative, and no parameter of
its templates is zero, false, empty or negative. -/
def KeptMetric : Metric F32 F64 → Prop
  | ⟨_, _, _, _, _, _, isNull, value⟩ =>
    isNull = true ∨
      match value with
      | none => True
      | some v => KeptValue v

def KeptValue : Value F32 F64 (Template F32 F64 (Metric F32 F64)) → Prop
  | .int _ n => 0 ≤ n
  | .template t => KeptTemplate t
  | _ => True

def KeptTemplate : Template F32 F64 (Metric F32 F64) → Prop
  | ⟨_, _, _, metrics, parameters⟩ =>
    KeptMetrics metrics ∧ ∀ p ∈ parameters, KeptParameter p

def KeptMetrics : List (Metric F32 F64) → Prop
  | [] => True
  | m :: ms => KeptMetric m ∧ KeptMetrics ms

end

def KeptPayload (p : Payload F32 F64) : Prop := KeptMetrics p.metrics

omit [GoFloats F32 F64] in
@[simp] theorem getD_present {α : Type} [BEq α] [LawfulBEq α] (zero x : α) :
    (present zero x).getD zero = x := by
  unfold present
  split
  · rename_i h
    exact (beq_iff_eq.mp h).symm
  · rfl

/-- Two's complement keeps exactly the numbers that are not negative. -/
theorem wrap_eq_iff (bits : Nat) (n : Int) (h : n < 2 ^ bits) :
    ((wrap bits n : Nat) : Int) = n ↔ 0 ≤ n := by
  have hpos : (0 : Int) < 2 ^ bits := by positivity
  have hmod : (0 : Int) ≤ n % 2 ^ bits := Int.emod_nonneg n (Int.ne_of_gt hpos)
  rw [wrap, Int.toNat_of_nonneg hmod]
  constructor
  · intro he
    omega
  · intro hn
    exact Int.emod_eq_of_lt hn h

/-- The number that comes back is not zero and is the one sent. -/
theorem wrap_nonzero_iff (bits : Nat) (n : Int) (h : n < 2 ^ bits) :
    (wrap bits n ≠ 0 ∧ ((wrap bits n : Nat) : Int) = n) ↔ 0 < n := by
  rw [wrap_eq_iff bits n h]
  constructor
  · rintro ⟨hne, hn⟩
    have := (wrap_eq_iff bits n h).mpr hn
    omega
  · intro hn
    have := (wrap_eq_iff bits n h).mpr (by omega)
    omega

/-- What the codec does to one value: it is encoded, the decoder finds it under
the same datatype, and it is the same value exactly when it is kept. -/
def Survives (dt : DataType) (v : Value F32 F64 (Template F32 F64 (Metric F32 F64)))
    (encoded : Except String (PbValue F32 F64 (PbTemplate F32 F64 (PbMetric F32 F64)))) : Prop :=
  ∃ pbv w, encoded = .ok pbv ∧ decodeValue dt pbv = some w ∧
    (plainValue w = plainValue v ↔ KeptValue v)

/-- An integer in the range of its type survives the codec. -/
theorem int_survives (dt : DataType) (kind : IntKind) (n : Int)
    (h : InRange dt (.int kind n : Value F32 F64 (Template F32 F64 (Metric F32 F64)))) :
    Survives dt (.int kind n : Value F32 F64 (Template F32 F64 (Metric F32 F64)))
      (setMetricValue dt (.int kind n)) := by
  have h32 : n < 2 ^ 32 → (plainValue (.int .uint32 (wrap 32 n) :
      Value F32 F64 (Template F32 F64 (Metric F32 F64))) = plainValue (.int kind n) ↔ 0 ≤ n) := by
    intro hn
    simpa [plainValue] using wrap_eq_iff 32 n hn
  have h64 : n < 2 ^ 64 → (plainValue (.int .uint64 (wrap 64 n) :
      Value F32 F64 (Template F32 F64 (Metric F32 F64))) = plainValue (.int kind n) ↔ 0 ≤ n) := by
    intro hn
    simpa [plainValue] using wrap_eq_iff 64 n hn
  cases dt with
  | int8 | int16 | int32 | uint8 | uint16 | uint32 =>
    exact ⟨.intValue (wrap 32 n), .int .uint32 (wrap 32 n), rfl, by simp [decodeValue],
      by simpa only [KeptValue] using h32 (by simp only [InRange] at h; omega)⟩
  | int64 | uint64 | dateTime =>
    exact ⟨.longValue (wrap 64 n), .int .uint64 (wrap 64 n), rfl, by simp [decodeValue],
      by simpa only [KeptValue] using h64 (by simp only [InRange] at h; omega)⟩
  | _ => exact h.elim

/-- Every other scalar is encoded as it is. -/
theorem scalar_survives (dt : DataType) (v : Value F32 F64 (Template F32 F64 (Metric F32 F64)))
    (hv : ∀ t, v ≠ .template t) (h : InRange dt v) :
    Survives dt v (setMetricValue dt v) := by
  cases v with
  | int kind n => exact int_survives dt kind n h
  | bool b =>
    cases h
    exact ⟨.booleanValue b, .bool b, rfl, by simp [decodeValue], by simp [KeptValue]⟩
  | float32 x =>
    cases h
    exact ⟨.floatValue x, .float32 x, rfl, by simp [decodeValue], by simp [KeptValue]⟩
  | float64 x =>
    cases h
    exact ⟨.doubleValue x, .float64 x, rfl, by simp [decodeValue], by simp [KeptValue]⟩
  | string s =>
    rcases h with rfl | rfl
    · exact ⟨.stringValue s, .string s, rfl, by simp [decodeValue], by simp [KeptValue]⟩
    · exact ⟨.stringValue s, .string s, rfl, by simp [decodeValue], by simp [KeptValue]⟩
  | bytes b =>
    cases h
    exact ⟨.bytesValue b, .bytes b, rfl, by simp [decodeValue], by simp [KeptValue]⟩
  | template t => exact absurd rfl (hv t)
  | other goType => exact h.elim

/-- The decoder's test for zero loses the zero of every type as well. -/
theorem parameter_survives (p : Parameter F32 F64) (h : ValidParameter p) :
    ∃ pbp, encodeParameter p = .ok pbp ∧
      (plainParameter (decodeParameter pbp) = plainParameter p ↔ KeptParameter p) := by
  obtain ⟨name, dt, value⟩ := p
  cases value with
  | none =>
    exact ⟨⟨some name, some dt, none⟩, rfl,
      by simp [plainParameter, decodeParameter, KeptParameter]⟩
  | some v =>
    obtain ⟨hr, hb⟩ := h v rfl
    cases v with
    | template e => exact e.elim
    | int kind n =>
      have hkept : KeptParameter (⟨name, dt, some (.int kind n)⟩ : Parameter F32 F64) ↔ 0 < n := by
        simp [KeptParameter]
      rw [hkept]
      cases dt with
      | int8 | int16 | int32 | uint8 | uint16 | uint32 =>
        refine ⟨⟨some name, some _, some (.intValue (wrap 32 n))⟩, rfl, ?_⟩
        rw [← wrap_nonzero_iff 32 n (by simp only [InRange] at hr; omega)]
        by_cases h0 : wrap 32 n = 0 <;>
          simp [plainParameter, decodeParameter, decodeParameterValue, h0]
      | int64 | uint64 | dateTime =>
        refine ⟨⟨some name, some _, some (.longValue (wrap 64 n))⟩, rfl, ?_⟩
        rw [← wrap_nonzero_iff 64 n (by simp only [InRange] at hr; omega)]
        by_cases h0 : wrap 64 n = 0 <;>
          simp [plainParameter, decodeParameter, decodeParameterValue, h0]
      | _ => exact hr.elim
    | bool b =>
      cases hr
      refine ⟨⟨some name, some .boolean, some (.booleanValue b)⟩, rfl, ?_⟩
      cases b <;> simp [plainParameter, decodeParameter, decodeParameterValue, KeptParameter]
    | float32 x =>
      cases hr
      refine ⟨⟨some name, some .float, some (.floatValue x)⟩, rfl, ?_⟩
      cases hz : GoFloats.isZero32 F64 x <;>
        simp [plainParameter, decodeParameter, decodeParameterValue, KeptParameter, hz]
    | float64 x =>
      cases hr
      refine ⟨⟨some name, some .double, some (.doubleValue x)⟩, rfl, ?_⟩
      cases hz : GoFloats.isZero64 F32 x <;>
        simp [plainParameter, decodeParameter, decodeParameterValue, KeptParameter, hz]
    | string s =>
      rcases hr with rfl | rfl <;>
        refine ⟨⟨some name, some _, some (.stringValue s)⟩, rfl, ?_⟩ <;>
        by_cases hs : s = "" <;>
        simp [plainParameter, decodeParameter, decodeParameterValue, KeptParameter, hs]
    | bytes b => exact absurd hr hb
    | other goType => exact hr.elim

/-- Parameters can be written, and come back exactly if each of them is kept. -/
theorem parameters_survive (ps : List (Parameter F32 F64)) (h : ∀ p ∈ ps, ValidParameter p) :
    ∃ pbps, ps.mapM encodeParameter = .ok pbps ∧
      ((pbps.map decodeParameter).map plainParameter = ps.map plainParameter ↔
        ∀ p ∈ ps, KeptParameter p) := by
  induction ps with
  | nil => exact ⟨[], rfl, by simp⟩
  | cons p ps ih =>
    obtain ⟨pbp, hp, hkeep⟩ := parameter_survives p (h p List.mem_cons_self)
    obtain ⟨pbps, hps, hkeeps⟩ := ih (fun q hq => h q (List.mem_cons_of_mem _ hq))
    refine ⟨pbp :: pbps, ?_, ?_⟩
    · simp only [List.mapM_cons, hp, hps]
      rfl
    · simp only [List.map_cons, List.cons.injEq, hkeep, hkeeps, List.forall_mem_cons]

/-- A metric flagged as null loses a value it should not have had. -/
theorem null_survives (name : String) (aliasId timestamp : Nat) (dt : DataType)
    (isHistorical isTransient : Bool)
    (value : Option (Value F32 F64 (Template F32 F64 (Metric F32 F64)))) :
    ∃ pbm, encodeMetric ⟨name, aliasId, timestamp, dt, isHistorical, isTransient, true, value⟩ =
        .ok pbm ∧
      plainMetric (decodeMetric pbm) =
        plainMetric ⟨name, aliasId, timestamp, dt, isHistorical, isTransient, true, value⟩ := by
  refine ⟨_, by simp only [encodeMetric, if_true]; rfl, ?_⟩
  simp [plainMetric, decodeMetric]

mutual

/-- A metric can be written, and comes back exactly if it is kept. -/
theorem metric_survives : (m : Metric F32 F64) → ValidMetric m →
    ∃ pbm, encodeMetric m = .ok pbm ∧
      (plainMetric (decodeMetric pbm) = plainMetric m ↔ KeptMetric m)
  | ⟨name, aliasId, timestamp, datatype, isHistorical, isTransient, isNull, value⟩, h => by
    cases isNull with
    | true =>
      obtain ⟨pbm, henc, heq⟩ :=
        null_survives name aliasId timestamp datatype isHistorical isTransient value
      exact ⟨pbm, henc, iff_of_true heq (by unfold KeptMetric; exact .inl rfl)⟩
    | false =>
      cases value with
      | none =>
        refine ⟨_, by simp only [encodeMetric]; rfl, ?_⟩
        simp [plainMetric, decodeMetric, KeptMetric]
      | some v =>
        obtain ⟨hr, hv⟩ : InRange datatype v ∧ ValidValue v := by simpa [ValidMetric] using h
        obtain ⟨pbv, w, henc, hdec, hkeep⟩ := value_survives datatype v hr hv
        refine ⟨_, by simp only [encodeMetric, henc]; rfl, ?_⟩
        simp [plainMetric, decodeMetric, KeptMetric, hdec, hkeep]

/-- A value in the range of its type can be written, and comes back exactly if it is kept. -/
theorem value_survives (dt : DataType) :
    (v : Value F32 F64 (Template F32 F64 (Metric F32 F64))) → InRange dt v → ValidValue v →
    Survives dt v (setMetricValue dt v)
  | .template t, hr, hv => by
    have hdt : dt = .template := hr
    subst hdt
    obtain ⟨pbt, henc, hkeep⟩ := template_survives t (by simpa [ValidValue] using hv)
    refine ⟨.templateValue pbt, .template (decodeTemplate pbt), ?_, by simp [decodeValue], ?_⟩
    · simp only [setMetricValue, if_true, henc]
      rfl
    · simpa [plainValue, KeptValue] using hkeep
  | .bool b, hr, _ => scalar_survives dt (.bool b) nofun hr
  | .int kind n, hr, _ => scalar_survives dt (.int kind n) nofun hr
  | .float32 x, hr, _ => scalar_survives dt (.float32 x) nofun hr
  | .float64 x, hr, _ => scalar_survives dt (.float64 x) nofun hr
  | .string s, hr, _ => scalar_survives dt (.string s) nofun hr
  | .bytes b, hr, _ => scalar_survives dt (.bytes b) nofun hr
  | .other goType, hr, _ => scalar_survives dt (.other goType) nofun hr

/-- A template can be written, and comes back exactly if all in it is kept. -/
theorem template_survives : (t : Template F32 F64 (Metric F32 F64)) → ValidTemplate t →
    ∃ pbt, encodeTemplate t = .ok pbt ∧
      (plainTemplate (decodeTemplate pbt) = plainTemplate t ↔ KeptTemplate t)
  | ⟨version, templateRef, isDefinition, metrics, parameters⟩, h => by
    obtain ⟨hms, hps⟩ : ValidMetrics metrics ∧ ∀ p ∈ parameters, ValidParameter p := by
      simpa [ValidTemplate] using h
    obtain ⟨pbms, hmenc, hmkeep⟩ := metrics_survive metrics hms
    obtain ⟨pbps, hpenc, hpkeep⟩ := parameters_survive parameters hps
    refine ⟨_, by simp only [encodeTemplate, hmenc, hpenc]; rfl, ?_⟩
    simp [plainTemplate, decodeTemplate, KeptTemplate, hmkeep, ← hpkeep]

theorem metrics_survive : (ms : List (Metric F32 F64)) → ValidMetrics ms →
    ∃ pbms, encodeMetrics ms = .ok pbms ∧
      (plainMetrics (decodeMetrics pbms) = plainMetrics ms ↔ KeptMetrics ms)
  | [], _ => ⟨[], rfl, by simp [plainMetrics, decodeMetrics, KeptMetrics]⟩
  | m :: ms, h => by
    obtain ⟨hm, hms⟩ : ValidMetric m ∧ ValidMetrics ms := by simpa [ValidMetrics] using h
    obtain ⟨pbm, henc, hkeep⟩ := metric_survives m hm
    obtain ⟨pbms, hencs, hkeeps⟩ := metrics_survive ms hms
    refine ⟨pbm :: pbms, ?_, ?_⟩
    · simp only [encodeMetrics, henc, hencs]
      rfl
    · simp [plainMetrics, decodeMetrics, KeptMetrics, hkeep, hkeeps]

end

/-- The payload's loop differs from the template's only in its error texts. -/
theorem mapM_encodeMetric {ms : List (Metric F32 F64)} {pbms : List (PbMetric F32 F64)}
    (text : Metric F32 F64 → String → String) (h : encodeMetrics ms = .ok pbms) :
    ms.mapM (fun m => (encodeMetric m).mapError (text m)) = .ok pbms := by
  induction ms generalizing pbms with
  | nil =>
    simp only [encodeMetrics] at h
    exact h
  | cons m ms ih =>
    simp only [encodeMetrics] at h
    cases hm : encodeMetric m with
    | error e => rw [hm] at h; cases h
    | ok pbm =>
      cases hms : encodeMetrics ms with
      | error e => rw [hm, hms] at h; cases h
      | ok rest =>
        rw [hm, hms] at h
        cases h
        simp only [List.mapM_cons, hm, ih hms]
        rfl

theorem decodeMetrics_eq_map (pbms : List (PbMetric F32 F64)) :
    decodeMetrics pbms = pbms.map decodeMetric := by
  induction pbms with
  | nil => rfl
  | cons m ms ih => simp [decodeMetrics, ih]

theorem payload_survives (p : Payload F32 F64) (h : ValidPayload p) :
    ∃ pbp, toPb p = .ok pbp ∧ (plainPayload (ofPb pbp) = plainPayload p ↔ KeptPayload p) := by
  obtain ⟨pbms, henc, hkeep⟩ := metrics_survive p.metrics h
  refine ⟨⟨some p.timestamp, pbms, if p.omitSeq then none else some p.seq⟩, ?_, ?_⟩
  · simp only [toPb, mapM_encodeMetric _ henc]
    rfl
  · cases hseq : p.omitSeq <;>
      simp [plainPayload, ofPb, hseq, ← decodeMetrics_eq_map, hkeep, KeptPayload]

/-- Of the protobuf library only this is used: it reads back the message that
the payload is encoded to. -/
def ReadsBack (proto : Proto F32 F64) (p : Payload F32 F64) : Prop :=
  ∀ pbp, toPb p = .ok pbp →
    ∃ data, proto.marshal pbp = .ok data ∧ proto.unmarshal data = .ok pbp

/-- A payload of values in range comes back the same exactly when no integer in
it is negative and no template parameter in it is zero, false, empty or
negative. -/
theorem roundTrips_iff_kept (proto : Proto F32 F64) (p : Payload F32 F64) (hp : ValidPayload p)
    (hproto : ReadsBack proto p) : RoundTrips proto p ↔ KeptPayload p := by
  obtain ⟨pbp, henc, hkeep⟩ := payload_survives p hp
  obtain ⟨data, hmarshal, hunmarshal⟩ := hproto pbp henc
  have hencode : encodePayload proto p = .ok data := by
    simp only [encodePayload, henc]
    exact hmarshal
  have hdecode : decodePayload proto data = .ok (ofPb pbp) := by
    simp only [decodePayload, hunmarshal]
    rfl
  rw [← hkeep]
  constructor
  · rintro ⟨data', q, he, hd, hq⟩
    rw [hencode, Except.ok.injEq] at he
    rw [← he, hdecode, Except.ok.injEq] at hd
    rw [hd]
    exact hq
  · intro hq
    exact ⟨data, ofPb pbp, hencode, hdecode, hq⟩

/-- One `Int32` metric named `a`. -/
def int32Payload (n : Int) : Payload ℚ ℚ :=
  { timestamp := 1
    seq := 0
    metrics := [{ name := "a", datatype := .int32, value := some (.int .int32 n) }] }

/-- The message that `int32Payload n` is encoded to, with its 32 bits given. -/
def int32Message (bits : Nat) : PbPayload ℚ ℚ :=
  ⟨some 1, [⟨some "a", none, none, some .int32, none, none, none, some (.intValue bits)⟩], some 0⟩

/-- The bytes of `int32Message 5` and of `int32Message 4294967291`. -/
def wireFive : Bytes := [8, 1, 18, 7, 10, 1, 97, 32, 3, 80, 5, 24, 0]
def wireMinusFive : Bytes := [8, 1, 18, 11, 10, 1, 97, 32, 3, 80, 251, 255, 255, 255, 15, 24, 0]

/-- A library that knows one message and its bytes. -/
def oneMessage (m : PbPayload ℚ ℚ) (data : Bytes) : Proto ℚ ℚ where
  marshal _ := .ok data
  unmarshal b := if b = data then .ok m else .error "proto: cannot parse invalid wire-format data"

theorem oneMessage_readsBack {m : PbPayload ℚ ℚ} {data : Bytes} {p : Payload ℚ ℚ}
    (hm : toPb p = .ok m) : ReadsBack (oneMessage m data) p := by
  intro pbp h
  rw [hm, Except.ok.injEq] at h
  exact ⟨data, rfl, by simp [oneMessage, h]⟩

theorem int32Payload_valid {n : Int} (h : -2 ^ 31 ≤ n) (h' : n < 2 ^ 31) :
    ValidPayload (int32Payload n) := by
  simpa [ValidPayload, int32Payload, ValidMetrics, ValidMetric, InRange, ValidValue] using ⟨h, h'⟩

theorem five_roundTrips : RoundTrips (oneMessage (int32Message 5) wireFive) (int32Payload 5) := by
  refine (roundTrips_iff_kept _ _ (int32Payload_valid (by decide) (by decide))
    (oneMessage_readsBack rfl)).mpr ?_
  simp [KeptPayload, int32Payload, KeptMetrics, KeptMetric, KeptValue]

/-- An `Int32` of minus five comes back as 4294967291. -/
theorem minus_five_not_roundTrips :
    ¬ ∀ (proto : Proto ℚ ℚ) (p : Payload ℚ ℚ),
      ValidPayload p → ReadsBack proto p → RoundTrips proto p := by
  intro h
  obtain ⟨data, q, he, hd, hq⟩ := h (oneMessage (int32Message 4294967291) wireMinusFive)
    (int32Payload (-5)) (int32Payload_valid (by decide) (by decide)) (oneMessage_readsBack rfl)
  have hencode : encodePayload (oneMessage (int32Message 4294967291) wireMinusFive)
      (int32Payload (-5)) = .ok wireMinusFive := rfl
  rw [hencode, Except.ok.injEq] at he
  subst he
  have hdecode : decodePayload (oneMessage (int32Message 4294967291) wireMinusFive) wireMinusFive =
      .ok (ofPb (int32Message 4294967291)) := rfl
  rw [hdecode, Except.ok.injEq] at hd
  subst hd
  simp [plainPayload, plainMetrics, plainMetric, plainValue, int32Message, int32Payload, ofPb,
    decodeMetric, decodeValue] at hq

end SparkplugRoundTrip
