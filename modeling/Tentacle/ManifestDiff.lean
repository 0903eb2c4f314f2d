import Tentacle.ManifestRoundTrip

/-!
# The diff after an apply

`Diff` compares a list of resources with the export of the current state. After an apply of
the same list it should report no change. Apply adds to the state and never removes from it,
and it puts empty maps in the place of null ones, while the diff compares all that the
export has: what an earlier state left behind shows as a change, and so does a null map.
-/

namespace Manifest

open GoValues JsonCodec Std

variable (order : KeyOrder)

/-! ## Diff -/

inductive Action where
  | create
  | update
  | unchanged
  deriving DecidableEq, Repr

structure DiffChange where
  kind : Kind
  name : String
  action : Action
  detail : String := ""
  deriving DecidableEq, Repr

def resourceKey (r : Resource) : String :=
  if r.name = "" then "" else r.kind.text ++ "/" ++ r.name

/-- The fields of a document by their keys, as `json.Unmarshal` reads them. -/
def documentFields : Doc → StrMap Doc
  | .object fields => .ofList fields
  | _ => ∅

/-- One round of the loop over all keys of two documents. -/
def fieldDiff (currMap desMap : StrMap Doc) (k : String) : Option String :=
  match currMap[k]?, desMap[k]? with
  | none, _ => some ("+" ++ k)
  | some _, none => some ("-" ++ k)
  | some c, some d => if c ≠ d then some ("~" ++ k) else none

def compareResources (current desired : Resource) : String :=
  let currJSON := current.spec.encode
  let desJSON := desired.spec.encode
  if currJSON = desJSON then ""
  else
    let currMap := documentFields currJSON
    let desMap := documentFields desJSON
    let allKeys := order.shuffle "allKeys" (currMap ∪ desMap).keys
    let diffs := allKeys.filterMap (fieldDiff currMap desMap)
    if diffs.isEmpty then "spec changed" else ", ".intercalate diffs

def currentMap (current : List Resource) : StrMap Resource :=
  writeAll ∅ (current.filterMap fun r =>
    if resourceKey r = "" then none else some (resourceKey r, r))

def diffResource (current : StrMap Resource) (desired : Resource) : Option DiffChange :=
  if resourceKey desired = "" then none
  else
    match current[resourceKey desired]? with
    | none => some { kind := desired.kind, name := desired.name, action := .create }
    | some existing =>
      let detail := compareResources order existing desired
      some {
        kind := desired.kind
        name := desired.name
        action := if detail = "" then .unchanged else .update
        detail := detail }

def diff (b : Bus) (resources : List Resource) : List DiffChange :=
  resources.filterMap (diffResource order (currentMap (exportResources order [] b)))

/-- The diff reports every resource, and each as unchanged. -/
def Unchanged (b : Bus) (resources : List Resource) : Prop :=
  diff order b resources =
    resources.map fun r => { kind := r.kind, name := r.name, action := .unchanged }

/-! ## When a resource is reported as unchanged -/

/-- A list of texts with a first one is not written as nothing. -/
theorem intercalate_ne_empty {s : String} (hs : s ≠ "") (l : List String) :
    ", ".intercalate (s :: l) ≠ "" := by
  cases l with
  | nil => rwa [String.intercalate_singleton]
  | cons t l =>
    rw [String.intercalate_cons_cons]
    intro hempty
    exact hs (String.append_eq_empty_iff.mp (String.append_eq_empty_iff.mp hempty).1).1

/-- A difference is never reported as the empty text. -/
theorem fieldDiff_ne_empty {currMap desMap : StrMap Doc} {k text : String}
    (h : fieldDiff currMap desMap k = some text) : text ≠ "" := by
  have hcons : ∀ c : String, c ≠ "" → c ++ k ≠ "" := by
    intro c hc hempty
    exact hc (String.append_eq_empty_iff.mp hempty).1
  rw [fieldDiff] at h
  split at h
  next =>
    cases h
    exact hcons "+" (by decide)
  next =>
    cases h
    exact hcons "-" (by decide)
  next =>
    split at h
    next =>
      cases h
      exact hcons "~" (by decide)
    next => cases h

/-- No difference is reported exactly for resources with one JSON. -/
theorem compareResources_eq_empty_iff (current desired : Resource) :
    compareResources order current desired = "" ↔ current.spec.encode = desired.spec.encode := by
  rw [compareResources]
  split
  next hsame => exact iff_of_true rfl hsame
  next hne =>
    refine iff_of_false ?_ hne
    dsimp only
    split
    next => decide
    next hdiffs =>
      generalize hd : (order.shuffle "allKeys" _).filterMap _ = diffs at hdiffs ⊢
      cases diffs with
      | nil => exact absurd rfl hdiffs
      | cons text diffs =>
        have hmem : text ∈ text :: diffs := .head _
        rw [← hd] at hmem
        obtain ⟨k, -, hk⟩ := List.mem_filterMap.mp hmem
        exact intercalate_ne_empty (fieldDiff_ne_empty hk) diffs

/-- The JSON does not tell a resource from what is read back of it. -/
theorem encode_wire (spec : Spec) : spec.wire.encode = spec.encode := by
  cases spec with
  | plc spec =>
    apply encodeRecord_congr
    intro f hf
    simp only [PlcSpec.fields, List.mem_cons, List.not_mem_nil, or_false] at hf
    obtain rfl | rfl | rfl | rfl | rfl := hf
    · rfl
    · rfl
    · rfl
    · rfl
    · exact getD_nilIfEmpty (spec.programs.getD ∅)
  | _ => rfl

/-- Two specs of one kind have one JSON exactly if they are read back alike. -/
theorem encode_eq_iff {spec spec' : Spec} (hkind : spec.kind = spec'.kind) :
    spec.encode = spec'.encode ↔ spec.wire = spec'.wire := by
  constructor
  · intro h
    have hdecode := decodeSpec_encode spec
    rw [h, hkind, decodeSpec_encode] at hdecode
    exact (Option.some.inj hdecode).symm
  · intro h
    rw [← encode_wire, h, encode_wire]

theorem Kind.text_not_slash (kind : Kind) : '/' ∉ kind.text.toList := by
  cases kind <;> decide

/-- Two lists that are cut at the first occurrence of an element. -/
theorem append_cons_inj {α : Type} {a : α} {x x' z z' : List α} (hx : a ∉ x) (hx' : a ∉ x')
    (h : x ++ a :: z = x' ++ a :: z') : x = x' ∧ z = z' := by
  induction x generalizing x' with
  | nil =>
    cases x' with
    | nil => exact ⟨rfl, (List.cons.inj h).2⟩
    | cons c x' => exact absurd ((List.cons.inj h).1 ▸ .head _) hx'
  | cons c x ih =>
    cases x' with
    | nil => exact absurd ((List.cons.inj h).1 ▸ .head _) hx
    | cons c' x' =>
      obtain ⟨rfl, hrest⟩ := List.cons.inj h
      obtain ⟨rfl, rfl⟩ := ih (fun hmem => hx (.tail _ hmem)) (fun hmem => hx' (.tail _ hmem)) hrest
      exact ⟨rfl, rfl⟩

theorem resourceKey_ne_empty {r : Resource} (hname : r.name ≠ "") : resourceKey r ≠ "" := by
  rw [resourceKey, if_neg hname, ne_eq, String.append_eq_empty_iff]
  exact fun h => hname h.2

/-- Resources with names have one key only if they have one kind and one name. -/
theorem resourceKey_inj {r r' : Resource} (hname : r.name ≠ "") (hname' : r'.name ≠ "")
    (h : resourceKey r = resourceKey r') : r.kind = r'.kind ∧ r.name = r'.name := by
  rw [resourceKey, resourceKey, if_neg hname, if_neg hname', ← String.toList_inj] at h
  simp only [String.toList_append, List.append_assoc] at h
  obtain ⟨hkind, hname⟩ := append_cons_inj r.kind.text_not_slash r'.kind.text_not_slash h
  refine ⟨?_, String.toList_inj.mp hname⟩
  rw [String.toList_inj] at hkind
  exact Option.some.inj (by rw [← knownKind_text, hkind, knownKind_text])

variable {order} {b : Bus}

theorem eq_of_eq_nil_or {α β : Type} {l : List α} {f : β → α} (h : l = [] ∨ ∃ c, l = [f c])
    {a a' : α} (ha : a ∈ l) (ha' : a' ∈ l) : a = a' := by
  obtain ⟨c, rfl, rfl⟩ := mem_of_eq_nil_or h ha
  exact (List.mem_singleton.mp ha').symm

/-- No two resources of an export have the same kind and name. -/
theorem Exported.unique {r r' : Resource} (h : Exported b r) (h' : Exported b r')
    (hkind : r.kind = r'.kind) (hname : r.name = r'.name) : r = r' := by
  cases h with
  | gateway hkv =>
    cases h' with
    | gateway hkv' =>
      obtain rfl : _ = _ := hname
      cases hkv.symm.trans hkv'
      rfl
    | _ => cases hkind
  | service hkv =>
    cases h' with
    | service hkv' =>
      obtain rfl : _ = _ := hname
      cases hkv.symm.trans hkv'
      rfl
    | _ => cases hkind
  | moduleConfig hvalues =>
    cases h' with
    | moduleConfig hvalues' =>
      obtain rfl : _ = _ := hname
      cases hvalues.symm.trans hvalues'
      rfl
    | _ => cases hkind
  | nftables _ h =>
    cases h' with
    | nftables _ h' => exact eq_of_eq_nil_or (exportNftables_eq b) h h'
    | _ => cases hkind
  | plc hkv =>
    cases h' with
    | plc hkv' =>
      obtain rfl : _ = _ := hname
      cases hkv.symm.trans hkv'
      rfl
    | _ => cases hkind
  | network _ h =>
    cases h' with
    | network _ h' => exact eq_of_eq_nil_or (exportNetwork_eq b) h h'
    | _ => cases hkind

/-- The map of the current state holds the exported resource under its key. -/
theorem currentMap_getElem? {desired existing : Resource} (hname : desired.name ≠ "") :
    (currentMap (exportResources order [] b))[resourceKey desired]? = some existing ↔
      Exported b existing ∧ existing.kind = desired.kind ∧ existing.name = desired.name := by
  have hname_of_key : ∀ {r : Resource}, resourceKey r ≠ "" → r.name ≠ "" := by
    intro r hr hempty
    exact hr (if_pos hempty)
  have hwrite : ∀ w, w ∈ ((exportResources order [] b).filterMap fun r =>
      if resourceKey r = "" then none else some (resourceKey r, r)) ↔
        Exported b w.2 ∧ resourceKey w.2 ≠ "" ∧ w.1 = resourceKey w.2 := by
    rintro ⟨key, r⟩
    rw [List.mem_filterMap]
    constructor
    · rintro ⟨r', hr', hwrite⟩
      split at hwrite
      next => cases hwrite
      next hkey' =>
        cases hwrite
        exact ⟨mem_exportResources.mp hr', hkey', rfl⟩
    · rintro ⟨hr, hkey', hw⟩
      refine ⟨r, mem_exportResources.mpr hr, ?_⟩
      rw [if_neg hkey', ← hw]
  have hconsistent : Consistent ((exportResources order [] b).filterMap fun r =>
      if resourceKey r = "" then none else some (resourceKey r, r)) := by
    intro w hw w' hw' hsame
    obtain ⟨hr, hkey', hw⟩ := (hwrite w).mp hw
    obtain ⟨hr', hkey'', hw'⟩ := (hwrite w').mp hw'
    rw [hw, hw'] at hsame
    obtain ⟨hkind, hname⟩ := resourceKey_inj (hname_of_key hkey') (hname_of_key hkey'') hsame
    exact hr.unique hr' hkind hname
  rw [currentMap, hconsistent.getElem?_writeAll_empty, hwrite]
  constructor
  · rintro ⟨hr, hkey', hsame⟩
    obtain ⟨hkind, hname⟩ := resourceKey_inj (hname_of_key hkey') hname hsame.symm
    exact ⟨hr, hkind, hname⟩
  · rintro ⟨hr, hkind, hsame⟩
    have heq : resourceKey desired = resourceKey existing := by
      rw [resourceKey, resourceKey, hkind, hsame]
    exact ⟨hr, heq ▸ resourceKey_ne_empty hname, heq⟩

theorem Spec.kind_wire (spec : Spec) : spec.wire.kind = spec.kind := by
  cases spec <;> rfl

/-- A resource is unchanged exactly if one with its kind, name and JSON is exported. -/
theorem diffResource_unchanged_iff {r : Resource} (hname : r.name ≠ "") :
    diffResource order (currentMap (exportResources order [] b)) r =
        some { kind := r.kind, name := r.name, action := .unchanged } ↔
      ∃ r', Exported b r' ∧ r'.name = r.name ∧ r'.spec.wire = r.spec.wire := by
  have hcurrent : ∀ r', Exported b r' → r'.name = r.name → r'.spec.wire = r.spec.wire →
      (currentMap (exportResources order [] b))[resourceKey r]? = some r' := by
    intro r' hr' hsame hwire
    refine (currentMap_getElem? hname).mpr ⟨hr', ?_, hsame⟩
    rw [Resource.kind, Resource.kind, ← Spec.kind_wire, hwire, Spec.kind_wire]
  rw [diffResource, if_neg (resourceKey_ne_empty hname)]
  cases hmap : (currentMap (exportResources order [] b))[resourceKey r]? with
  | none =>
    apply iff_of_false (by simp)
    rintro ⟨r', hr', hsame, hwire⟩
    rw [hcurrent r' hr' hsame hwire] at hmap
    cases hmap
  | some existing =>
    obtain ⟨hexported, hkind, hsame⟩ := (currentMap_getElem? hname).mp hmap
    have hdetail := (compareResources_eq_empty_iff order existing r).trans (encode_eq_iff hkind)
    constructor
    · intro h
      have hempty := congrArg DiffChange.detail (Option.some.inj h)
      exact ⟨existing, hexported, hsame, hdetail.mp hempty⟩
    · rintro ⟨r', hr', hsame', hwire⟩
      rw [hcurrent r' hr' hsame' hwire] at hmap
      cases hmap
      dsimp only
      rw [hdetail.mpr hwire, if_pos rfl]

/-- Named resources are reported as unchanged exactly when the state exports each of them. -/
theorem unchanged_iff {resources : List Resource} (hnames : ∀ r ∈ resources, r.name ≠ "") :
    Unchanged order b resources ↔
      ∀ r ∈ resources, ∃ r', Exported b r' ∧ r'.name = r.name ∧ r'.spec.wire = r.spec.wire := by
  have hsome : ∀ r ∈ resources,
      (diffResource order (currentMap (exportResources order [] b)) r).isSome := by
    intro r hr
    rw [diffResource, if_neg (resourceKey_ne_empty (hnames r hr))]
    split <;> rfl
  rw [Unchanged, diff, ← List.filterMap_eq_map', filterMap_eq_iff fun r hr => hsome r hr]
  exact forall₂_congr fun r hr => diffResource_unchanged_iff (hnames r hr)

/-! ## Lists of resources -/

/-- The spec has no secret. A placeholder is none. -/
def Spec.NoSecrets : Spec → Prop
  | .gateway spec => ∀ (devID : String) dev, (spec.devices.getD ∅)[devID]? = some dev →
      dev.NoPassword
  | .moduleConfig spec => ∀ (envVar : String) value, (spec.values.getD ∅)[envVar]? = some value →
      isSecretEnvVar envVar → value = "" ∨ value = secretPlaceholder
  | _ => True

/-- A valid list of gateways, services, module configurations and PLCs, each once and with
no secrets. -/
structure Declared (resources : List Resource) : Prop where
  valid : validate resources = []
  distinct : (resources.map fun r => (r.kind, r.name)).Nodup
  kinds : ∀ r ∈ resources, r.kind ≠ .nftables ∧ r.kind ≠ .network
  noSecrets : ∀ r ∈ resources, r.spec.NoSecrets

def listedPrograms (r : Resource) : List (String × PlcProgramSpec) :=
  match r.spec with
  | .plc spec => (spec.programs.getD ∅).toList
  | _ => []

/-- The values of a module can be found in the state after they were written: the module is
exported under its name, nothing else is stored for it, and what a placeholder stands for is
stored. -/
structure SettledValues (b : Bus) (moduleID : String) (values : StrMap String) : Prop where
  noDot : '.' ∉ moduleID.toList
  nonempty : values ≠ ∅
  noLeftover : ∀ envVar : String, values[envVar]? = none →
    b.tentacleConfig[configKey moduleID envVar]? = none
  stored : ∀ envVar : String, values[envVar]? = some secretPlaceholder →
    ∃ value, b.tentacleConfig[configKey moduleID envVar]? = some value ∧
      (value = secretPlaceholder ∨ value ≠ "" ∧ isSecretEnvVar envVar)

/-- The programs of a PLC are those that its tasks find: each is referred to, and a program
that a task refers to is the one that the list has last, or else the stored one. -/
structure SettledPlc (b : Bus) (resources : List Resource) (spec : PlcSpec) : Prop where
  devices : spec.devices ≠ none
  variableConfigs : spec.variableConfigs ≠ none
  tasks : spec.tasks ≠ none
  referenced : ∀ program : String, (spec.programs.getD ∅)[program]?.isSome →
    ∃ (taskID : String) (task : PlcTaskConfigKV), (spec.tasks.getD ∅)[taskID]? = some task ∧
      task.programRef = program
  found : ∀ (taskID : String) (task : PlcTaskConfigKV), (spec.tasks.getD ∅)[taskID]? = some task →
    (spec.programs.getD ∅)[task.programRef]? =
      (lastWrite (resources.flatMap listedPrograms) task.programRef).or
        ((record? b.plcPrograms task.programRef).map programSpec)

/-- The state has nothing that shows as a difference after the list is applied, and the list
has no null map. -/
def Settled (b : Bus) (resources : List Resource) (r : Resource) : Prop :=
  match r.spec with
  | .gateway spec => spec.devices ≠ none ∧ spec.variableConfigs ≠ none
  | .service spec => spec.enabled = none → record? b.serviceEnabled r.name = none
  | .moduleConfig spec => SettledValues b r.name (spec.values.getD ∅)
  | .plc spec => SettledPlc b resources spec
  | _ => True

variable {resources : List Resource}

theorem Declared.eq (h : Declared resources) {r r' : Resource} (hr : r ∈ resources)
    (hr' : r' ∈ resources) (hkind : r.kind = r'.kind) (hname : r.name = r'.name) : r = r' :=
  List.inj_on_of_nodup_map h.distinct hr hr' (Prod.ext hkind hname)

theorem Declared.issues (h : Declared resources) {r : Resource} (hr : r ∈ resources) :
    issuesOf r = [] := validate_eq_nil_iff.mp h.valid r hr

theorem Declared.name_ne_empty (h : Declared resources) {r : Resource} (hr : r ∈ resources) :
    r.name ≠ "" := by
  have hissues := h.issues hr
  have hkinds := h.kinds r hr
  obtain ⟨name, spec⟩ := r
  rw [← nameIssues_eq_nil_iff]
  cases spec with
  | gateway spec =>
    simp only [issuesOf, validateGateway, List.append_eq_nil_iff] at hissues
    exact hissues.1.1.1
  | service spec =>
    simp only [issuesOf, validateService, List.append_eq_nil_iff] at hissues
    exact hissues.1
  | moduleConfig spec =>
    simp only [issuesOf, validateModuleConfig, List.append_eq_nil_iff] at hissues
    exact hissues.1
  | plc spec =>
    simp only [issuesOf, validatePlc, List.append_eq_nil_iff] at hissues
    exact hissues.1.1.1
  | nftables spec => exact absurd rfl hkinds.1
  | network spec => exact absurd rfl hkinds.2

theorem Declared.programRef_ne_empty (h : Declared resources) {name : String} {spec : PlcSpec}
    (hr : { name := name, spec := .plc spec } ∈ resources) {taskID : String}
    {task : PlcTaskConfigKV} (htask : (spec.tasks.getD ∅)[taskID]? = some task) :
    task.programRef ≠ "" := by
  have hissues := h.issues hr
  simp only [issuesOf, validatePlc, List.append_eq_nil_iff] at hissues
  obtain ⟨⟨-, htasks⟩, -⟩ := hissues
  have hprogram := (List.append_eq_nil_iff.mp (entryIssues_eq_nil_iff.mp htasks taskID task htask)).1
  intro hempty
  rw [if_pos hempty] at hprogram
  cases hprogram

theorem Declared.values_ne_none (h : Declared resources) {name : String} {spec : ModuleConfigSpec}
    (hr : { name := name, spec := .moduleConfig spec } ∈ resources) :
    spec.values = some (spec.values.getD ∅) := by
  have hissues := h.issues hr
  simp only [issuesOf, validateModuleConfig, List.append_eq_nil_iff] at hissues
  cases hvalues : spec.values with
  | none =>
    rw [hvalues] at hissues
    cases hissues.2
  | some values => rfl

/-! ## Records after an apply -/

section

variable {α : Type} {bucket : Bucket α} {key : String}

/-- A resource that writes its one record under its name, alone of its kind and name. -/
theorem Declared.record?_writeAll (h : Declared resources) {f : Resource → List (String × Option α)}
    (kind : Kind) (hf : ∀ r, ∀ w ∈ f r, w.1 = r.name ∧ r.kind = kind)
    (hsame : ∀ r, ∀ w ∈ f r, ∀ w' ∈ f r, w = w') {r : Resource} (hr : r ∈ resources) {a : α}
    (hw : (r.name, some a) ∈ f r) :
    record? (writeAll bucket (resources.flatMap f)) r.name = some a := by
  have hconsistent : Consistent (resources.flatMap f) := by
    intro w hw w' hw' hkey
    obtain ⟨r, hr, hw⟩ := List.mem_flatMap.mp hw
    obtain ⟨r', hr', hw'⟩ := List.mem_flatMap.mp hw'
    rw [(hf r w hw).1, (hf r' w' hw').1] at hkey
    obtain rfl : r = r' := h.eq hr hr' ((hf r w hw).2.trans (hf r' w' hw').2.symm) hkey
    rw [hsame r w hw w' hw']
  have hlast := hconsistent.lastWrite (List.mem_flatMap.mpr ⟨r, hr, hw⟩)
  rw [record?, getElem?_writeAll, hlast]
  rfl

theorem record?_writeAll_of_forall_ne {writes : List (String × Option α)}
    (h : ∀ w ∈ writes, w.1 ≠ key) : record? (writeAll bucket writes) key = record? bucket key := by
  rw [record?, getElem?_writeAll, lastWrite_eq_none_iff.mpr h]
  rfl

end

variable {call : Call} {b' : Bus}

/-- After the apply the record of a gateway is the one that was declared. -/
theorem Declared.gateway_written (h : Declared resources) (hwritten : Written call b resources b')
    {name : String} {spec : GatewaySpec} (hr : { name := name, spec := .gateway spec } ∈ resources) :
    record? b'.gatewayConfig name = some (gatewayRecord call name spec) := by
  rw [hwritten.gatewayConfig]
  refine h.record?_writeAll .gateway ?_ ?_ hr (.head _)
  all_goals
    rintro ⟨name, spec⟩
    cases spec <;> simp [gatewayWrites, Resource.kind, Spec.kind]

theorem Declared.service_written (h : Declared resources) (hwritten : Written call b resources b')
    {name : String} {spec : ServiceSpec} (hr : { name := name, spec := .service spec } ∈ resources) :
    record? b'.desiredServices name = some (serviceRecord call name spec) := by
  rw [hwritten.desiredServices]
  refine h.record?_writeAll .service ?_ ?_ hr (.head _)
  all_goals
    rintro ⟨name, spec⟩
    cases spec <;> simp [serviceWrites, Resource.kind, Spec.kind]

theorem Declared.plc_written (h : Declared resources) (hwritten : Written call b resources b')
    {name : String} {spec : PlcSpec} (hr : { name := name, spec := .plc spec } ∈ resources) :
    record? b'.plcConfig name = some (plcRecord call name spec) := by
  rw [hwritten.plcConfig]
  refine h.record?_writeAll .plc ?_ ?_ hr (.head _)
  all_goals
    rintro ⟨name, spec⟩
    cases spec <;> simp [plcWrites, Resource.kind, Spec.kind]

/-- The switch of a service is written if the manifest sets it. -/
theorem mem_enabledWrites_iff {r : Resource} {w : String × Option ServiceEnabledKV} :
    w ∈ enabledWrites call r ↔ ∃ spec on, r.spec = .service spec ∧ spec.enabled = some on ∧
      w = (r.name, some (enabledRecord call r.name on)) := by
  obtain ⟨name, spec⟩ := r
  rw [enabledWrites]
  cases spec with
  | service spec =>
    rw [Option.mem_toList, Option.map_eq_some_iff]
    constructor
    · rintro ⟨on, hon, rfl⟩
      exact ⟨spec, on, rfl, hon, rfl⟩
    · rintro ⟨_, on, ⟨⟩, hon, rfl⟩
      exact ⟨on, hon, rfl⟩
  | _ => simp

/-- The flag that is exported for a service: the one in the list, or else the one that was
stored. -/
theorem Declared.enabled_written (h : Declared resources) (hwritten : Written call b resources b')
    {name : String} {spec : ServiceSpec} (hr : { name := name, spec := .service spec } ∈ resources) :
    (record? b'.serviceEnabled name).map ServiceEnabledKV.enabled =
      spec.enabled.or ((record? b.serviceEnabled name).map ServiceEnabledKV.enabled) := by
  rw [hwritten.serviceEnabled]
  cases henabled : spec.enabled with
  | some enabled =>
    have hrecord : record? (writeAll b.serviceEnabled (resources.flatMap (enabledWrites call))) name =
        some (enabledRecord call name enabled) := by
      refine h.record?_writeAll .service ?_ ?_ hr ?_
      · intro r w hw
        obtain ⟨spec, on, hspec, -, rfl⟩ := mem_enabledWrites_iff.mp hw
        exact ⟨rfl, congrArg Spec.kind hspec⟩
      · intro r w hw w' hw'
        obtain ⟨spec, on, hspec, hon, rfl⟩ := mem_enabledWrites_iff.mp hw
        obtain ⟨spec', on', hspec', hon', rfl⟩ := mem_enabledWrites_iff.mp hw'
        cases hspec.symm.trans hspec'
        cases hon.symm.trans hon'
        rfl
      · exact mem_enabledWrites_iff.mpr ⟨spec, enabled, rfl, henabled, rfl⟩
    rw [hrecord]
    rfl
  | none =>
    rw [record?_writeAll_of_forall_ne, Option.none_or]
    intro w hw hkey
    obtain ⟨r, hr', hw⟩ := List.mem_flatMap.mp hw
    obtain ⟨spec', on, hspec', hon, rfl⟩ := mem_enabledWrites_iff.mp hw
    cases h.eq hr hr' (congrArg Spec.kind hspec').symm hkey.symm
    cases hspec'
    rw [henabled] at hon
    cases hon

/-- A program is the last that the list declares under its name, or the one from before. -/
theorem programs_written (hwritten : Written call b resources b') (program : String) :
    (record? b'.plcPrograms program).map programSpec =
      (lastWrite (resources.flatMap listedPrograms) program).or
        ((record? b.plcPrograms program).map programSpec) := by
  have hwrites : resources.flatMap (programWrites call) =
      (resources.flatMap listedPrograms).map fun w =>
        (w.1, some (programRecord call w.1 w.2)) := by
    rw [List.map_flatMap]
    refine congrArg (List.flatMap · resources) (funext ?_)
    rintro ⟨name, spec⟩
    cases spec <;> rfl
  rw [hwritten.plcPrograms, hwrites, record?, getElem?_writeAll,
    lastWrite_map fun name spec => some (programRecord call name spec)]
  cases lastWrite (resources.flatMap listedPrograms) program with
  | none => rfl
  | some spec => rfl

/-- The settings of a module are written one by one, without the placeholders. -/
theorem mem_configWrites {name : String} {spec : ModuleConfigSpec} {w : String × String} :
    w ∈ configWrites { name := name, spec := .moduleConfig spec } ↔
      ∃ (envVar : String) (value : String), (spec.values.getD ∅)[envVar]? = some value ∧
        value ≠ secretPlaceholder ∧ w = (configKey name envVar, value) := by
  rw [configWrites, List.mem_filterMap]
  constructor
  · rintro ⟨⟨envVar, value⟩, he, hwrite⟩
    rw [valueWrite] at hwrite
    split at hwrite
    next => cases hwrite
    next hplaceholder =>
      cases hwrite
      refine ⟨envVar, value, ExtTreeMap.mem_toList_iff_getElem?_eq_some.mp he, ?_, rfl⟩
      rintro rfl
      exact hplaceholder (decide_eq_true rfl)
  · rintro ⟨envVar, value, hvalue, hplaceholder, rfl⟩
    refine ⟨(envVar, value), ExtTreeMap.mem_toList_iff_getElem?_eq_some.mpr hvalue, if_neg ?_⟩
    intro h
    exact hplaceholder (of_decide_eq_true h)

theorem configKey_inj {moduleID moduleID' envVar envVar' : String} (hdot : '.' ∉ moduleID.toList)
    (hdot' : '.' ∉ moduleID'.toList) (h : configKey moduleID envVar = configKey moduleID' envVar') :
    moduleID = moduleID' ∧ envVar = envVar' := by
  have hsplit := splitModule_configKey hdot envVar
  rw [h, splitModule_configKey hdot', Option.some.injEq, Prod.mk.injEq] at hsplit
  exact ⟨hsplit.1.symm, hsplit.2.symm⟩

/-- No module of the list has a dot in its name. -/
def NoDots (resources : List Resource) : Prop :=
  ∀ name spec, { name := name, spec := .moduleConfig spec } ∈ resources → '.' ∉ name.toList

/-- A value of the list is written under its key, if it is no placeholder; no other write
goes there. -/
theorem Declared.value_written (h : Declared resources) (hdots : NoDots resources)
    (hwritten : Written call b resources b') {name : String} {spec : ModuleConfigSpec}
    (hr : { name := name, spec := .moduleConfig spec } ∈ resources) (envVar : String) :
    b'.tentacleConfig[configKey name envVar]? =
      ((spec.values.getD ∅)[envVar]?.filter (· ≠ secretPlaceholder)).or
        b.tentacleConfig[configKey name envVar]? := by
  have hwrites : ∀ value, (configKey name envVar, value) ∈ resources.flatMap configWrites ↔
      (spec.values.getD ∅)[envVar]? = some value ∧ value ≠ secretPlaceholder := by
    intro value
    rw [List.mem_flatMap]
    constructor
    · rintro ⟨⟨name', spec'⟩, hr', hw⟩
      cases spec' with
      | moduleConfig spec' =>
        obtain ⟨envVar', value', hvalue', hplaceholder, hwrite⟩ := mem_configWrites.mp hw
        obtain ⟨hkey, rfl⟩ := Prod.mk.inj hwrite
        obtain ⟨rfl, rfl⟩ := configKey_inj (hdots _ _ hr) (hdots _ _ hr') hkey
        cases h.eq hr hr' rfl rfl
        exact ⟨hvalue', hplaceholder⟩
      | _ => cases hw
    · rintro ⟨hvalue, hplaceholder⟩
      exact ⟨_, hr, mem_configWrites.mpr ⟨envVar, value, hvalue, hplaceholder, rfl⟩⟩
  have hlast : lastWrite (resources.flatMap configWrites) (configKey name envVar) =
      (spec.values.getD ∅)[envVar]?.filter (· ≠ secretPlaceholder) := by
    apply Option.ext
    intro value
    rw [Option.filter_eq_some_iff, decide_eq_true_iff, ← hwrites]
    refine ⟨mem_of_lastWrite, ?_⟩
    intro hw
    cases hlast : lastWrite (resources.flatMap configWrites) (configKey name envVar) with
    | none => exact absurd rfl (lastWrite_eq_none_iff.mp hlast _ hw)
    | some value' =>
      have hvalue' := ((hwrites value').mp (mem_of_lastWrite hlast)).1
      rw [((hwrites value).mp hw).1] at hvalue'
      exact hvalue'.symm
  rw [hwritten.tentacleConfig, getElem?_writeAll, hlast]

/-! ## Each kind -/

/-- A gateway is exported as the spec of its redacted record. -/
theorem exported_gateway_iff {name : String} {spec : GatewaySpec} :
    (∃ r', Exported b r' ∧ r'.name = name ∧ r'.spec.wire = .gateway spec) ↔
      ∃ kv, record? b.gatewayConfig name = some kv ∧
        (redactResource (gatewayResource name kv)).spec = .gateway spec := by
  constructor
  · rintro ⟨r', hr', rfl, hwire⟩
    cases hr' with
    | gateway hkv => exact ⟨_, hkv, hwire⟩
    | _ => cases hwire
  · rintro ⟨kv, hkv, hspec⟩
    exact ⟨_, .gateway hkv, rfl, hspec⟩

/-- A service is exported as the spec of its record. -/
theorem exported_service_iff {name : String} {spec : ServiceSpec} :
    (∃ r', Exported b r' ∧ r'.name = name ∧ r'.spec.wire = .service spec) ↔
      ∃ kv, record? b.desiredServices name = some kv ∧
        (serviceResource b name kv).spec = .service spec := by
  constructor
  · rintro ⟨r', hr', rfl, hwire⟩
    cases hr' with
    | service hkv => exact ⟨_, hkv, hwire⟩
    | _ => cases hwire
  · rintro ⟨kv, hkv, hspec⟩
    exact ⟨_, .service hkv, rfl, hspec⟩

/-- The settings of a module are exported with their secrets redacted. -/
theorem exported_moduleConfig_iff {name : String} {spec : ModuleConfigSpec} :
    (∃ r', Exported b r' ∧ r'.name = name ∧ r'.spec.wire = .moduleConfig spec) ↔
      ∃ values, (moduleGroups b)[name]? = some values ∧
        some (values.map redactValue) = spec.values := by
  constructor
  · rintro ⟨r', hr', rfl, hwire⟩
    cases hr' with
    | moduleConfig hvalues =>
      exact ⟨_, hvalues, congrArg ModuleConfigSpec.values (Spec.moduleConfig.inj hwire)⟩
    | _ => cases hwire
  · rintro ⟨values, hvalues, hspec⟩
    exact ⟨_, .moduleConfig hvalues, rfl, congrArg (fun v => Spec.moduleConfig ⟨v⟩) hspec⟩

/-- A PLC is exported as the spec of its record. -/
theorem exported_plc_iff {name : String} {spec : PlcSpec} :
    (∃ r', Exported b r' ∧ r'.name = name ∧ r'.spec.wire = .plc spec) ↔
      ∃ kv, record? b.plcConfig name = some kv ∧
        (plcResource b name kv).spec.wire = .plc spec := by
  constructor
  · rintro ⟨r', hr', rfl, hwire⟩
    cases hr' with
    | plc hkv => exact ⟨_, hkv, hwire⟩
    | _ => cases hwire
  · rintro ⟨kv, hkv, hspec⟩
    exact ⟨_, .plc hkv, rfl, hspec⟩

/-- The settings of a module without a dot in its name are grouped under it. -/
theorem envValue_moduleGroups {moduleID : String} (hdot : '.' ∉ moduleID.toList)
    (envVar : String) : envValue (moduleGroups b) moduleID envVar =
      b.tentacleConfig[configKey moduleID envVar]? := by
  rw [moduleGroups, envValue_groupModules]
  split
  next => rfl
  next hkey =>
    rw [mem_keys_iff, not_and] at hkey
    exact (Option.not_isSome_iff_eq_none.mp (hkey hdot)).symm

/-- A group has a name without a dot. -/
theorem not_dot_of_moduleGroups {moduleID : String} {values : StrMap String}
    (h : (moduleGroups b)[moduleID]? = some values) : '.' ∉ moduleID.toList := by
  obtain ⟨envVar, value, hvalue⟩ := exists_getElem?_of_ne_empty (groupModules_ne_empty h)
  have hsome : envValue (moduleGroups b) moduleID envVar = some value := by
    rw [envValue, h]
    exact hvalue
  rw [moduleGroups, envValue_groupModules] at hsome
  split at hsome
  next hmem => exact hmem.1
  next => cases hsome

/-- A module is exported with certain values when these are what is stored, redacted. -/
theorem exported_values_iff {moduleID : String} (hdot : '.' ∉ moduleID.toList)
    (listed : StrMap String) :
    (∃ values, (moduleGroups b)[moduleID]? = some values ∧ values.map redactValue = listed) ↔
      listed ≠ ∅ ∧ ∀ envVar : String, listed[envVar]? =
        b.tentacleConfig[configKey moduleID envVar]?.map (redactValue envVar) := by
  constructor
  · rintro ⟨values, hvalues, rfl⟩
    refine ⟨?_, ?_⟩
    · rw [ne_eq, ExtTreeMap.map_eq_empty_iff]
      exact groupModules_ne_empty hvalues
    · intro envVar
      rw [ExtTreeMap.getElem?_map, ← envValue_moduleGroups hdot, envValue, hvalues]
      rfl
  · rintro ⟨hne, hlisted⟩
    simp only [← envValue_moduleGroups hdot, envValue] at hlisted
    cases hgroup : (moduleGroups b)[moduleID]? with
    | none =>
      obtain ⟨envVar, value, hvalue⟩ := exists_getElem?_of_ne_empty hne
      rw [hlisted, hgroup] at hvalue
      cases hvalue
    | some values =>
      refine ⟨values, rfl, ExtTreeMap.ext_getElem? ?_⟩
      intro envVar
      rw [hlisted, hgroup, ExtTreeMap.getElem?_map]
      rfl

/-- A value is exported as the placeholder exactly if it is one or is a secret. -/
theorem redactValue_eq_placeholder_iff (key val : String) :
    redactValue key val = secretPlaceholder ↔
      val = secretPlaceholder ∨ val ≠ "" ∧ isSecretEnvVar key := by
  rw [redactValue]
  split
  next hempty =>
    subst hempty
    simp
  next hval =>
    split
    next hsecret => simp [hval, hsecret]
    next hsecret => simp [hsecret]

/-- What is exported of a gateway that was applied is its declaration, redacted. -/
theorem Declared.exported_gateway (h : Declared resources)
    (hwritten : Written call b resources b') {name : String} {spec : GatewaySpec}
    (hr : { name := name, spec := .gateway spec } ∈ resources) :
    (∃ r', Exported b' r' ∧ r'.name = name ∧ r'.spec.wire = .gateway spec) ↔
      spec.devices ≠ none ∧ spec.variableConfigs ≠ none := by
  have hredact : (spec.devices.getD ∅).map (fun _ dev => dev.redact) = spec.devices.getD ∅ :=
    (map_redact_eq_self_iff _).mpr (h.noSecrets _ hr)
  rw [exported_gateway_iff, h.gateway_written hwritten hr, ← some_getD_eq_iff, ← some_getD_eq_iff]
  obtain ⟨devices, variableConfigs, templates, udts⟩ := spec
  simp only [redactResource, gatewayResource, redactSpec, gatewayRecord, Option.getD_some,
    Option.map_some, Option.some.injEq, exists_eq_left', Spec.gateway.injEq, GatewaySpec.mk.injEq,
    and_true] at hredact ⊢
  rw [hredact]

/-- What is exported of a service that was applied is its declaration. -/
theorem Declared.exported_service (h : Declared resources)
    (hwritten : Written call b resources b') {name : String} {spec : ServiceSpec}
    (hr : { name := name, spec := .service spec } ∈ resources) :
    (∃ r', Exported b' r' ∧ r'.name = name ∧ r'.spec.wire = .service spec) ↔
      (spec.enabled = none → record? b.serviceEnabled name = none) := by
  have henabled := h.enabled_written hwritten hr
  rw [exported_service_iff, h.service_written hwritten hr]
  obtain ⟨version, running, enabled⟩ := spec
  simp only [serviceResource, serviceRecord, Option.some.injEq, exists_eq_left',
    Spec.service.injEq, ServiceSpec.mk.injEq, true_and] at henabled ⊢
  rw [henabled]
  cases enabled with
  | none => simp
  | some enabled => simp

/-- The programs of a PLC are those that its tasks name and that are stored. -/
theorem taskPrograms_eq_iff {programs : Bucket PlcProgramKV} {tasks : StrMap PlcTaskConfigKV}
    (hrefs : ∀ (taskID : String) (task : PlcTaskConfigKV), tasks[taskID]? = some task →
      task.programRef ≠ "") (listed : StrMap PlcProgramSpec) :
    taskPrograms programs tasks = listed ↔
      (∀ program : String, listed[program]?.isSome → ∃ (taskID : String) (task : PlcTaskConfigKV),
        tasks[taskID]? = some task ∧ task.programRef = program) ∧
      ∀ (taskID : String) (task : PlcTaskConfigKV), tasks[taskID]? = some task →
        listed[task.programRef]? = (record? programs task.programRef).map programSpec := by
  constructor
  · rintro rfl
    refine ⟨?_, ?_⟩
    · intro program hprogram
      obtain ⟨spec, hspec⟩ := Option.isSome_iff_exists.mp hprogram
      exact ((taskPrograms_getElem? ..).mp hspec).1
    · intro taskID task htask
      apply Option.ext
      intro spec
      rw [taskPrograms_getElem?]
      exact ⟨fun h => h.2.2, fun h => ⟨⟨taskID, task, htask, rfl⟩, hrefs taskID task htask, h⟩⟩
  · rintro ⟨hreferenced, hfound⟩
    refine ExtTreeMap.ext_getElem? ?_
    intro program
    apply Option.ext
    intro spec
    rw [taskPrograms_getElem?]
    constructor
    · rintro ⟨⟨taskID, task, htask, rfl⟩, -, hspec⟩
      rw [hfound taskID task htask]
      exact hspec
    · intro hspec
      obtain ⟨taskID, task, htask, rfl⟩ := hreferenced program (by simp [hspec])
      rw [hfound taskID task htask] at hspec
      exact ⟨⟨taskID, task, htask, rfl⟩, hrefs taskID task htask, hspec⟩

theorem nilIfEmpty_inj {V : Type} {m m' : StrMap V} : nilIfEmpty m = nilIfEmpty m' ↔ m = m' := by
  constructor
  · intro h
    rw [← getD_nilIfEmpty m, h, getD_nilIfEmpty]
  · rintro rfl
    rfl

/-- What is exported of a PLC that was applied is its declaration, if its programs are in order. -/
theorem Declared.exported_plc (h : Declared resources)
    (hwritten : Written call b resources b') {name : String} {spec : PlcSpec}
    (hr : { name := name, spec := .plc spec } ∈ resources) :
    (∃ r', Exported b' r' ∧ r'.name = name ∧ r'.spec.wire = .plc spec.wire) ↔
      SettledPlc b resources spec := by
  have hprograms := @taskPrograms_eq_iff b'.plcPrograms (spec.tasks.getD ∅)
    (fun taskID task htask => h.programRef_ne_empty hr htask) (spec.programs.getD ∅)
  simp only [programs_written hwritten] at hprograms
  rw [exported_plc_iff, h.plc_written hwritten hr]
  simp only [plcResource, plcRecord, Spec.wire, PlcSpec.wire, Option.getD_some,
    Option.some.injEq, exists_eq_left', Spec.plc.injEq, PlcSpec.mk.injEq, true_and,
    some_getD_eq_iff, nilIfEmpty_inj, hprograms]
  constructor
  · rintro ⟨hdevices, hvariables, htasks, hreferenced, hfound⟩
    exact ⟨hdevices, hvariables, htasks, hreferenced, hfound⟩
  · rintro ⟨hdevices, hvariables, htasks, hreferenced, hfound⟩
    exact ⟨hdevices, hvariables, htasks, hreferenced, hfound⟩

/-- One value in the list, against what is stored after it was written. -/
theorem value_exported_iff {envVar : String} {listed stored : Option String}
    (hsecret : ∀ value, listed = some value → isSecretEnvVar envVar →
      value = "" ∨ value = secretPlaceholder) :
    listed = ((listed.filter (· ≠ secretPlaceholder)).or stored).map (redactValue envVar) ↔
      (listed = none → stored = none) ∧
      (listed = some secretPlaceholder → ∃ value, stored = some value ∧
        (value = secretPlaceholder ∨ value ≠ "" ∧ isSecretEnvVar envVar)) := by
  cases listed with
  | none => cases stored <;> simp
  | some value =>
    by_cases hvalue : value = secretPlaceholder
    · subst hvalue
      have hnone : (some secretPlaceholder).filter (· ≠ secretPlaceholder) = none := by decide
      rw [hnone, Option.none_or]
      cases stored with
      | none => simp
      | some stored =>
        rw [Option.map_some, Option.some.injEq, eq_comm, redactValue_eq_placeholder_iff]
        simp
    · have hredact : redactValue envVar value = value := by
        rw [redactValue]
        split
        next => rfl
        next hne =>
          apply if_neg
          intro hs
          exact ((hsecret value rfl hs).resolve_right hvalue |> hne)
      simp [Option.filter, hvalue, hredact]

/-- What a module without a dot in its name is exported with: its values, those that were
stored beside them, and what the placeholders stand for. -/
theorem Declared.exported_moduleConfig (h : Declared resources) (hdots : NoDots resources)
    (hwritten : Written call b resources b') {name : String} {spec : ModuleConfigSpec}
    (hr : { name := name, spec := .moduleConfig spec } ∈ resources) :
    (∃ r', Exported b' r' ∧ r'.name = name ∧ r'.spec.wire = .moduleConfig spec) ↔
      SettledValues b name (spec.values.getD ∅) := by
  have hdot := hdots name spec hr
  have hwrite := h.value_written hdots hwritten hr
  have hsecrets : ∀ (envVar : String) value, (spec.values.getD ∅)[envVar]? = some value →
      isSecretEnvVar envVar → value = "" ∨ value = secretPlaceholder := h.noSecrets _ hr
  rw [exported_moduleConfig_iff, h.values_ne_none hr, Option.getD_some]
  generalize spec.values.getD ∅ = listed at hwrite hsecrets ⊢
  simp only [Option.some.injEq]
  rw [exported_values_iff hdot]
  constructor
  · rintro ⟨hne, hvalues⟩
    have hboth := fun envVar => (value_exported_iff (hsecrets envVar)).mp
      (hwrite envVar ▸ hvalues envVar)
    exact ⟨hdot, hne, fun envVar => (hboth envVar).1, fun envVar => (hboth envVar).2⟩
  · intro hsettled
    refine ⟨hsettled.nonempty, ?_⟩
    intro envVar
    rw [hwrite]
    exact (value_exported_iff (hsecrets envVar)).mpr
      ⟨hsettled.noLeftover envVar, hsettled.stored envVar⟩

/-! ## The diff after an apply -/

theorem noDots_of_exported
    (hall : ∀ r ∈ resources, ∃ r', Exported b' r' ∧ r'.name = r.name ∧
      r'.spec.wire = r.spec.wire) : NoDots resources := by
  intro name spec hr
  obtain ⟨values, hvalues, -⟩ := exported_moduleConfig_iff.mp (hall _ hr)
  exact not_dot_of_moduleGroups hvalues

/-- After an apply nothing is reported exactly if each resource is settled. -/
theorem Declared.unchanged_iff_settled (h : Declared resources)
    (hwritten : Written call b resources b') :
    Unchanged order b' resources ↔ ∀ r ∈ resources, Settled b resources r := by
  rw [unchanged_iff fun r hr => h.name_ne_empty hr]
  have heach : NoDots resources → ∀ r ∈ resources,
      ((∃ r', Exported b' r' ∧ r'.name = r.name ∧ r'.spec.wire = r.spec.wire) ↔
        Settled b resources r) := by
    rintro hdots ⟨name, spec⟩ hr
    cases spec with
    | gateway spec => exact h.exported_gateway hwritten hr
    | service spec => exact h.exported_service hwritten hr
    | moduleConfig spec => exact h.exported_moduleConfig hdots hwritten hr
    | plc spec => exact h.exported_plc hwritten hr
    | nftables spec => exact absurd rfl (h.kinds _ hr).1
    | network spec => exact absurd rfl (h.kinds _ hr).2
  constructor
  · intro hall r hr
    exact (heach (noDots_of_exported hall) r hr).mp (hall r hr)
  · intro hsettled r hr
    have hdots : NoDots resources := by
      intro name spec hmodule
      exact (hsettled _ hmodule).noDot
    exact (heach hdots r hr).mpr (hsettled r hr)

theorem Declared.apply_written (h : Declared resources)
    (hok : (apply call resources b).2.2 = none) :
    Written call b resources (apply call resources b).1 := by
  rw [apply, h.valid] at hok ⊢
  obtain ⟨done, rest, hdone, hwritten, hrest⟩ := @applyLoop_written call resources b {}
  rw [hrest hok, List.append_nil] at hdone
  rwa [← hdone] at hwritten

/-- After a list was applied, its diff reports every resource as unchanged exactly when the
list has no null map and the state had nothing that the apply leaves beside it. -/
theorem unchanged_apply_iff (h : Declared resources)
    (hok : (apply call resources b).2.2 = none) :
    Unchanged order (apply call resources b).1 resources ↔
      ∀ r ∈ resources, Settled b resources r :=
  h.unchanged_iff_settled (h.apply_written hok)

/-- One module with one value. -/
def mqttPort : List Resource := [{
  name := "mqtt"
  spec := .moduleConfig { values := some ((∅ : StrMap String).insert "MQTT_PORT" "1883") } }]

theorem getElem?_mqttPort (envVar : String) :
    ((∅ : StrMap String).insert "MQTT_PORT" "1883")[envVar]? =
      if "MQTT_PORT" = envVar then some "1883" else none := by
  rw [getElem?_insert, ExtTreeMap.getElem?_empty]

theorem declared_mqttPort : Declared mqttPort where
  valid := rfl
  distinct := List.nodup_singleton _
  kinds r hr := by
    cases List.mem_singleton.mp hr
    exact ⟨nofun, nofun⟩
  noSecrets r hr := by
    cases List.mem_singleton.mp hr
    intro envVar value hvalue hsecret
    rw [Option.getD_some, getElem?_mqttPort] at hvalue
    split at hvalue
    next hkey =>
      subst hkey
      exact absurd hsecret (by decide)
    next => cases hvalue

/-- On an empty state, the value is all there is. -/
theorem unchanged_apply_mqttPort :
    Declared mqttPort ∧ (apply quietCall mqttPort {}).2.2 = none ∧
      Unchanged .sorted (apply quietCall mqttPort {}).1 mqttPort := by
  have hok : (apply quietCall mqttPort {}).2.2 = none := by
    rw [apply, declared_mqttPort.valid]
    exact applyLoop_quiet _ _ _
  refine ⟨declared_mqttPort, hok, (unchanged_apply_iff declared_mqttPort hok).mpr ?_⟩
  intro r hr
  cases List.mem_singleton.mp hr
  refine ⟨by decide, ?_, ?_, ?_⟩
  · intro hempty
    have hport := getElem?_mqttPort "MQTT_PORT"
    rw [Option.getD_some] at hempty
    rw [hempty, ExtTreeMap.getElem?_empty] at hport
    cases hport
  · intro envVar _
    exact ExtTreeMap.getElem?_empty
  · intro envVar hvalue
    rw [Option.getD_some, getElem?_mqttPort] at hvalue
    split at hvalue
    next => exact absurd (Option.some.inj hvalue) (by decide)
    next => cases hvalue

/-- A state with another value of the module. -/
def mqttHost : Bus where
  tentacleConfig := (∅ : StrMap String).insert "mqtt.MQTT_HOST" "10.0.0.5"

/-- The other value stays, and the diff reports the module as changed. -/
theorem not_unchanged_apply_mqttPort :
    Declared mqttPort ∧ (apply quietCall mqttPort mqttHost).2.2 = none ∧
      ¬Unchanged .sorted (apply quietCall mqttPort mqttHost).1 mqttPort := by
  have hok : (apply quietCall mqttPort mqttHost).2.2 = none := by
    rw [apply, declared_mqttPort.valid]
    exact applyLoop_quiet _ _ _
  refine ⟨declared_mqttPort, hok, ?_⟩
  rw [declared_mqttPort.unchanged_iff_settled (declared_mqttPort.apply_written hok)]
  intro h
  have hsettled : SettledValues mqttHost "mqtt" _ := h _ (.head _)
  have hleftover := hsettled.noLeftover "MQTT_HOST" (by
    rw [Option.getD_some, getElem?_mqttPort]
    decide)
  have hstored : mqttHost.tentacleConfig[configKey "mqtt" "MQTT_HOST"]? = some "10.0.0.5" :=
    getElem?_insert_self ..
  rw [hstored] at hleftover
  cases hleftover

end Manifest
