import Mathlib.Data.List.Induction
import Tentacle.Rbe
import Tentacle.Histories

/-!
# Report by exception over a stream of samples

The three gates of `ShouldPublish` together: a stream of samples is fed through
it, and what it accepts is recorded. The guarantees compare a sample with the
last one that was published, not with the state the code keeps.
-/

namespace RbeStream

open GoValues Rbe Histories

structure Sample (F64 : Type) where
  value : Json F64
  time : Int

/-- A sample, and whether it was published. -/
structure Event (F64 : Type) extends Sample F64 where
  published : Bool

variable {F64 : Type}

/-- The last published sample of a history. -/
def lastPublished (history : List (Event F64)) : Option (Sample F64) :=
  (history.filter (·.published)).getLast?.map (·.toSample)

@[simp] theorem lastPublished_nil : lastPublished ([] : List (Event F64)) = none := rfl

@[simp] theorem lastPublished_snoc (history : List (Event F64)) (e : Event F64) :
    lastPublished (history ++ [e]) =
      if e.published then some e.toSample else lastPublished history := by
  cases h : e.published <;> simp [lastPublished, h]

variable [GoFloat64 F64]

/-- `ShouldPublish`, and `RecordPublish` on acceptance, for the next sample. -/
def observe (db : DeadBandConfig F64) (s : State F64 × List (Event F64)) (x : Sample F64) :
    State F64 × List (Event F64) :=
  if shouldPublish s.1 x.value x.time (some db) false then
    (recordPublish x.value x.time, s.2 ++ [{ x with published := true }])
  else (s.1, s.2 ++ [{ x with published := false }])

def stream (db : DeadBandConfig F64) (samples : List (Sample F64)) :
    State F64 × List (Event F64) :=
  samples.foldl (observe db) ({}, [])

def MaxTimeReached (db : DeadBandConfig F64) (elapsed : Int) : Prop :=
  0 < db.maxTime ∧ db.maxTime ≤ elapsed

def MinTimePending (db : DeadBandConfig F64) (elapsed : Int) : Prop :=
  0 < db.minTime ∧ elapsed < db.minTime

/-- The numbers of the two values are at most the deadband apart. -/
def Within (db : DeadBandConfig ℚ) (v w : Json ℚ) : Prop :=
  ∃ x y, toFloat64 v = some x ∧ toFloat64 w = some y ∧ |x - y| ≤ db.value

/-- What the history before a sample says about whether it is published. -/
structure Guarantee (db : DeadBandConfig ℚ) (before : List (Event ℚ)) (e : Event ℚ) : Prop where
  followed : ∃ last, lastPublished (before ++ [e]) = some last ∧
    (Within db e.value last.value ∨ e.published = false ∧
      MinTimePending db (e.time - last.time) ∧ ¬ MaxTimeReached db (e.time - last.time))
  forced : ∀ last, lastPublished before = some last →
    MaxTimeReached db (e.time - last.time) → e.published = true
  spaced : ∀ last, lastPublished before = some last → e.published = true →
    db.minTime ≤ e.time - last.time ∨ MaxTimeReached db (e.time - last.time)

/-- The state that the code keeps is that of the last published sample. -/
structure Records (samples : List (Sample ℚ)) (s : State ℚ × List (Event ℚ)) : Prop where
  kept : s.2.map (·.toSample) = samples
  fresh : lastPublished s.2 = none → s.1 = {} ∧ samples = []
  last : ∀ p, lastPublished s.2 = some p → s.1 = recordPublish p.value p.time ∧ p ∈ samples

/-- A stream that the guarantees are about: numeric values, and times that are
positive and go up. -/
structure Proper (samples : List (Sample ℚ)) : Prop where
  numeric : ∀ x ∈ samples, (toFloat64 x.value).isSome = true
  positive : ∀ x ∈ samples, 0 < x.time
  increasing : samples.Pairwise (fun x y => x.time < y.time)

theorem Proper.front {samples : List (Sample ℚ)} {x : Sample ℚ} (h : Proper (samples ++ [x])) :
    Proper samples where
  numeric y hy := h.numeric y (by simp [hy])
  positive y hy := h.positive y (by simp [hy])
  increasing := (List.pairwise_append.mp h.increasing).1

theorem Proper.time_lt {samples : List (Sample ℚ)} {x y : Sample ℚ} (h : Proper (samples ++ [x]))
    (hy : y ∈ samples) : y.time < x.time :=
  (List.pairwise_append.mp h.increasing).2.2 y hy x (by simp)

theorem stream_snoc (db : DeadBandConfig F64) (samples : List (Sample F64)) (x : Sample F64) :
    stream db (samples ++ [x]) = observe db (stream db samples) x := by
  simp [stream]

theorem within_self {db : DeadBandConfig ℚ} (hdb : 0 ≤ db.value) {v : Json ℚ}
    (hv : (toFloat64 v).isSome = true) : Within db v v := by
  obtain ⟨x, hx⟩ := Option.isSome_iff_exists.mp hv
  exact ⟨x, x, hx, hx, by simpa using hdb⟩

/-- The decision after the first publish, in the words of the guarantees. -/
theorem shouldPublish_recorded (db : DeadBandConfig ℚ) {p x : Sample ℚ} (hp : 0 < p.time)
    (hpn : (toFloat64 p.value).isSome = true) (hxn : (toFloat64 x.value).isSome = true) :
    shouldPublish (recordPublish p.value p.time) x.value x.time (some db) false = true ↔
      MaxTimeReached db (x.time - p.time) ∨
        ¬ MinTimePending db (x.time - p.time) ∧ ¬ Within db x.value p.value := by
  obtain ⟨old, hold⟩ := Option.isSome_iff_exists.mp hpn
  obtain ⟨new, hnew⟩ := Option.isSome_iff_exists.mp hxn
  have hne : p.time ≠ 0 := by omega
  have hwithin : Within db x.value p.value ↔ |new - old| ≤ db.value := by
    simp [Within, hold, hnew]
  rw [hwithin]
  by_cases hmax : MaxTimeReached db (x.time - p.time)
  · simp [shouldPublish, recordPublish, hne, hmax, hmax.1, hmax.2]
  · by_cases hmin : MinTimePending db (x.time - p.time)
    · simp only [MaxTimeReached] at hmax
      simp [shouldPublish, recordPublish, hne, hmax, hmin, hmin.1, hmin.2, MaxTimeReached]
    · simp only [MaxTimeReached, MinTimePending] at hmax hmin
      simp [shouldPublish, recordPublish, hne, hmax, hmin, MaxTimeReached, MinTimePending, hold,
        hnew, GoFloat64.gt, GoFloat64.abs, GoFloat64.sub]

/-- A sample is recorded with what is made of it. -/
theorem observe_records {db : DeadBandConfig ℚ} {samples : List (Sample ℚ)}
    {s : State ℚ × List (Event ℚ)} (h : Records samples s) (x : Sample ℚ) :
    Records (samples ++ [x]) (observe db s x) := by
  unfold observe
  split
  next hpub =>
    refine ⟨by simp [h.kept], by simp, ?_⟩
    intro p hp
    simp only [lastPublished_snoc, if_true, Option.some.injEq] at hp
    subst hp
    simp
  next hpub =>
    refine ⟨by simp [h.kept], ?_, ?_⟩
    · -- the first sample is published, so this one is not the first
      intro hnone
      simp only [lastPublished_snoc, Bool.false_eq_true, if_false] at hnone
      simp [(h.fresh hnone).1, shouldPublish] at hpub
    · intro p hp
      simp only [lastPublished_snoc, Bool.false_eq_true, if_false] at hp
      obtain ⟨hstate, hmem⟩ := h.last p hp
      exact ⟨hstate, by simp [hmem]⟩

theorem stream_records (db : DeadBandConfig ℚ) (samples : List (Sample ℚ)) :
    Records samples (stream db samples) := by
  induction samples using List.reverseRecOn with
  | nil => exact ⟨rfl, by simp [stream], by simp [stream]⟩
  | append_singleton samples x ih =>
    rw [stream_snoc]
    exact observe_records ih x

/-- A sample is published or not as the guarantees say, given what was recorded. -/
theorem observe_guarantee {db : DeadBandConfig ℚ} (hdb : 0 ≤ db.value)
    {samples : List (Sample ℚ)} {x : Sample ℚ} (hx : Proper (samples ++ [x]))
    {s : State ℚ × List (Event ℚ)} (h : Records samples s) :
    ∃ e, (observe db s x).2 = s.2 ++ [e] ∧ Guarantee db s.2 e := by
  have hxn : (toFloat64 x.value).isSome = true := hx.numeric x (by simp)
  cases hlast : lastPublished s.2 with
  | none =>
    obtain ⟨hstate, -⟩ := h.fresh hlast
    refine ⟨{ x with published := true }, by simp [observe, hstate, shouldPublish], ?_⟩
    exact
      { followed := ⟨x, by simp, .inl (within_self hdb hxn)⟩
        forced := by simp
        spaced := by simp [hlast] }
  | some p =>
    obtain ⟨hstate, hmem⟩ := h.last p hlast
    have hiff := shouldPublish_recorded db (hx.positive p (by simp [hmem]))
      (hx.numeric p (by simp [hmem])) hxn
    have hlt := hx.time_lt hmem
    rw [← hstate] at hiff
    by_cases hpub : shouldPublish s.1 x.value x.time (some db) false = true
    · refine ⟨{ x with published := true }, by simp [observe, hpub], ?_⟩
      exact
        { followed := ⟨x, by simp, .inl (within_self hdb hxn)⟩
          forced := by simp
          spaced := by
            intro q hq _
            cases hlast.symm.trans hq
            rcases hiff.mp hpub with hmax | ⟨hmin, -⟩
            · exact .inr hmax
            · simp only [MinTimePending, not_and_or, not_lt] at hmin
              exact .inl (by dsimp only; omega) }
    · refine ⟨{ x with published := false }, by simp [observe, hpub], ?_⟩
      rw [hiff, not_or, not_and_or, not_not, not_not] at hpub
      obtain ⟨hmax, hrest⟩ := hpub
      exact
        { followed := by
            refine ⟨p, by simp [hlast], ?_⟩
            rcases hrest with hmin | hwithin
            · exact .inr ⟨rfl, hmin, hmax⟩
            · exact .inl hwithin
          forced := by
            intro q hq hreached
            cases hlast.symm.trans hq
            exact absurd hreached hmax
          spaced := by simp }

/-- Every sample of a stream is published or suppressed as the guarantees say. -/
theorem stream_guarantee (db : DeadBandConfig ℚ) (hdb : 0 ≤ db.value) (samples : List (Sample ℚ))
    (hproper : Proper samples) :
    (stream db samples).2.map (·.toSample) = samples ∧
      Each (Guarantee db) (stream db samples).2 := by
  refine ⟨(stream_records db samples).kept, ?_⟩
  induction samples using List.reverseRecOn with
  | nil => simp [stream]
  | append_singleton samples x ih =>
    obtain ⟨e, he, hguarantee⟩ := observe_guarantee hdb hproper (stream_records db samples)
    rw [stream_snoc, he, each_snoc]
    exact ⟨ih hproper.front, hguarantee⟩

/-- A ramp with a change too early, one within the deadband, and one forced. -/
def ramp : List (Sample ℚ) :=
  [⟨.number 0, 1⟩, ⟨.number 3, 3⟩, ⟨.bool true, 8⟩, ⟨.number (1 / 2), 40⟩]

theorem ramp_guarantee :
    Proper ramp ∧ (stream ⟨1, 5, 20⟩ ramp).2.map (·.published) = [true, false, false, true] ∧
      Each (Guarantee ⟨1, 5, 20⟩) (stream ⟨1, 5, 20⟩ ramp).2 := by
  have hproper : Proper ramp :=
    { numeric := by decide
      positive := by decide
      increasing := by decide }
  refine ⟨hproper, ?_, (stream_guarantee ⟨1, 5, 20⟩ (by decide) ramp hproper).2⟩
  decide +kernel

end RbeStream
