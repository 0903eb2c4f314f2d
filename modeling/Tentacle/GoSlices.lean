import Mathlib.Data.List.Basic
import Tentacle.BigEndian

/-!
# Slices with their bounds checks

A computation returns a value, returns an error, or panics. Indexing and slicing
outside the length of a slice and making a slice of negative length panic, as they
do in Go; a slice that ends past the length counts as outside whatever its capacity
is. `Ensures` is the rule-based way to show that nothing panics; `At` follows a parser
through bytes that are known piece by piece.
-/

namespace GoSlices

open BigEndian

inductive Panic where
  | index (i len : Int)
  | slice (lo hi len : Int)
  | makeLen (n : Int)
  deriving DecidableEq, Repr

inductive Outcome (ε α : Type) where
  | ok (a : α)
  | err (e : ε)
  | panic (p : Panic)
  deriving DecidableEq, Repr

variable {ε ε' α β γ : Type}

namespace Outcome

def bind (x : Outcome ε α) (f : α → Outcome ε β) : Outcome ε β :=
  match x with
  | ok a => f a
  | err e => err e
  | panic p => panic p

instance : Monad (Outcome ε) where
  pure := ok
  bind := bind

@[simp] theorem pure_eq (a : α) : (pure a : Outcome ε α) = ok a := rfl

@[simp] theorem ok_bind (a : α) (f : α → Outcome ε β) : (ok a >>= f) = f a := rfl

@[simp] theorem err_bind (e : ε) (f : α → Outcome ε β) : (err e >>= f) = err e := rfl

@[simp] theorem panic_bind (p : Panic) (f : α → Outcome ε β) : (panic p >>= f) = panic p := rfl

instance : LawfulMonad (Outcome ε) := LawfulMonad.mk' _
  (by intro α x; cases x <;> rfl)
  (by intros; rfl)
  (by intro α β γ x f g; cases x <;> rfl)

/-- The error of a call in the caller's hands; a panic goes on. -/
def attempt : Outcome ε α → Outcome ε' (Except ε α)
  | ok a => ok (.ok a)
  | err e => ok (.error e)
  | panic p => panic p

@[simp] theorem attempt_ok (a : α) : (ok a : Outcome ε α).attempt = (ok (.ok a) : Outcome ε' _) :=
  rfl

/-- The computation does not panic, and what it returns has the property. -/
def Ensures (x : Outcome ε α) (Q : α → Prop) : Prop :=
  match x with
  | ok a => Q a
  | err _ => True
  | panic _ => False

def Safe (x : Outcome ε α) : Prop := x.Ensures fun _ => True

@[simp] theorem ensures_ok (a : α) (Q : α → Prop) : (ok a : Outcome ε α).Ensures Q ↔ Q a := Iff.rfl

@[simp] theorem ensures_err (e : ε) (Q : α → Prop) : (err e : Outcome ε α).Ensures Q := trivial

@[simp] theorem not_safe_panic (p : Panic) : ¬(panic p : Outcome ε α).Safe := id

@[simp] theorem safe_ok (a : α) : (ok a : Outcome ε α).Safe := trivial

@[simp] theorem safe_err (e : ε) : (err e : Outcome ε α).Safe := trivial

theorem Ensures.safe {x : Outcome ε α} {Q : α → Prop} (h : x.Ensures Q) : x.Safe := by
  cases x with
  | ok a => trivial
  | err e => trivial
  | panic p => exact h

theorem Ensures.imp {x : Outcome ε α} {P Q : α → Prop} (h : x.Ensures P) (hPQ : ∀ a, P a → Q a) :
    x.Ensures Q := by
  cases x with
  | ok a => exact hPQ a h
  | err e => trivial
  | panic p => exact h

theorem Ensures.and {x : Outcome ε α} {P Q : α → Prop} (hP : x.Ensures P) (hQ : x.Ensures Q) :
    x.Ensures fun a => P a ∧ Q a := by
  cases x with
  | ok a => exact ⟨hP, hQ⟩
  | err e => trivial
  | panic p => exact hP

theorem Ensures.bind {x : Outcome ε α} {f : α → Outcome ε β} {P : α → Prop} {Q : β → Prop}
    (hx : x.Ensures P) (hf : ∀ a, P a → (f a).Ensures Q) : (x >>= f).Ensures Q := by
  cases x with
  | ok a => exact hf a hx
  | err e => trivial
  | panic p => exact hx

theorem not_safe_bind {x : Outcome ε α} {f : α → Outcome ε β} (h : ¬x.Safe) :
    ¬(x >>= f).Safe := by
  cases x with
  | ok a => exact absurd trivial h
  | err e => exact absurd trivial h
  | panic p => exact id

/-- A computation that neither panics nor returns an error returns a value. -/
theorem Ensures.exists_ok {x : Outcome Empty α} {Q : α → Prop} (h : x.Ensures Q) :
    ∃ a, x = ok a ∧ Q a := by
  cases x with
  | ok a => exact ⟨a, rfl, h⟩
  | err e => exact e.elim
  | panic p => exact h.elim

theorem Safe.exists_attempt {x : Outcome ε α} (h : x.Safe) :
    ∃ r, (x.attempt : Outcome ε' _) = ok r := by
  cases x with
  | ok a => exact ⟨_, rfl⟩
  | err e => exact ⟨_, rfl⟩
  | panic p => exact h.elim

/-- What follows a call whose error is handled cannot panic: only the call can. -/
theorem safe_attempt_bind_iff {x : Outcome ε α} {f : Except ε α → Outcome ε' β}
    (hf : ∀ r, (f r).Safe) : (x.attempt >>= f).Safe ↔ x.Safe := by
  cases x with
  | ok a => exact iff_of_true (hf _) trivial
  | err e => exact iff_of_true (hf _) trivial
  | panic p => exact Iff.rfl

/-- A loop keeps its invariant when each round does. -/
theorem ensures_foldlM {I : β → Prop} {f : β → α → Outcome ε β} {l : List α}
    (hf : ∀ i ∈ l, ∀ b, I b → (f b i).Ensures I) {b : β} (hb : I b) :
    (l.foldlM f b).Ensures I := by
  induction l generalizing b with
  | nil => exact hb
  | cons i l ih =>
    rw [List.foldlM_cons]
    apply (hf i (by simp) b hb).bind
    intro b' hb'
    exact ih (fun j hj => hf j (by simp [hj])) hb'

theorem mapM_ok {f : α → Outcome ε β} {g : α → β} {l : List α}
    (h : ∀ a ∈ l, f a = ok (g a)) : l.mapM f = ok (l.map g) := by
  induction l with
  | nil => rfl
  | cons a l ih =>
    rw [List.mapM_cons, h a (by simp), ok_bind, ih fun b hb => h b (by simp [hb])]
    rfl

/-- Two loops that start in related states and stay related end so. -/
theorem foldlM_related {R : β → β → Prop} {f g : β → α → Outcome ε β} {l : List α}
    (hstep : ∀ i ∈ l, ∀ b b', R b b' → ∃ c c', f b i = ok c ∧ g b' i = ok c' ∧ R c c') {b b' : β}
    (hb : R b b') : ∃ c c', l.foldlM f b = ok c ∧ l.foldlM g b' = ok c' ∧ R c c' := by
  induction l generalizing b b' with
  | nil => exact ⟨b, b', rfl, rfl, hb⟩
  | cons i l ih =>
    obtain ⟨c, c', hf, hg, hc⟩ := hstep i (by simp) b b' hb
    rw [List.foldlM_cons, List.foldlM_cons, hf, hg]
    exact ih (fun j hj => hstep j (by simp [hj])) hc

/-- A loop whose rounds go on, stop with an error or panic, each by its item. -/
theorem safe_foldlM_iff_of_stops {f : β → α → Outcome ε β} {S P : α → Prop}
    (hok : ∀ i, ¬S i → ¬P i → ∀ b, ∃ r, f b i = ok r)
    (herr : ∀ i, S i → ∀ b, ∃ e, f b i = err e)
    (hpanic : ∀ i, P i → ∀ b, ∃ p, f b i = panic p) (l : List α) (b : β) :
    (l.foldlM f b).Safe ↔
      ∀ pre i post, l = pre ++ i :: post → (∀ j ∈ pre, ¬S j) → ¬P i := by
  induction l generalizing b with
  | nil => simp
  | cons i l ih =>
    rw [List.foldlM_cons]
    by_cases hbad : P i
    · obtain ⟨p, hp⟩ := hpanic i hbad b
      rw [hp, panic_bind]
      exact iff_of_false (not_safe_panic p) fun h => h [] i l rfl (by simp) hbad
    by_cases hstops : S i
    · obtain ⟨e, he⟩ := herr i hstops b
      rw [he, err_bind]
      apply iff_of_true (safe_err e)
      intro pre j post hl hpre
      cases pre with
      | nil =>
        cases hl
        exact hbad
      | cons k pre =>
        cases hl
        exact absurd hstops (hpre i (by simp))
    · obtain ⟨r, hr⟩ := hok i hstops hbad b
      rw [hr, ok_bind, ih]
      constructor
      · intro h pre j post hl hpre
        cases pre with
        | nil =>
          cases hl
          exact hbad
        | cons k pre =>
          cases hl
          exact h pre j post rfl fun k hk => hpre k (by simp [hk])
      · intro h pre j post hl hpre
        apply h (i :: pre) j post (by rw [hl]; rfl)
        intro k hk
        obtain rfl | hk := List.mem_cons.mp hk
        · exact hstops
        · exact hpre k hk

/-- A loop each of whose rounds returns a value or always panics. -/
theorem safe_foldlM_iff {f : β → α → Outcome ε β} {P : α → Prop}
    (hok : ∀ i, P i → ∀ b, ∃ r, f b i = ok r) (hpanic : ∀ i, ¬P i → ∀ b, ∃ p, f b i = panic p)
    (l : List α) (b : β) : (l.foldlM f b).Safe ↔ ∀ i ∈ l, P i := by
  have hstops := safe_foldlM_iff_of_stops (S := fun _ => False)
    (fun i _ hi => hok i (not_not.mp hi)) (fun _ h => h.elim) hpanic l b
  refine hstops.trans ⟨?_, ?_⟩
  · intro h i hi
    obtain ⟨pre, post, hl⟩ := List.append_of_mem hi
    exact not_not.mp (h pre i post hl fun _ _ => id)
  · intro h pre i post hl _
    exact not_not.mpr (h i (by simp [hl]))

/-- A loop with a round that panics wherever the invariant holds does not end. -/
theorem not_safe_foldlM {I : β → Prop} {f : β → α → Outcome Empty β} {l : List α}
    (hkept : ∀ i ∈ l, ∀ b c, I b → f b i = ok c → I c) {i : α} (hi : i ∈ l)
    (hpanic : ∀ b, I b → ¬(f b i).Safe) {b : β} (hb : I b) : ¬(l.foldlM f b).Safe := by
  induction l generalizing b with
  | nil => cases hi
  | cons j l ih =>
    rw [List.foldlM_cons]
    cases hround : f b j with
    | panic p => exact id
    | err e => exact e.elim
    | ok c =>
      rw [ok_bind]
      obtain rfl | hi := List.mem_cons.mp hi
      · refine absurd ?_ (hpanic b hb)
        rw [hround]
        exact safe_ok c
      · exact ih (fun k hk => hkept k (by simp [hk])) hi (hkept j (by simp) b c hb hround)

/-- The errors of a function that cannot panic. -/
def ofExcept : Except ε α → Outcome ε α
  | .ok a => ok a
  | .error e => err e

end Outcome

open Outcome

/-! ## The checked operations -/

/-- `b[lo:hi]`. -/
def slice (b : List α) (lo hi : Nat) : Outcome ε (List α) :=
  if lo ≤ hi ∧ hi ≤ b.length then .ok ((b.take hi).drop lo) else .panic (.slice lo hi b.length)

/-- `b[lo:]`. -/
def sliceFrom (b : List α) (lo : Int) : Outcome ε (List α) :=
  if 0 ≤ lo ∧ lo ≤ b.length then .ok (b.drop lo.toNat) else .panic (.slice lo b.length b.length)

/-- `b[i]`. -/
def index (b : List α) (i : Nat) : Outcome ε α :=
  match b[i]? with
  | some a => .ok a
  | none => .panic (.index i b.length)

/-- `b[i]` with a signed index. -/
def indexInt (b : List α) (i : Int) : Outcome ε α :=
  if 0 ≤ i then index b i.toNat else .panic (.index i b.length)

/-- `b[i] = a`. -/
def assign (b : List α) (i : Nat) (a : α) : Outcome ε (List α) :=
  if i < b.length then .ok (b.set i a) else .panic (.index i b.length)

/-- `make([]T, n)` with the zero value of the type. -/
def makeSlice (zero : α) (n : Int) : Outcome ε (List α) :=
  if 0 ≤ n then .ok (List.replicate n.toNat zero) else .panic (.makeLen n)

/-- What `copy(b[lo:], src)` leaves in `b`. -/
def copyFrom (b : List α) (lo : Nat) (src : List α) : Outcome ε (List α) :=
  if lo ≤ b.length then
    .ok (b.take lo ++ src.take (b.length - lo) ++ b.drop (lo + src.length))
  else .panic (.slice lo b.length b.length)

/-- `binary.BigEndian.Uint16(b[lo:hi])`. -/
def uint16 (b : List UInt8) (lo hi : Nat) : Outcome ε UInt16 := do
  let window ← slice b lo hi
  if 2 ≤ window.length then .ok (UInt16.ofNat (uint (window.take 2)))
  else .panic (.index 1 window.length)

/-- `binary.BigEndian.Uint32(b[lo:hi])`. -/
def uint32 (b : List UInt8) (lo hi : Nat) : Outcome ε UInt32 := do
  let window ← slice b lo hi
  if 4 ≤ window.length then .ok (UInt32.ofNat (uint (window.take 4)))
  else .panic (.index 3 window.length)

/-- `binary.BigEndian.Uint64(b[lo:hi])`. -/
def uint64 (b : List UInt8) (lo hi : Nat) : Outcome ε UInt64 := do
  let window ← slice b lo hi
  if 8 ≤ window.length then .ok (UInt64.ofNat (uint (window.take 8)))
  else .panic (.index 7 window.length)

/-- Big-endian bytes in the byte order of the wire. -/
def ordered (le : Bool) (bytes : List UInt8) : List UInt8 := if le then bytes.reverse else bytes

/-- `Uint16(b[lo:hi])` of `binary.LittleEndian` or `binary.BigEndian`. -/
def uint16In (le : Bool) (b : List UInt8) (lo hi : Nat) : Outcome ε UInt16 := do
  let window ← slice b lo hi
  if 2 ≤ window.length then .ok (UInt16.ofNat (uint (ordered le (window.take 2))))
  else .panic (.index 1 window.length)

/-- `Uint32(b[lo:hi])` of `binary.LittleEndian` or `binary.BigEndian`. -/
def uint32In (le : Bool) (b : List UInt8) (lo hi : Nat) : Outcome ε UInt32 := do
  let window ← slice b lo hi
  if 4 ≤ window.length then .ok (UInt32.ofNat (uint (ordered le (window.take 4))))
  else .panic (.index 3 window.length)

/-- `binary.BigEndian.PutUint16(b[lo:hi], v)`. -/
def putUint16 (b : List UInt8) (lo hi : Nat) (v : UInt16) : Outcome ε (List UInt8) := do
  let window ← slice b lo hi
  if 2 ≤ window.length then .ok (b.take lo ++ putUint 2 v.toNat ++ b.drop (lo + 2))
  else .panic (.index 1 window.length)

/-- `binary.BigEndian.PutUintN(b[lo:], v)`, for a value of `w` bytes. -/
def putUintFrom (w : Nat) (b : List UInt8) (lo v : Nat) : Outcome ε (List UInt8) := do
  let window ← sliceFrom b lo
  if w ≤ window.length then .ok (b.take lo ++ putUint w v ++ b.drop (lo + w))
  else .panic (.index (w - 1 : Nat) window.length)

/-- `binary.BigEndian.UintN(b[lo:])`, for a value of `w` bytes. -/
def uintFrom (w : Nat) (b : List UInt8) (lo : Nat) : Outcome ε Nat := do
  let window ← sliceFrom b lo
  if w ≤ window.length then .ok (uint (window.take w))
  else .panic (.index (w - 1 : Nat) window.length)

/-- `[n]byte`. -/
abbrev FixedBytes (n : Nat) := { b : List UInt8 // b.length = n }

/-- `copy` into a fresh array of `n` bytes. -/
def FixedBytes.copy (n : Nat) (src : List UInt8) : FixedBytes n :=
  ⟨(src ++ List.replicate n 0).take n, by simp⟩

@[simp] theorem FixedBytes.copy_val {n : Nat} (a : FixedBytes n) : FixedBytes.copy n a.val = a :=
  Subtype.ext (List.take_left' a.property)

theorem slice_ok {b : List α} {lo hi : Nat} (hlo : lo ≤ hi) (hhi : hi ≤ b.length) :
    (slice b lo hi : Outcome ε _) = .ok ((b.take hi).drop lo) := if_pos ⟨hlo, hhi⟩

theorem slice_all {b : List α} {n : Nat} (h : b.length = n) :
    (slice b 0 n : Outcome ε _) = .ok b := by
  rw [slice_ok (Nat.zero_le n) h.ge, List.drop_zero, List.take_of_length_le h.le]

theorem makeSlice_ok (zero : α) (n : Nat) :
    (makeSlice zero (n : Int) : Outcome ε _) = .ok (List.replicate n zero) := by
  simp [makeSlice]

theorem copyFrom_of_length {b src : List α} (h : src.length = b.length) :
    (copyFrom b 0 src : Outcome ε _) = .ok src := by
  simp [copyFrom, ← h]

theorem index_ok {b : List α} {i : Nat} (h : i < b.length) :
    (index b i : Outcome ε α) = .ok b[i] := by
  simp [index, h]

theorem ensures_slice {b : List α} {lo hi : Nat} (hlo : lo ≤ hi) (hhi : hi ≤ b.length) :
    (slice b lo hi : Outcome ε _).Ensures fun r => r.length = hi - lo := by
  rw [slice_ok hlo hhi, ensures_ok, List.length_drop, List.length_take]
  omega

theorem ensures_index {b : List α} {i : Nat} (h : i < b.length) :
    (index b i : Outcome ε α).Ensures fun _ => True := by
  rw [index_ok h]
  trivial

theorem ensures_assign {b : List α} {i : Nat} {a : α} (h : i < b.length) :
    (assign b i a : Outcome ε _).Ensures fun r => r.length = b.length := by
  simp [assign, h]

theorem ensures_makeSlice {zero : α} {n : Int} (h : 0 ≤ n) :
    (makeSlice zero n : Outcome ε _).Ensures fun r => (r.length : Int) = n := by
  simp [makeSlice, h]

theorem ensures_copyFrom {b : List α} {lo : Nat} {src : List α} (h : lo ≤ b.length) :
    (copyFrom b lo src : Outcome ε _).Ensures fun r => r.length = b.length := by
  simp [copyFrom, h]
  omega

theorem slice_window {b : List α} {lo hi n : Nat} (hn : lo + n = hi) (hhi : hi ≤ b.length) :
    (slice b lo hi : Outcome ε _) = .ok ((b.drop lo).take n) := by
  rw [slice_ok (by omega) hhi, List.drop_take, ← hn, Nat.add_sub_cancel_left]

theorem length_window {b : List α} {lo n : Nat} (h : lo + n ≤ b.length) :
    ((b.drop lo).take n).length = n := by
  rw [List.length_take, List.length_drop]
  omega

theorem uint16_ok {b : List UInt8} {lo hi : Nat} (hlo : lo + 2 = hi) (hhi : hi ≤ b.length) :
    (uint16 b lo hi : Outcome ε _) = .ok (UInt16.ofNat (uint ((b.drop lo).take 2))) := by
  have hlength : ((b.drop lo).take 2).length = 2 := length_window (by omega)
  rw [uint16, slice_window hlo hhi, ok_bind, if_pos hlength.ge, List.take_of_length_le hlength.le]

theorem uint32_ok {b : List UInt8} {lo hi : Nat} (hlo : lo + 4 = hi) (hhi : hi ≤ b.length) :
    (uint32 b lo hi : Outcome ε _) = .ok (UInt32.ofNat (uint ((b.drop lo).take 4))) := by
  have hlength : ((b.drop lo).take 4).length = 4 := length_window (by omega)
  rw [uint32, slice_window hlo hhi, ok_bind, if_pos hlength.ge, List.take_of_length_le hlength.le]

theorem uint64_ok {b : List UInt8} {lo hi : Nat} (hlo : lo + 8 = hi) (hhi : hi ≤ b.length) :
    (uint64 b lo hi : Outcome ε _) = .ok (UInt64.ofNat (uint ((b.drop lo).take 8))) := by
  have hlength : ((b.drop lo).take 8).length = 8 := length_window (by omega)
  rw [uint64, slice_window hlo hhi, ok_bind, if_pos hlength.ge, List.take_of_length_le hlength.le]

@[simp] theorem length_ordered (le : Bool) (bytes : List UInt8) :
    (ordered le bytes).length = bytes.length := by
  cases le <;> simp [ordered]

@[simp] theorem ordered_ordered (le : Bool) (bytes : List UInt8) :
    ordered le (ordered le bytes) = bytes := by
  cases le <;> simp [ordered]

theorem uint16In_ok {le : Bool} {b : List UInt8} {lo hi : Nat} (hlo : lo + 2 = hi)
    (hhi : hi ≤ b.length) : (uint16In le b lo hi : Outcome ε _) =
      .ok (UInt16.ofNat (uint (ordered le ((b.drop lo).take 2)))) := by
  have hlength : ((b.drop lo).take 2).length = 2 := length_window (by omega)
  rw [uint16In, slice_window hlo hhi, ok_bind, if_pos hlength.ge, List.take_of_length_le hlength.le]

theorem uint32In_ok {le : Bool} {b : List UInt8} {lo hi : Nat} (hlo : lo + 4 = hi)
    (hhi : hi ≤ b.length) : (uint32In le b lo hi : Outcome ε _) =
      .ok (UInt32.ofNat (uint (ordered le ((b.drop lo).take 4)))) := by
  have hlength : ((b.drop lo).take 4).length = 4 := length_window (by omega)
  rw [uint32In, slice_window hlo hhi, ok_bind, if_pos hlength.ge, List.take_of_length_le hlength.le]

theorem ensures_uint16 {b : List UInt8} {lo hi : Nat} (hlo : lo + 2 = hi) (hhi : hi ≤ b.length) :
    (uint16 b lo hi : Outcome ε _).Ensures fun v => v.toNat < 65536 := by
  rw [uint16_ok hlo hhi, ensures_ok]
  exact UInt16.toNat_lt _

theorem ensures_uint32 {b : List UInt8} {lo hi : Nat} (hlo : lo + 4 = hi) (hhi : hi ≤ b.length) :
    (uint32 b lo hi : Outcome ε _).Ensures fun _ => True := by
  rw [uint32_ok hlo hhi]
  trivial

theorem ensures_uint64 {b : List UInt8} {lo hi : Nat} (hlo : lo + 8 = hi) (hhi : hi ≤ b.length) :
    (uint64 b lo hi : Outcome ε _).Ensures fun _ => True := by
  rw [uint64_ok hlo hhi]
  trivial

/-- Two bytes that fit are written without a change of the length. -/
theorem ensures_putUint16 {b : List UInt8} {lo hi : Nat} {v : UInt16} (hlo : lo + 2 ≤ hi)
    (hhi : hi ≤ b.length) :
    (putUint16 b lo hi v : Outcome ε _).Ensures fun r => r.length = b.length := by
  have hwindow : 2 ≤ ((b.take hi).drop lo).length := by
    rw [List.length_drop, List.length_take]
    omega
  rw [putUint16, slice_ok (by omega) hhi, ok_bind, if_pos hwindow, ensures_ok]
  simp
  omega

theorem length_le_flatMap (f : α → List β) {l : List α} {a : α} (h : a ∈ l) :
    (f a).length ≤ (l.flatMap f).length :=
  (List.sublist_flatten_of_mem (List.mem_map_of_mem h)).length_le

/-- Two lists that agree in a window have the same window. -/
theorem window_congr {b b' : List α} {lo n : Nat}
    (h : ∀ i, lo ≤ i → i < lo + n → b[i]? = b'[i]?) :
    (b.drop lo).take n = (b'.drop lo).take n := by
  refine List.ext_getElem? fun i => ?_
  by_cases hi : i < n
  · rw [List.getElem?_take_of_lt hi, List.getElem?_take_of_lt hi, List.getElem?_drop,
      List.getElem?_drop, h (lo + i) (by omega) (by omega)]
  · rw [List.getElem?_eq_none (by rw [List.length_take]; omega),
      List.getElem?_eq_none (by rw [List.length_take]; omega)]

/-! ## Bytes written over others -/

/-- The bytes of `b` with those of `src` written over them from `lo` on. -/
def overwrite (b : List α) (lo : Nat) (src : List α) : List α :=
  b.take lo ++ src ++ b.drop (lo + src.length)

section Overwrite

variable {b src : List α} {lo : Nat}

theorem length_overwrite (h : lo + src.length ≤ b.length) :
    (overwrite b lo src).length = b.length := by
  simp only [overwrite, List.length_append, List.length_take, List.length_drop]
  omega

/-- Outside the bytes that are written nothing changes. -/
theorem getElem?_overwrite_of_not_mem (h : lo + src.length ≤ b.length) {i : Nat}
    (hi : i < lo ∨ lo + src.length ≤ i) : (overwrite b lo src)[i]? = b[i]? := by
  have hlo : (b.take lo).length = lo := List.length_take_of_le (by omega)
  rw [overwrite]
  obtain hi | hi := hi
  · rw [List.append_assoc, List.getElem?_append_left (by omega), List.getElem?_take_of_lt hi]
  · rw [List.getElem?_append_right (by rw [List.length_append]; omega), List.length_append, hlo,
      List.getElem?_drop, Nat.add_sub_cancel' hi]

theorem getElem?_overwrite_of_mem (h : lo + src.length ≤ b.length) {i : Nat} (hlo : lo ≤ i)
    (hi : i < lo + src.length) : (overwrite b lo src)[i]? = src[i - lo]? := by
  have htake : (b.take lo).length = lo := List.length_take_of_le (by omega)
  rw [overwrite, List.append_assoc, List.getElem?_append_right (by omega), htake,
    List.getElem?_append_left (by omega)]

/-- A window beside the written bytes stays as it is. -/
theorem window_overwrite_of_disjoint (h : lo + src.length ≤ b.length) {start n : Nat}
    (hstart : start + n ≤ lo ∨ lo + src.length ≤ start) :
    ((overwrite b lo src).drop start).take n = (b.drop start).take n :=
  window_congr fun i hi hin => getElem?_overwrite_of_not_mem h (by omega)

theorem window_overwrite (h : lo + src.length ≤ b.length) :
    ((overwrite b lo src).drop lo).take src.length = src := by
  have hlo : (b.take lo).length = lo := List.length_take_of_le (by omega)
  rw [overwrite, List.append_assoc, List.drop_left' hlo, List.take_left]

theorem window_overwrite_singleton {a : α} (h : lo < b.length) :
    ((overwrite b lo [a]).drop lo).take 1 = [a] :=
  @window_overwrite α b [a] lo h

theorem copyFrom_ok (h : lo + src.length ≤ b.length) :
    (copyFrom b lo src : Outcome ε _) = .ok (overwrite b lo src) := by
  rw [copyFrom, if_pos (by omega), List.take_of_length_le (by omega : src.length ≤ b.length - lo)]
  rfl

theorem assign_ok {a : α} (h : lo < b.length) :
    (assign b lo a : Outcome ε _) = .ok (overwrite b lo [a]) := by
  rw [assign, if_pos h, overwrite, List.set_eq_take_append_cons_drop, if_pos h]
  simp

theorem putUintFrom_ok {b : List UInt8} {w : Nat} (v : Nat) (h : lo + w ≤ b.length) :
    (putUintFrom w b lo v : Outcome ε _) = .ok (overwrite b lo (putUint w v)) := by
  rw [putUintFrom, sliceFrom, if_pos (by omega), ok_bind, if_pos, overwrite, length_putUint]
  rw [Int.toNat_natCast, List.length_drop]
  omega

/-- An assignment to an index changes no length. -/
theorem length_assign {a : α} {b' : List α} (h : (assign b lo a : Outcome ε _) = .ok b') :
    b'.length = b.length := by
  rw [assign] at h
  split at h
  next =>
    cases h
    exact List.length_set
  next => cases h

theorem length_putUintFrom {b b' : List UInt8} {w v : Nat}
    (h : (putUintFrom w b lo v : Outcome ε _) = .ok b') : b'.length = b.length := by
  rw [putUintFrom, sliceFrom] at h
  by_cases hlo : (0 : Int) ≤ lo ∧ (lo : Int) ≤ b.length
  · rw [if_pos hlo, ok_bind] at h
    split at h
    next hw =>
      cases h
      rw [Int.toNat_natCast, List.length_drop] at hw
      simp only [List.length_append, List.length_take, length_putUint, List.length_drop]
      omega
    next => cases h
  · rw [if_neg hlo] at h
    cases h

theorem not_safe_index (h : b.length ≤ lo) : ¬(index b lo : Outcome ε α).Safe := by
  rw [index, List.getElem?_eq_none h]
  exact id

theorem not_safe_assign {a : α} (h : b.length ≤ lo) : ¬(assign b lo a : Outcome ε _).Safe := by
  rw [assign, if_neg (by omega)]
  exact id

/-- A number that does not fit the slice panics. -/
theorem not_safe_putUintFrom {b : List UInt8} {w v : Nat} (h : b.length < lo + w) :
    ¬(putUintFrom w b lo v : Outcome ε _).Safe := by
  rw [putUintFrom, sliceFrom]
  by_cases hlo : (0 : Int) ≤ lo ∧ (lo : Int) ≤ b.length
  · rw [if_pos hlo, ok_bind, if_neg]
    · exact id
    · rw [Int.toNat_natCast, List.length_drop]
      omega
  · rw [if_neg hlo]
    exact id

theorem uintFrom_ok {b : List UInt8} {w : Nat} (h : lo + w ≤ b.length) :
    (uintFrom w b lo : Outcome ε _) = .ok (uint ((b.drop lo).take w)) := by
  rw [uintFrom, sliceFrom, if_pos (by omega), ok_bind, if_pos]
  · rw [Int.toNat_natCast]
  · rw [Int.toNat_natCast, List.length_drop]
    omega

end Overwrite

/-! ## Bytes known piece by piece -/

/-- From position `i` on the bytes are `rest`. -/
structure At (b : List α) (i : Nat) (rest : List α) : Prop where
  le : i ≤ b.length
  drop : b.drop i = rest

variable {b rest : List α} {i n hi : Nat}

theorem At.start (h : b = rest) : At b 0 rest := ⟨Nat.zero_le _, h⟩

theorem At.length (h : At b i rest) : i + rest.length = b.length := by
  have hle := h.le
  rw [← h.drop, List.length_drop]
  omega

theorem At.next {xs : List α} (h : At b i (xs ++ rest)) (hn : xs.length = n) :
    At b (i + n) rest := by
  have hlength := h.length
  rw [List.length_append] at hlength
  refine ⟨by omega, ?_⟩
  rw [← List.drop_drop, h.drop, ← hn, List.drop_left]

theorem At.tail {x : α} (h : At b i (x :: rest)) : At b (i + 1) rest :=
  (show At b i ([x] ++ rest) from h).next rfl

theorem At.slice {xs : List α} (h : At b i (xs ++ rest)) (hn : i + xs.length = hi) :
    (slice b i hi : Outcome ε _) = .ok xs := by
  have hlength := h.length
  rw [List.length_append] at hlength
  rw [slice_window hn (by omega), h.drop, List.take_left]

theorem At.sliceFrom (h : At b i rest) : (sliceFrom b (i : Int) : Outcome ε _) = .ok rest := by
  have hle := h.le
  rw [GoSlices.sliceFrom, if_pos (by omega), Int.toNat_natCast, h.drop]

theorem At.index {x : α} (h : At b i (x :: rest)) : (index b i : Outcome ε α) = .ok x := by
  have hlength := h.length
  have hget : b[i]? = some x := by
    rw [← List.head?_drop, h.drop]
    rfl
  simp [GoSlices.index, hget]

theorem At.uint16 {b rest : List UInt8} {v : UInt16} (h : At b i (putUint 2 v.toNat ++ rest))
    (hhi : i + 2 = hi) : (uint16 b i hi : Outcome ε _) = .ok v := by
  have hlength := h.length
  rw [List.length_append, length_putUint] at hlength
  rw [uint16_ok hhi (by omega), h.drop, List.take_left' (length_putUint _ _),
    uint_putUint_of_lt v.toNat_lt, UInt16.ofNat_toNat]

theorem At.uint32 {b rest : List UInt8} {v : UInt32} (h : At b i (putUint 4 v.toNat ++ rest))
    (hhi : i + 4 = hi) : (uint32 b i hi : Outcome ε _) = .ok v := by
  have hlength := h.length
  rw [List.length_append, length_putUint] at hlength
  rw [uint32_ok hhi (by omega), h.drop, List.take_left' (length_putUint _ _),
    uint_putUint_of_lt v.toNat_lt, UInt32.ofNat_toNat]

theorem At.uint16In {le : Bool} {b rest : List UInt8} {v : UInt16}
    (h : At b i (ordered le (putUint 2 v.toNat) ++ rest)) (hhi : i + 2 = hi) :
    (uint16In le b i hi : Outcome ε _) = .ok v := by
  have hlength := h.length
  rw [List.length_append, length_ordered, length_putUint] at hlength
  rw [uint16In_ok hhi (by omega), h.drop, List.take_left' (by simp), ordered_ordered,
    uint_putUint_of_lt v.toNat_lt, UInt16.ofNat_toNat]

theorem At.uint32In {le : Bool} {b rest : List UInt8} {v : UInt32}
    (h : At b i (ordered le (putUint 4 v.toNat) ++ rest)) (hhi : i + 4 = hi) :
    (uint32In le b i hi : Outcome ε _) = .ok v := by
  have hlength := h.length
  rw [List.length_append, length_ordered, length_putUint] at hlength
  rw [uint32In_ok hhi (by omega), h.drop, List.take_left' (by simp), ordered_ordered,
    uint_putUint_of_lt v.toNat_lt, UInt32.ofNat_toNat]

end GoSlices
