import Mathlib.Data.Int.Log
import Mathlib.Data.Rat.Floor
import Mathlib.Tactic.Linarith
import Mathlib.Tactic.Ring

/-!
# Binary floating-point formats

A number of a format is a sign and a magnitude, the exponent and fraction
fields read as one natural number. Finite magnitudes stand for a rational, and
arithmetic results are rounded to the nearest number, ties to even. Below, the
magnitude `k * 2 ^ m + n` stands for `n` units of the `k`-th binade; carrying
into the exponent field is then ordinary addition.
-/

namespace IeeeFloat

/-- The widths of the fraction field and of the exponent field. -/
structure Format where
  fractionBits : Nat
  exponentBits : Nat
  fraction_pos : 0 < fractionBits := by decide

def binary32 : Format where
  fractionBits := 23
  exponentBits := 8

def binary64 : Format where
  fractionBits := 52
  exponentBits := 11

variable (f : Format)

/-- The exponent of the smallest normal numbers. -/
def Format.minExponent : Int := 2 - 2 ^ (f.exponentBits - 1)

/-- The magnitude of infinity; above it are the NaNs. -/
def Format.infinity : Nat := (2 ^ f.exponentBits - 1) * 2 ^ f.fractionBits

/-- The distance of two neighbours in the `k`-th binade. -/
def Format.unit (k : Nat) : ℚ := 2 ^ (f.minExponent - f.fractionBits + k)

structure Number where
  negative : Bool
  magnitude : Nat
  valid : magnitude < 2 ^ (f.fractionBits + f.exponentBits)
  deriving DecidableEq

abbrev Single := Number binary32

abbrev Double := Number binary64

variable {f}

def Number.toBits (x : Number f) : Nat :=
  (if x.negative then 2 ^ (f.fractionBits + f.exponentBits) else 0) + x.magnitude

def Number.ofBits (bits : Nat) : Number f where
  negative := decide (2 ^ (f.fractionBits + f.exponentBits) ≤
    bits % 2 ^ (f.fractionBits + f.exponentBits + 1))
  magnitude := bits % 2 ^ (f.fractionBits + f.exponentBits)
  valid := Nat.mod_lt _ (Nat.two_pow_pos _)

theorem Number.toBits_lt (x : Number f) :
    x.toBits < 2 ^ (f.fractionBits + f.exponentBits + 1) := by
  have hvalid := x.valid
  rw [toBits, Nat.pow_succ]
  split <;> omega

theorem Number.ofBits_toBits (x : Number f) : ofBits x.toBits = x := by
  obtain ⟨negative, magnitude, hvalid⟩ := x
  have hlt := toBits_lt ⟨negative, magnitude, hvalid⟩
  simp only [ofBits, mk.injEq, Nat.mod_eq_of_lt hlt]
  cases negative with
  | false => simp [toBits, Nat.mod_eq_of_lt hvalid, hvalid]
  | true => simp [toBits, Nat.mod_eq_of_lt hvalid]

/-- Bits that fit the format are read and written back. -/
theorem Number.toBits_ofBits {bits : Nat}
    (h : bits < 2 ^ (f.fractionBits + f.exponentBits + 1)) :
    (ofBits bits : Number f).toBits = bits := by
  simp only [toBits, ofBits, Nat.mod_eq_of_lt h, decide_eq_true_eq]
  rw [Nat.pow_succ] at h
  split
  next hle =>
    rw [Nat.mod_eq_sub_mod hle, Nat.mod_eq_of_lt (by omega)]
    omega
  next hlt =>
    rw [Nat.mod_eq_of_lt (by omega)]
    omega

variable (f)

/-- The rational that a finite magnitude stands for. -/
def Format.value (magnitude : Nat) : ℚ :=
  let exponent := magnitude / 2 ^ f.fractionBits
  let fraction := magnitude % 2 ^ f.fractionBits
  if exponent = 0 then fraction * f.unit 0
  else ((2 ^ f.fractionBits + fraction : Nat) : ℚ) * f.unit (exponent - 1)

def roundHalfEven (q : ℚ) : Nat :=
  let n := ⌊q⌋₊
  if q - n < 1 / 2 then n
  else if q - n = 1 / 2 then n + n % 2
  else n + 1

/-- The nearest magnitude to a rational that is not negative. -/
def Format.round (q : ℚ) : Nat :=
  if q = 0 then 0
  else
    let k := (max (Int.log 2 q) f.minExponent - f.minExponent).toNat
    min f.infinity (k * 2 ^ f.fractionBits + roundHalfEven (q / f.unit k))

/-- `n` units of the `k`-th binade, in the only binade where there are so many. -/
def Format.Canonical (n k : Nat) : Prop :=
  n < 2 ^ (f.fractionBits + 1) ∧ (k = 0 ∨ 2 ^ f.fractionBits ≤ n)

theorem roundHalfEven_natCast (n : Nat) : roundHalfEven n = n := by
  simp [roundHalfEven]

theorem Format.unit_pos (k : Nat) : 0 < f.unit k := by
  rw [Format.unit]
  exact zpow_pos (by norm_num) _

theorem Format.infinity_add :
    f.infinity + 2 ^ f.fractionBits = 2 ^ (f.fractionBits + f.exponentBits) := by
  have hexp : 2 ^ f.exponentBits - 1 + 1 = 2 ^ f.exponentBits :=
    Nat.sub_add_cancel (Nat.two_pow_pos _)
  rw [Format.infinity, ← Nat.succ_mul, Nat.succ_eq_add_one, hexp, Nat.pow_add, Nat.mul_comm]

theorem Format.infinity_lt : f.infinity < 2 ^ (f.fractionBits + f.exponentBits) := by
  have hfrac : 0 < 2 ^ f.fractionBits := Nat.two_pow_pos _
  have := f.infinity_add
  omega

theorem Format.round_le (q : ℚ) : f.round q ≤ f.infinity := by
  rw [Format.round]
  split
  · exact Nat.zero_le _
  · exact Nat.min_le_left _ _

/-- Every magnitude counts units of its binade. -/
theorem Format.exists_canonical (magnitude : Nat) :
    ∃ n k, f.Canonical n k ∧ magnitude = k * 2 ^ f.fractionBits + n := by
  have hpos : 0 < 2 ^ f.fractionBits := Nat.two_pow_pos _
  have hdiv := Nat.div_add_mod' magnitude (2 ^ f.fractionBits)
  have hmod := Nat.mod_lt magnitude hpos
  cases hexp : magnitude / 2 ^ f.fractionBits with
  | zero =>
    rw [hexp] at hdiv
    exact ⟨magnitude, 0, ⟨by rw [Nat.pow_succ]; omega, .inl rfl⟩, by omega⟩
  | succ k =>
    rw [hexp, Nat.succ_mul] at hdiv
    refine ⟨2 ^ f.fractionBits + magnitude % 2 ^ f.fractionBits, k, ⟨?_, .inr (by omega)⟩, by omega⟩
    rw [Nat.pow_succ]
    omega

/-- A canonical number has the value that its parts say. -/
theorem Format.value_canonical {n k : Nat} (h : f.Canonical n k) :
    f.value (k * 2 ^ f.fractionBits + n) = n * f.unit k := by
  have hpos : 0 < 2 ^ f.fractionBits := Nat.two_pow_pos _
  obtain ⟨hlt, hbinade⟩ := h
  rw [Nat.pow_succ] at hlt
  by_cases hn : n < 2 ^ f.fractionBits
  · have hk : k = 0 := by omega
    subst hk
    simp [Format.value, Nat.div_eq_of_lt hn, Nat.mod_eq_of_lt hn]
  · have hrest : n - 2 ^ f.fractionBits < 2 ^ f.fractionBits := by omega
    have hmag : k * 2 ^ f.fractionBits + n =
        (n - 2 ^ f.fractionBits) + (k + 1) * 2 ^ f.fractionBits := by
      rw [Nat.succ_mul]
      omega
    have hadd : 2 ^ f.fractionBits + (n - 2 ^ f.fractionBits) = n := by omega
    rw [Format.value, hmag, Nat.add_mul_div_right _ _ hpos, Nat.add_mul_mod_self_right,
      Nat.div_eq_of_lt hrest, Nat.mod_eq_of_lt hrest]
    simp [hadd]

/-- A power of two that is at least a unit, in units. -/
theorem Format.pow_mul_unit (j k : Nat) :
    (2 : ℚ) ^ j * f.unit k = 2 ^ (f.minExponent - f.fractionBits + k + j : Int) := by
  rw [Format.unit, ← zpow_natCast, ← zpow_add₀ (by norm_num)]
  ring_nf

/-- The logarithm finds the binade. -/
theorem Format.binade_canonical {n k : Nat} (h : f.Canonical n k) (hn : 0 < n) :
    (max (Int.log 2 (n * f.unit k)) f.minExponent - f.minExponent).toNat = k := by
  have hunit := f.unit_pos k
  have hq : 0 < n * f.unit k := mul_pos (by exact_mod_cast hn) hunit
  have hlt : Int.log 2 (n * f.unit k) < f.minExponent + k + 1 := by
    rw [← Int.lt_zpow_iff_log_lt (by norm_num) hq]
    have hlt : (n : ℚ) * f.unit k < 2 ^ (f.fractionBits + 1) * f.unit k :=
      mul_lt_mul_of_pos_right (by exact_mod_cast h.1) hunit
    have hexp : f.minExponent - f.fractionBits + k + ((f.fractionBits + 1 : Nat) : Int) =
        f.minExponent + k + 1 := by omega
    rw [f.pow_mul_unit, hexp] at hlt
    exact_mod_cast hlt
  rcases h.2 with rfl | hle
  · omega
  · have hge : f.minExponent + k ≤ Int.log 2 (n * f.unit k) := by
      rw [← Int.zpow_le_iff_le_log (by norm_num) hq]
      have hle : (2 : ℚ) ^ f.fractionBits * f.unit k ≤ n * f.unit k :=
        mul_le_mul_of_nonneg_right (by exact_mod_cast hle) hunit.le
      have hexp : f.minExponent - f.fractionBits + k + f.fractionBits = f.minExponent + k := by
        omega
      rw [f.pow_mul_unit, hexp] at hle
      exact_mod_cast hle
    omega

/-- What the format can represent is rounded to itself. -/
theorem Format.round_canonical {n k : Nat} (h : f.Canonical n k)
    (hfinite : k * 2 ^ f.fractionBits + n < f.infinity) :
    f.round (n * f.unit k) = k * 2 ^ f.fractionBits + n := by
  have hunit := f.unit_pos k
  cases Nat.eq_zero_or_pos n with
  | inl hzero =>
    have hk : k = 0 := by
      have hpos : 0 < 2 ^ f.fractionBits := Nat.two_pow_pos _
      have := h.2
      omega
    simp [Format.round, hzero, hk]
  | inr hn =>
    have hne : (n : ℚ) * f.unit k ≠ 0 := by
      have := mul_pos (show (0 : ℚ) < n by exact_mod_cast hn) hunit
      exact this.ne'
    rw [Format.round, if_neg hne]
    simp only [f.binade_canonical h hn, mul_div_cancel_right₀ _ hunit.ne', roundHalfEven_natCast]
    exact Nat.min_eq_right hfinite.le

theorem Format.round_value {magnitude : Nat} (h : magnitude < f.infinity) :
    f.round (f.value magnitude) = magnitude := by
  obtain ⟨n, k, hcanonical, rfl⟩ := f.exists_canonical magnitude
  rw [f.value_canonical hcanonical, f.round_canonical hcanonical h]

/-- Doubling the number of units until the binade is full reaches a canonical
count, as long as there is room below. -/
theorem Format.exists_canonical_shift {n : Nat} (d : Nat) (h : n < 2 ^ (f.fractionBits + 1)) :
    ∃ n' k, f.Canonical n' k ∧ (n' : ℚ) * f.unit k = n * f.unit d := by
  induction d generalizing n with
  | zero => exact ⟨n, 0, ⟨h, .inl rfl⟩, rfl⟩
  | succ d ih =>
    by_cases hn : 2 ^ f.fractionBits ≤ n
    · exact ⟨n, d + 1, ⟨h, .inr hn⟩, rfl⟩
    · obtain ⟨n', k, hcanonical, hvalue⟩ := ih (n := 2 * n) (by rw [Nat.pow_succ]; omega)
      refine ⟨n', k, hcanonical, hvalue.trans ?_⟩
      have hunit : f.unit (d + 1) = 2 * f.unit d := by
        rw [Format.unit, Format.unit, ← zpow_one_add₀ (by norm_num)]
        push_cast
        ring_nf
      rw [hunit]
      push_cast
      ring

/-- A value below the power of two of a binade has a magnitude below it. -/
theorem Format.canonical_lt {n k b : Nat} (h : f.Canonical n k) (hb : 0 < b)
    (hvalue : (n : ℚ) * f.unit k < 2 ^ (f.minExponent + b)) :
    k * 2 ^ f.fractionBits + n < (b + 1) * 2 ^ f.fractionBits := by
  obtain ⟨hlt, hbinade⟩ := h
  rw [Nat.pow_succ] at hlt
  have hk : k = 0 ∨ k < b := by
    rcases hbinade with hk | hn
    · exact .inl hk
    · right
      have hle : (2 : ℚ) ^ f.fractionBits * f.unit k ≤ n * f.unit k :=
        mul_le_mul_of_nonneg_right (by exact_mod_cast hn) (f.unit_pos k).le
      rw [f.pow_mul_unit] at hle
      have hpow := (zpow_lt_zpow_iff_right₀ (by norm_num : (1 : ℚ) < 2)).mp (hle.trans_lt hvalue)
      omega
  have hmul : k + 1 ≤ b := by omega
  have := Nat.mul_le_mul_right (2 ^ f.fractionBits) hmul
  rw [Nat.succ_mul] at this ⊢
  omega

/-- An exact result: as many units as the fraction field holds, at least of the
smallest binade, and below infinity. -/
theorem Format.value_round {n d b : Nat} (h : n < 2 ^ (f.fractionBits + 1)) (hb : 0 < b)
    (hmax : b + 2 ≤ 2 ^ f.exponentBits) (hvalue : (n : ℚ) * f.unit d < 2 ^ (f.minExponent + b)) :
    f.round (n * f.unit d) < f.infinity ∧ f.value (f.round (n * f.unit d)) = n * f.unit d := by
  obtain ⟨n', k, hcanonical, hsame⟩ := f.exists_canonical_shift d h
  rw [← hsame] at hvalue ⊢
  have hlt := f.canonical_lt hcanonical hb hvalue
  have hle : (b + 1) * 2 ^ f.fractionBits ≤ f.infinity := Nat.mul_le_mul_right _ (by omega)
  rw [f.round_canonical hcanonical (by omega), f.value_canonical hcanonical]
  exact ⟨by omega, rfl⟩

variable {f}

def Number.Finite (x : Number f) : Prop := x.magnitude < f.infinity

instance (x : Number f) : Decidable x.Finite := inferInstanceAs (Decidable (_ < _))

/-- True of both zeros. -/
def Number.isZero (x : Number f) : Bool := x.magnitude == 0

def Number.ofRat (negative : Bool) (q : ℚ) : Number f :=
  ⟨negative, f.round q, (f.round_le q).trans_lt f.infinity_lt⟩

def Number.ofInt (n : Int) : Number f := .ofRat (decide (n < 0)) n.natAbs

/-- Truncation towards zero, where there is something to truncate. -/
def Number.toInt (x : Number f) : Int :=
  if x.Finite then
    if x.negative then -(⌊f.value x.magnitude⌋₊ : Int) else ⌊f.value x.magnitude⌋₊
  else 0

/-- The fraction field of the quiet NaN with the given one. -/
def Format.quiet (f : Format) (fraction : Nat) : Nat :=
  if fraction < 2 ^ (f.fractionBits - 1) then fraction + 2 ^ (f.fractionBits - 1) else fraction

theorem Format.two_pow_fractionBits (f : Format) :
    2 ^ f.fractionBits = 2 ^ (f.fractionBits - 1) + 2 ^ (f.fractionBits - 1) := by
  have hsplit : f.fractionBits = (f.fractionBits - 1) + 1 := by
    have := f.fraction_pos
    omega
  rw [← Nat.two_mul, ← Nat.pow_succ', Nat.succ_eq_add_one, ← hsplit]

theorem Format.quiet_lt (f : Format) {fraction : Nat} (h : fraction < 2 ^ f.fractionBits) :
    f.quiet fraction < 2 ^ f.fractionBits := by
  have := f.two_pow_fractionBits
  rw [Format.quiet]
  split <;> omega

theorem Format.quiet_quiet (f : Format) (fraction : Nat) :
    f.quiet (f.quiet fraction) = f.quiet fraction := by
  by_cases h : fraction < 2 ^ (f.fractionBits - 1) <;> simp [Format.quiet, h]

theorem Format.nan_lt (f : Format) {fraction : Nat} (h : fraction < 2 ^ f.fractionBits) :
    f.infinity + fraction < 2 ^ (f.fractionBits + f.exponentBits) := by
  have := f.infinity_add
  omega

/-- The fraction of a NaN keeps its leading bits in another format. -/
def align (f g : Format) (fraction : Nat) : Nat :=
  fraction % 2 ^ f.fractionBits * 2 ^ g.fractionBits / 2 ^ f.fractionBits

theorem align_lt (f g : Format) (fraction : Nat) : align f g fraction < 2 ^ g.fractionBits := by
  rw [align, Nat.div_lt_iff_lt_mul (Nat.two_pow_pos _), Nat.mul_comm (2 ^ g.fractionBits)]
  exact Nat.mul_lt_mul_of_pos_right (Nat.mod_lt _ (Nat.two_pow_pos _)) (Nat.two_pow_pos _)

/-- Conversion to another format: rounded, and NaNs become quiet. -/
def Number.convert (g : Format) (x : Number f) : Number g :=
  if x.Finite then .ofRat x.negative (f.value x.magnitude)
  else if x.magnitude = f.infinity then ⟨x.negative, g.infinity, g.infinity_lt⟩
  else
    ⟨x.negative, g.infinity + g.quiet (align f g (x.magnitude - f.infinity)),
      g.nan_lt (g.quiet_lt (align_lt f g _))⟩

/-- Every finite number of the first format is one of the second. -/
structure Format.Extends (f g : Format) : Prop where
  fraction : f.fractionBits ≤ g.fractionBits
  normal : g.minExponent ≤ f.minExponent
  least : g.minExponent - g.fractionBits ≤ f.minExponent - f.fractionBits
  greatest : f.minExponent + 2 ^ f.exponentBits + 2 ≤ g.minExponent + 2 ^ g.exponentBits

theorem binary32_extends_binary64 : Format.Extends binary32 binary64 := by
  constructor <;> decide

variable {g : Format}

theorem Format.Extends.unit_eq (h : f.Extends g) (k : Nat) :
    ∃ d, f.unit k = g.unit d := by
  have := h.least
  refine ⟨(f.minExponent - f.fractionBits - (g.minExponent - g.fractionBits)).toNat + k, ?_⟩
  rw [Format.unit, Format.unit]
  congr 1
  omega

/-- All finite values lie below a power of two. -/
theorem Format.value_lt (f : Format) {magnitude : Nat} (h : magnitude < f.infinity) :
    f.value magnitude < 2 ^ (f.minExponent + 2 ^ f.exponentBits) := by
  obtain ⟨n, k, hcanonical, rfl⟩ := f.exists_canonical magnitude
  have hk : k < 2 ^ f.exponentBits - 1 := by
    apply Nat.lt_of_mul_lt_mul_right (a := 2 ^ f.fractionBits)
    rw [Format.infinity] at h
    omega
  calc f.value (k * 2 ^ f.fractionBits + n)
      = n * f.unit k := f.value_canonical hcanonical
    _ < 2 ^ (f.fractionBits + 1) * f.unit k :=
        mul_lt_mul_of_pos_right (by exact_mod_cast hcanonical.1) (f.unit_pos k)
    _ = 2 ^ (f.minExponent - f.fractionBits + k + (f.fractionBits + 1 : Nat) : Int) :=
        f.pow_mul_unit _ _
    _ ≤ 2 ^ (f.minExponent + 2 ^ f.exponentBits) := by
        apply zpow_le_zpow_right₀ (by norm_num)
        have hcast : (k : Int) < 2 ^ f.exponentBits - 1 := by
          have hpos : 0 < 2 ^ f.exponentBits := Nat.two_pow_pos _
          have : k + 1 < 2 ^ f.exponentBits := by omega
          have : (k : Int) + 1 < ((2 ^ f.exponentBits : Nat) : Int) := by exact_mod_cast this
          push_cast at this
          omega
        omega

/-- Widening is exact. -/
theorem Number.value_convert (h : f.Extends g) {x : Number f} (hx : x.Finite) :
    (x.convert g).Finite ∧ g.value (x.convert g).magnitude = f.value x.magnitude := by
  obtain ⟨n, k, hcanonical, hmag⟩ := f.exists_canonical x.magnitude
  obtain ⟨d, hd⟩ := h.unit_eq k
  have hvalue : f.value x.magnitude = n * g.unit d := by
    rw [hmag, f.value_canonical hcanonical, hd]
  have hlt : n < 2 ^ (g.fractionBits + 1) := by
    refine hcanonical.1.trans_le (Nat.pow_le_pow_right (by norm_num) ?_)
    have := h.fraction
    omega
  have hgreatest := h.greatest
  have hnormal := h.normal
  obtain ⟨b, hb⟩ : ∃ b : Nat, (b : Int) = f.minExponent - g.minExponent + 2 ^ f.exponentBits := by
    have hpow : (0 : Int) < 2 ^ f.exponentBits := by positivity
    exact ⟨_, Int.toNat_of_nonneg (by omega)⟩
  have hpos : 0 < b := by
    have hpow : (0 : Int) < 2 ^ f.exponentBits := by positivity
    omega
  have hmax : b + 2 ≤ 2 ^ g.exponentBits := by
    have hle : (b : Int) + 2 ≤ 2 ^ g.exponentBits := by omega
    exact_mod_cast hle
  have hbound : (n : ℚ) * g.unit d < 2 ^ (g.minExponent + b) := by
    rw [← hvalue]
    refine (f.value_lt hx).trans_le (zpow_le_zpow_right₀ (by norm_num) ?_)
    omega
  rw [Number.convert, if_pos hx, hvalue]
  exact g.value_round hlt hpos hmax hbound

theorem Number.negative_convert (x : Number f) : (x.convert g).negative = x.negative := by
  rw [Number.convert]
  split
  · rfl
  · split <;> rfl

theorem Number.ext {x y : Number f} (hsign : x.negative = y.negative)
    (hmagnitude : x.magnitude = y.magnitude) : x = y := by
  cases x
  cases y
  simp_all

theorem align_eq {d : Nat} (hd : g.fractionBits = f.fractionBits + d) {fraction : Nat}
    (hlt : fraction < 2 ^ f.fractionBits) : align f g fraction = fraction * 2 ^ d := by
  rw [align, Nat.mod_eq_of_lt hlt, hd, Nat.pow_add, Nat.mul_comm (2 ^ f.fractionBits),
    ← Nat.mul_assoc, Nat.mul_div_cancel _ (Nat.two_pow_pos _)]

/-- A NaN may be made quiet before it is widened or after. -/
theorem quiet_align (h : f.fractionBits ≤ g.fractionBits) {fraction : Nat}
    (hlt : fraction < 2 ^ f.fractionBits) :
    g.quiet (align f g fraction) = align f g (f.quiet fraction) := by
  obtain ⟨d, hd⟩ := Nat.exists_eq_add_of_le h
  have hpos := f.fraction_pos
  have hhalf : 2 ^ (g.fractionBits - 1) = 2 ^ (f.fractionBits - 1) * 2 ^ d := by
    rw [← Nat.pow_add]
    congr 1
    omega
  rw [align_eq hd hlt, align_eq hd (f.quiet_lt hlt), Format.quiet, Format.quiet, hhalf]
  by_cases hn : fraction < 2 ^ (f.fractionBits - 1)
  · rw [if_pos hn, if_pos (Nat.mul_lt_mul_of_pos_right hn (Nat.two_pow_pos d)), Nat.add_mul]
  · rw [if_neg hn, if_neg (Nat.not_lt.mpr (Nat.mul_le_mul_right _ (Nat.not_lt.mp hn)))]

theorem align_align (h : f.fractionBits ≤ g.fractionBits) {fraction : Nat}
    (hlt : fraction < 2 ^ f.fractionBits) : align g f (align f g fraction) = fraction := by
  obtain ⟨d, hd⟩ := Nat.exists_eq_add_of_le h
  have hmod := align_lt f g fraction
  rw [align, Nat.mod_eq_of_lt hmod, align_eq hd hlt, hd, Nat.pow_add, Nat.mul_assoc,
    Nat.mul_comm (2 ^ d), Nat.mul_div_cancel _ (by positivity)]

theorem Number.magnitude_convert_infinity {x : Number f} (hinf : x.magnitude = f.infinity) :
    (x.convert g).magnitude = g.infinity := by
  have hfinite : ¬ x.Finite := Nat.not_lt.mpr hinf.ge
  rw [Number.convert, if_neg hfinite, if_pos hinf]

theorem Number.magnitude_convert_nan {x : Number f} (hnan : f.infinity < x.magnitude) :
    (x.convert g).magnitude = g.infinity + g.quiet (align f g (x.magnitude - f.infinity)) := by
  have hfinite : ¬ x.Finite := Nat.not_lt.mpr hnan.le
  rw [Number.convert, if_neg hfinite, if_neg (by omega)]

theorem Format.quiet_pos (f : Format) (fraction : Nat) : 0 < f.quiet fraction := by
  have hpow : 0 < 2 ^ (f.fractionBits - 1) := Nat.two_pow_pos _
  rw [Format.quiet]
  split <;> omega

/-- Narrowing a widened number changes a NaN at most, and widening it again
shows no difference. -/
theorem Number.convert_convert (h : f.Extends g) (x : Number f) :
    ((x.convert g).convert f).convert g = x.convert g := by
  rcases Nat.lt_trichotomy x.magnitude f.infinity with hfinite | hinf | hnan
  · have hback : (x.convert g).convert f = x := by
      obtain ⟨hwide, hvalue⟩ := value_convert h hfinite
      refine Number.ext ?_ ?_
      · rw [negative_convert, negative_convert]
      · rw [Number.convert, if_pos hwide, hvalue]
        exact f.round_value hfinite
    rw [hback]
  · apply Number.ext (by simp [negative_convert])
    have hwide := magnitude_convert_infinity (g := g) hinf
    rw [hwide, magnitude_convert_infinity (magnitude_convert_infinity hwide)]
  · apply Number.ext (by simp [negative_convert])
    have hlt : x.magnitude - f.infinity < 2 ^ f.fractionBits := by
      have hvalid := x.valid
      have := f.infinity_add
      omega
    have hwide := magnitude_convert_nan (g := g) hnan
    rw [quiet_align h.fraction hlt] at hwide
    have hquiet := f.quiet_lt hlt
    have hnarrow : ((x.convert g).convert f).magnitude =
        f.infinity + f.quiet (x.magnitude - f.infinity) := by
      have hpos := g.quiet_pos (align f g (x.magnitude - f.infinity))
      rw [quiet_align h.fraction hlt] at hpos
      rw [magnitude_convert_nan (by omega), hwide, Nat.add_sub_cancel_left,
        align_align h.fraction hquiet, f.quiet_quiet]
    have hpos := f.quiet_pos (x.magnitude - f.infinity)
    rw [magnitude_convert_nan (by omega), hnarrow, Nat.add_sub_cancel_left,
      quiet_align h.fraction hquiet, f.quiet_quiet, hwide]

/-- A format whose exponents reach over all integers that its fractions hold. -/
structure Format.Integral (f : Format) : Prop where
  least : f.minExponent ≤ f.fractionBits
  greatest : f.fractionBits - f.minExponent + 3 ≤ 2 ^ f.exponentBits

theorem binary64_integral : Format.Integral binary64 := by
  constructor <;> decide

/-- Integers that the fraction field can hold are exact. -/
theorem Number.value_ofInt (h : f.Integral) {n : Int}
    (hn : n.natAbs < 2 ^ (f.fractionBits + 1)) :
    (ofInt n : Number f).Finite ∧ f.value (ofInt n : Number f).magnitude = n.natAbs := by
  have hleast := h.least
  have hgreatest := h.greatest
  obtain ⟨d, hd⟩ : ∃ d : Nat, (d : Int) = f.fractionBits - f.minExponent :=
    ⟨_, Int.toNat_of_nonneg (by omega)⟩
  have hunit : f.unit d = 1 := by
    have hzero : f.minExponent - f.fractionBits + d = 0 := by omega
    rw [Format.unit, hzero, zpow_zero]
  have hexp : d + 1 + 2 ≤ 2 ^ f.exponentBits := by
    have hle : (d : Int) + 1 + 2 ≤ 2 ^ f.exponentBits := by omega
    exact_mod_cast hle
  have hbound : (n.natAbs : ℚ) * f.unit d < 2 ^ (f.minExponent + (d + 1 : Nat)) := by
    have hzero : f.minExponent + ((d + 1 : Nat) : Int) = (f.fractionBits + 1 : Nat) := by
      push_cast
      omega
    rw [hunit, mul_one, hzero, zpow_natCast]
    exact_mod_cast hn
  have hround := f.value_round hn (Nat.succ_pos d) hexp hbound
  rwa [hunit, mul_one] at hround

theorem Number.toInt_ofInt (h : f.Integral) {n : Int}
    (hn : n.natAbs < 2 ^ (f.fractionBits + 1)) : (ofInt n : Number f).toInt = n := by
  obtain ⟨hfinite, hvalue⟩ := value_ofInt h hn
  rw [toInt, if_pos hfinite, hvalue, Nat.floor_natCast]
  simp only [ofInt, ofRat, decide_eq_true_eq]
  split <;> omega

/-- An integer that fits the significand is zero only if it is `0`. -/
theorem Number.isZero_ofInt (h : f.Integral) {n : Int}
    (hn : n.natAbs < 2 ^ (f.fractionBits + 1)) : (ofInt n : Number f).isZero = decide (n = 0) := by
  by_cases hzero : n = 0
  · simp [hzero, isZero, ofInt, ofRat, Format.round]
  · have hvalue := (value_ofInt h hn).2
    have hne : (ofInt n : Number f).magnitude ≠ 0 := by
      intro hmagnitude
      rw [hmagnitude] at hvalue
      simp [Format.value, eq_comm, hzero] at hvalue
    simp [isZero, hzero, hne]

end IeeeFloat
