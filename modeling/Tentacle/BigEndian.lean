import Mathlib.Data.List.Induction
import Mathlib.Tactic.Ring

/-!
# Big-endian bytes

Natural numbers as byte strings of a fixed width, most significant byte first.
-/

namespace BigEndian

/-- The `w` bytes of a number; what does not fit is dropped. -/
def putUint : Nat → Nat → List UInt8
  | 0, _ => []
  | w + 1, n => putUint w (n / 256) ++ [UInt8.ofNat n]

def uint (bytes : List UInt8) : Nat := bytes.foldl (fun n b => 256 * n + b.toNat) 0

@[simp] theorem length_putUint (w n : Nat) : (putUint w n).length = w := by
  induction w generalizing n with
  | zero => rfl
  | succ w ih => simp [putUint, ih]

@[simp] theorem uint_nil : uint [] = 0 := rfl

theorem uint_snoc (bytes : List UInt8) (b : UInt8) :
    uint (bytes ++ [b]) = 256 * uint bytes + b.toNat := by
  simp [uint]

/-- The bytes in front count for more by the length of those behind. -/
theorem uint_append (xs ys : List UInt8) :
    uint (xs ++ ys) = 256 ^ ys.length * uint xs + uint ys := by
  induction ys using List.reverseRecOn with
  | nil => simp
  | append_singleton ys b ih =>
    rw [← List.append_assoc, uint_snoc, uint_snoc, ih, List.length_append, List.length_singleton,
      Nat.pow_succ]
    ring

/-- What is written in `w` bytes is read back up to a multiple of `256 ^ w`. -/
theorem uint_putUint (w n : Nat) : uint (putUint w n) = n % 256 ^ w := by
  induction w generalizing n with
  | zero => simp [putUint, Nat.mod_one]
  | succ w ih =>
    have hsplit : n % 256 ^ (w + 1) = n % 256 + 256 * (n / 256 % 256 ^ w) := by
      rw [Nat.pow_succ', Nat.mod_mul]
    rw [putUint, uint_snoc, ih, UInt8.toNat_ofNat', hsplit]
    omega

theorem uint_putUint_of_lt {w n : Nat} (h : n < 256 ^ w) : uint (putUint w n) = n := by
  rw [uint_putUint, Nat.mod_eq_of_lt h]

theorem uint_lt (bytes : List UInt8) : uint bytes < 256 ^ bytes.length := by
  induction bytes using List.reverseRecOn with
  | nil => simp
  | append_singleton bytes b ih =>
    have hb := b.toNat_lt
    rw [uint_snoc, List.length_append, List.length_singleton, Nat.pow_succ]
    omega

/-- Byte strings of one length are told apart by their numbers. -/
theorem uint_injective {xs ys : List UInt8} (hlength : xs.length = ys.length)
    (h : uint xs = uint ys) : xs = ys := by
  induction xs using List.reverseRecOn generalizing ys with
  | nil => exact (List.length_eq_zero_iff.mp hlength.symm).symm
  | append_singleton xs b ih =>
    cases ys using List.reverseRecOn with
    | nil => simp at hlength
    | append_singleton ys c =>
      have hb := b.toNat_lt
      have hc := c.toNat_lt
      rw [uint_snoc, uint_snoc] at h
      have hrest : xs = ys := ih (by simpa using hlength) (by omega)
      have hlast : b = c := UInt8.toNat_inj.mp (by omega)
      rw [hrest, hlast]

theorem putUint_uint (bytes : List UInt8) : putUint bytes.length (uint bytes) = bytes :=
  uint_injective (by simp) (uint_putUint_of_lt (uint_lt bytes))

end BigEndian
