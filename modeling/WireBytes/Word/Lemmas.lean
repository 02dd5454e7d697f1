import Mathlib
import WireBytes.Word

/-!
# Rounding to powers of two

What the roundings of `Word` mean: a power of two is at least `n` exactly if its exponent is at
least `ceilExponent n`, and at most `n` exactly if its exponent is at most the binary logarithm.
-/

namespace WireBytes.Word

/-- Rounding down keeps the first binary digit of a number. -/
theorem roundDown_of_ne_zero {n : Nat} (h : n ≠ 0) : roundDown n = 2 ^ n.log2 := by
  rw [roundDown, if_neg h, Nat.one_shiftLeft]

/-- Rounding up does not lead below the number. -/
theorem le_two_pow_ceilExponent (n : Nat) : n ≤ 2 ^ ceilExponent n := by
  unfold ceilExponent
  split
  · simpa using by assumption
  · have : n - 1 < 2 ^ ((n - 1).log2 + 1) := Nat.lt_log2_self
    omega

/-- A power of two is at least `n` exactly if its exponent is at least `ceilExponent n`. -/
theorem le_two_pow_iff (n k : Nat) : n ≤ 2 ^ k ↔ ceilExponent n ≤ k := by
  constructor
  · intro h
    unfold ceilExponent
    split
    · omega
    · have : (n - 1).log2 < k := (Nat.log2_lt (by omega)).2 (by omega)
      omega
  · intro h
    exact Nat.le_trans (le_two_pow_ceilExponent n) (Nat.pow_le_pow_right (by decide) h)

/-- The larger of two numbers rounds up to the larger of their exponents. -/
theorem ceilExponent_max (m n : Nat) :
    ceilExponent (max m n) = max (ceilExponent m) (ceilExponent n) := by
  apply eq_of_forall_ge_iff
  intro k
  rw [← le_two_pow_iff, max_le_iff, max_le_iff, le_two_pow_iff, le_two_pow_iff]

/-- That zero is taken for one does not change what it is rounded up to. -/
theorem ceilExponent_max_one (n : Nat) : ceilExponent (max n 1) = ceilExponent n := by
  rw [ceilExponent_max]
  exact Nat.max_eq_left (Nat.zero_le _)

/-- A power of two is rounded up to itself. -/
@[simp] theorem ceilExponent_two_pow (k : Nat) : ceilExponent (2 ^ k) = k := by
  apply eq_of_forall_ge_iff
  intro j
  rw [← le_two_pow_iff, Nat.pow_le_pow_iff_right (by decide)]

/-- A number can be rounded up exactly if the power of two that it leads to is a word. -/
theorem roundUp?_eq_some_iff {n p : Nat} :
    roundUp? n = some p ↔ ceilExponent n < width ∧ p = 2 ^ ceilExponent n := by
  unfold roundUp?
  rw [Nat.one_shiftLeft]
  split <;> simp_all [eq_comm]

/-- A power of two is at most `n` exactly if its exponent is at most the binary logarithm. -/
theorem two_pow_le_iff {n : Nat} (h : n ≠ 0) (k : Nat) : 2 ^ k ≤ n ↔ k ≤ n.log2 :=
  (Nat.le_log2 h).symm

/-- A count that does not wrap around. -/
theorem toNat_add_one {n : UInt64} (h : n.toNat + 1 < 2 ^ 64) : (n + 1).toNat = n.toNat + 1 := by
  rw [UInt64.toNat_add, UInt64.toNat_one, Nat.mod_eq_of_lt h]

theorem toNat_ne_zero {n : UInt64} (h : n ≠ 0) : n.toNat ≠ 0 :=
  fun hzero => h (UInt64.toNat_inj.1 hzero)

/-- The logarithm of a word is less than the width of a word. -/
theorem log2_lt_width {n : UInt64} (h : n.toNat ≠ 0) : n.toNat.log2 < width := by
  rw [Nat.log2_lt h]
  exact n.toNat_lt

/-- A power of two is a word if its exponent is less than the width of a word. -/
theorem two_pow_lt_size {k : Nat} (h : k < width) : 2 ^ k < UInt64.size :=
  Nat.pow_lt_pow_right (by decide) h

@[simp] theorem isPowerOfTwo_two_pow (k : Nat) : isPowerOfTwo (2 ^ k) = true := by
  simp [isPowerOfTwo, Nat.one_shiftLeft, Nat.log2_two_pow]

/-- The test on the logarithm finds the powers of two and no other number. -/
theorem isPowerOfTwo_iff (n : Nat) : isPowerOfTwo n = true ↔ ∃ k, n = 2 ^ k := by
  constructor
  · intro h
    simp only [isPowerOfTwo, Nat.one_shiftLeft, Bool.and_eq_true, bne_iff_ne, beq_iff_eq] at h
    exact ⟨n.log2, h.2.symm⟩
  · rintro ⟨k, rfl⟩
    exact isPowerOfTwo_two_pow k

end WireBytes.Word
