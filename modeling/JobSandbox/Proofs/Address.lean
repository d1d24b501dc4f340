import JobSandbox.Address
import Mathlib.Algebra.Order.Floor.Div
import Mathlib.Data.Nat.Bitwise
import Mathlib.Order.Bounds.Basic

/-!
# Rounding addresses

`alignUp?` rounds with a mask.  This module says what it rounds to: the least multiple of the unit,
in the sense of the order, exactly when that multiple is an address.  Of a mask that does not come
from a power of two it still holds that rounding never goes down, which is all that the order of
an arena rests on.

## Main definitions

* `leastMultiple unit a` — the least multiple of `unit` that is at least `a`, by division.

## Main results

* `isLeast_leastMultiple` — it is what its name says.
* `alignUp?_eq` — rounding by mask is rounding by division, as far as addresses go.
* `le_of_alignUp?` — rounding never goes down, whatever the unit.
-/

namespace JobSandbox
namespace Address

theorem addressSpace_eq : addressSpace = 2 ^ 64 := rfl

/-! ### Clearing bits -/

/-- Without its low `k` bits an address is rounded down to a multiple of `2 ^ k`. -/
theorem clear_two_pow_sub_one {a k : ℕ} (ha : a < addressSpace) :
    clear a (2 ^ k - 1) = a / 2 ^ k * 2 ^ k := by
  rw [addressSpace_eq] at ha
  rw [clear, addressSpace_eq, ← Nat.shiftRight_eq_div_pow, ← Nat.shiftLeft_eq]
  apply Nat.eq_of_testBit_eq
  intro i
  simp only [Nat.testBit_and, Nat.testBit_xor, Nat.testBit_two_pow_sub_one,
    Nat.testBit_shiftLeft, Nat.testBit_shiftRight]
  rcases Nat.lt_or_ge i 64 with hi | hi
  · -- below the width of an address, the mask decides
    rcases Nat.lt_or_ge i k with hk | hk
    · simp [hi, hk]
    · have hki : k + (i - k) = i := by omega
      simp [hi, hk, hki, Nat.not_lt.mpr hk]
  · -- above it, an address has no bits
    have hpow : a < 2 ^ i := lt_of_lt_of_le ha (Nat.pow_le_pow_right (by decide) hi)
    have hbit : a.testBit i = false := Nat.testBit_lt_two_pow hpow
    rcases Nat.lt_or_ge i k with hk | hk
    · simp [hbit, Nat.not_le.mpr hk]
    · have hki : k + (i - k) = i := by omega
      simp [hbit, hki]

theorem xor_le_add (a b : ℕ) : a ^^^ b ≤ a + b := by
  induction a using Nat.strong_induction_on generalizing b with
  | _ a ih =>
    rcases Nat.eq_zero_or_pos a with rfl | ha
    · simp
    · have hhalf : a / 2 ^^^ b / 2 ≤ a / 2 + b / 2 := ih (a / 2) (by omega) (b / 2)
      have hdiv : (a ^^^ b) / 2 = a / 2 ^^^ b / 2 := Nat.xor_div_two
      have hmod : (a ^^^ b) % 2 = (a + b) % 2 := Nat.xor_mod_two_eq
      omega

/-- Clearing the bits of a mask takes away no more than the mask. -/
theorem le_clear_add {a mask : ℕ} (ha : a < addressSpace) : a ≤ clear a mask + mask := by
  have hall : a &&& (addressSpace - 1) = a := by
    rw [addressSpace_eq] at ha ⊢
    rw [Nat.and_two_pow_sub_one_eq_mod, Nat.mod_eq_of_lt ha]
  have hsplit : a = clear a mask ^^^ (a &&& mask) := by
    rw [clear, Nat.and_xor_distrib_left, hall, Nat.xor_assoc, Nat.xor_self, Nat.xor_zero]
  calc a = clear a mask ^^^ (a &&& mask) := hsplit
    _ ≤ clear a mask + (a &&& mask) := xor_le_add _ _
    _ ≤ clear a mask + mask := Nat.add_le_add_left Nat.and_le_right _

/-- Rounding never goes down, not even for a unit that is no power of two. -/
theorem le_of_alignUp? {a unit b : ℕ} (h : alignUp? a unit = some b) : a ≤ b := by
  obtain ⟨sum, hsum, rfl⟩ := Option.map_eq_some_iff.mp h
  obtain ⟨rfl, hlt⟩ := add?_eq_some_iff.mp hsum
  have hle : a + (unit - 1) ≤ clear (a + (unit - 1)) (unit - 1) + (unit - 1) := le_clear_add hlt
  omega

/-! ### The least multiple -/

/-- The least multiple of `unit` that is at least `a`. -/
def leastMultiple (unit a : ℕ) : ℕ := a ⌈/⌉ unit * unit

theorem isLeast_leastMultiple {unit : ℕ} (hunit : 0 < unit) (a : ℕ) :
    IsLeast {n | a ≤ n ∧ unit ∣ n} (leastMultiple unit a) := by
  refine ⟨⟨?_, Dvd.intro_left _ rfl⟩, ?_⟩
  · rw [leastMultiple, Nat.mul_comm]
    exact (ceilDiv_le_iff_le_mul hunit).mp le_rfl
  · rintro n ⟨han, q, rfl⟩
    have hq : a ⌈/⌉ unit ≤ q := (ceilDiv_le_iff_le_mul hunit).mpr han
    rw [leastMultiple, Nat.mul_comm unit]
    exact Nat.mul_le_mul_right unit hq

theorem leastMultiple_of_dvd {unit a : ℕ} (hunit : 0 < unit) (h : unit ∣ a) :
    leastMultiple unit a = a :=
  (isLeast_leastMultiple hunit a).unique ⟨⟨le_rfl, h⟩, fun _ hn => hn.1⟩

/-- A unit that divides the address space has a multiple at its very end.  So the least multiple is
an address as soon as adding `unit - 1` leads to one. -/
theorem leastMultiple_lt_addressSpace_iff {unit a : ℕ} (hunit : 0 < unit)
    (hdvd : unit ∣ addressSpace) :
    leastMultiple unit a < addressSpace ↔ a + (unit - 1) < addressSpace := by
  obtain ⟨q, hq⟩ := hdvd
  have hle : a ⌈/⌉ unit ≤ q - 1 ↔ a ≤ unit * (q - 1) := ceilDiv_le_iff_le_mul hunit
  have hpos : 0 < q := by
    rcases Nat.eq_zero_or_pos q with rfl | hpos
    · simp [addressSpace] at hq
    · exact hpos
  have hlast : unit * (q - 1) + unit = addressSpace := by
    rw [hq, ← Nat.mul_succ, Nat.succ_eq_add_one, Nat.sub_add_cancel hpos]
  have hmul : leastMultiple unit a < addressSpace ↔ a ⌈/⌉ unit < q := by
    rw [leastMultiple, hq, Nat.mul_comm unit]
    exact Nat.mul_lt_mul_right hunit
  omega

/-- Rounding by mask is rounding to the least multiple, if that is an address. -/
theorem alignUp?_eq {unit : ℕ} (hpow : unit.isPowerOfTwo) (hunit : unit < addressSpace) (a : ℕ) :
    alignUp? a unit =
      if leastMultiple unit a < addressSpace then some (leastMultiple unit a) else none := by
  obtain ⟨k, rfl⟩ := hpow
  have hpos : 0 < 2 ^ k := Nat.two_pow_pos k
  have hk : k ≤ 64 := by
    rw [addressSpace_eq] at hunit
    exact ((Nat.pow_lt_pow_iff_right (by decide)).mp hunit).le
  have hdvd : 2 ^ k ∣ addressSpace := addressSpace_eq ▸ Nat.pow_dvd_pow 2 hk
  simp only [leastMultiple_lt_addressSpace_iff hpos hdvd]
  by_cases hlt : a + (2 ^ k - 1) < addressSpace
  · have hsum : a + (2 ^ k - 1) = a + 2 ^ k - 1 := by omega
    rw [if_pos hlt, alignUp?, add?, if_pos hlt, Option.map_some, clear_two_pow_sub_one hlt, hsum]
    rfl
  · rw [if_neg hlt, alignUp?, add?, if_neg hlt, Option.map_none]

/-! ### Pages -/

theorem pagesFor_eq_ceilDiv (n : ℕ) : pagesFor n = n ⌈/⌉ Contract.pageSize := rfl

theorem pagesFor_le_iff {n k : ℕ} : pagesFor n ≤ k ↔ n ≤ k * Contract.pageSize := by
  rw [pagesFor_eq_ceilDiv, Nat.mul_comm]
  exact ceilDiv_le_iff_le_mul (by decide)

/-- Pages for what is missing make up the pages for the whole. -/
theorem add_pagesFor_sub (pages n : ℕ) :
    pages + pagesFor (n - pages * Contract.pageSize) = max pages (pagesFor n) := by
  unfold pagesFor Contract.pageSize
  omega

end Address
end JobSandbox
