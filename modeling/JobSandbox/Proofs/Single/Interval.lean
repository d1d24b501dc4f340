import JobSandbox.Proofs.Single
import JobSandbox.Single.Shortest

/-!
# The decimal of a number belongs to no other

The decimal that stands for a number is found in the interval of reals that are rounded to it.  The
intervals of two numbers have an end in common at most.  An end belongs to an interval if the
significand is even; neighbours have significands that differ by one, or are the last of an exponent
and the first of the next, so one of them is odd and leaves the end to the other.

The search for the decimal never fails, as every number is a multiple of the least power of ten that
is tried.

## Main definitions

* `Single.Interval.Contains` — a rational that is rounded to the number of an interval.
* `Single.Interval.Before` — intervals that have no rational in common, in ascending order.
* `Single.Decimal.toRat` — the rational that a decimal stands for.

## Main results

* `Single.eq_of_contains` — numbers of one sign are the same if their intervals have a rational in
  common.
* `Single.contains_shortest` — **the shortest decimal of a number is in its interval.**
-/

namespace JobSandbox
namespace Single

variable {x y : Single} {i j : Interval} {u : ℚ} {n d : ℕ} {k : ℤ}

/-! ### Intervals -/

/-- A rational that is rounded to the number of an interval, in the units that its ends are whole
in. -/
structure Interval.Contains (i : Interval) (u : ℚ) : Prop where
  low_le : i.low ≤ u
  le_high : u ≤ i.high
  closed_of_end : u = i.low ∨ u = i.high → i.closed = true

theorem Interval.holds_iff (hd : 0 < d) : i.holds n d = true ↔ i.Contains (n / d) := by
  have hpos : (0 : ℚ) < d := by exact_mod_cast hd
  have hle (a : ℕ) : a * d ≤ n ↔ (a : ℚ) ≤ n / d := by
    rw [le_div_iff₀ hpos]
    exact_mod_cast Iff.rfl
  have hge (a : ℕ) : n ≤ a * d ↔ (n : ℚ) / d ≤ a := by
    rw [div_le_iff₀ hpos]
    exact_mod_cast Iff.rfl
  rw [holds]
  split
  · next hclosed =>
    rw [Bool.and_eq_true, decide_eq_true_iff, decide_eq_true_iff, hle, hge]
    exact ⟨fun h => ⟨h.1, h.2, fun _ => hclosed⟩, fun h => ⟨h.low_le, h.le_high⟩⟩
  · next hopen =>
    rw [Bool.and_eq_true, decide_eq_true_iff, decide_eq_true_iff, ← not_le, ← not_le, hge, hle,
      not_le, not_le]
    constructor
    · rintro ⟨hlt, hgt⟩
      refine ⟨hlt.le, hgt.le, ?_⟩
      rintro (hend | hend)
      · exact absurd hend hlt.ne'
      · exact absurd hend hgt.ne
    · intro h
      obtain ⟨hlow, hhigh⟩ := not_or.mp fun hend => hopen (h.closed_of_end hend)
      exact ⟨lt_of_le_of_ne h.low_le (Ne.symm hlow), lt_of_le_of_ne h.le_high hhigh⟩

/-- One interval ends where the other begins, or below, and their common end belongs to one of them
at most. -/
structure Interval.Before (i j : Interval) : Prop where
  high_le_low : i.high ≤ j.low
  open_of_eq : i.high = j.low → i.closed = true → j.closed = false

theorem Interval.Before.not_contains (h : i.Before j) (hi : i.Contains u) : ¬j.Contains u := by
  intro hj
  have hle : (i.high : ℚ) ≤ j.low := by exact_mod_cast h.high_le_low
  -- the rational is at the end of both
  have hhigh : u = i.high := le_antisymm hi.le_high (hle.trans hj.low_le)
  have hlow : u = j.low := le_antisymm (hi.le_high.trans hle) hj.low_le
  have hmeet : i.high = j.low := by exact_mod_cast hhigh.symm.trans hlow
  have hclosed := hj.closed_of_end (.inl hlow)
  rw [h.open_of_eq hmeet (hi.closed_of_end (.inr hhigh))] at hclosed
  cases hclosed

/-! ### Numbers in ascending order -/

/-- Only in the least unit is a significand without its leading bit. -/
theorem fieldUnit_le_significand (h : 0 < x.scaleUp) : fieldUnit ≤ x.significand := by
  unfold scaleUp at h
  rw [significand, if_neg (by omega)]
  exact Nat.le_add_right _ _

/-- The lower end of an interval is no further down than half a unit. -/
theorem le_low (x : Single) : (4 * x.significand - 2) * 2 ^ x.scaleUp ≤ x.interval.low := by
  rw [interval]
  dsimp only
  rw [Nat.one_shiftLeft]
  refine Nat.mul_le_mul_right _ ?_
  split <;> omega

theorem high_eq (x : Single) : x.interval.high = (4 * x.significand + 2) * 2 ^ x.scaleUp := by
  rw [interval]
  dsimp only
  rw [Nat.one_shiftLeft]

theorem closed_iff (x : Single) : x.interval.closed = true ↔ x.significand % 2 = 0 := by
  rw [interval]
  exact beq_iff_eq

/-- Of two numbers in one unit, that with the smaller significand is below. -/
theorem before_of_significand_lt (hscale : x.scaleUp = y.scaleUp)
    (h : x.significand < y.significand) : x.interval.Before y.interval := by
  have hpos : 0 < 2 ^ y.scaleUp := Nat.two_pow_pos _
  have hlow := le_low y
  have hle : (4 * x.significand + 2) * 2 ^ y.scaleUp ≤ (4 * y.significand - 2) * 2 ^ y.scaleUp :=
    Nat.mul_le_mul_right _ (by omega)
  have hhigh := high_eq x
  rw [hscale] at hhigh
  refine ⟨hhigh ▸ hle.trans hlow, fun hmeet hclosed => Bool.eq_false_iff.mpr fun hclosed' => ?_⟩
  rw [closed_iff] at hclosed hclosed'
  -- the ends meet only for neighbours
  have heq : 4 * x.significand + 2 = 4 * y.significand - 2 :=
    Nat.eq_of_mul_eq_mul_right hpos (hle.antisymm (hhigh ▸ hmeet ▸ hlow))
  omega

/-- Of two numbers in different units, that in the smaller unit is below. -/
theorem before_of_scaleUp_lt (h : x.scaleUp < y.scaleUp) : x.interval.Before y.interval := by
  have hpos : 0 < 2 ^ x.scaleUp := Nat.two_pow_pos _
  have hx := x.significand_lt
  have hy := fieldUnit_le_significand (Nat.zero_lt_of_lt h)
  unfold fieldUnit at hy
  obtain ⟨e, he⟩ := Nat.exists_eq_add_of_lt h
  have hunit : 2 ^ y.scaleUp = 2 * 2 ^ e * 2 ^ x.scaleUp := by
    rw [he, pow_succ, pow_add]
    ring
  -- at the first significand of an exponent the lower half is only half as long
  have hlow : (2 ^ 26 - 2) * 2 ^ x.scaleUp ≤ y.interval.low := by
    have hhalf : 2 ^ 26 - 2 ≤ (if y.significand = fieldUnit ∧ 0 < y.scaleUp then
        4 * y.significand - 1 else 4 * y.significand - 2) * 2 := by
      unfold fieldUnit
      split <;> omega
    rw [interval]
    dsimp only
    rw [Nat.one_shiftLeft, hunit, ← mul_assoc]
    refine Nat.mul_le_mul_right _ (hhalf.trans ?_)
    rw [← mul_assoc]
    exact Nat.le_mul_of_pos_right _ (Nat.two_pow_pos e)
  have hle : (4 * x.significand + 2) * 2 ^ x.scaleUp ≤ (2 ^ 26 - 2) * 2 ^ x.scaleUp :=
    Nat.mul_le_mul_right _ (by omega)
  refine ⟨high_eq x ▸ hle.trans hlow, fun hmeet hclosed => ?_⟩
  rw [closed_iff] at hclosed
  -- the ends meet only behind the last significand of an exponent, and that one is odd
  have heq : 4 * x.significand + 2 = 2 ^ 26 - 2 :=
    Nat.eq_of_mul_eq_mul_right hpos (hle.antisymm (high_eq x ▸ hmeet ▸ hlow))
  omega

/-- A number is its sign, its significand and its unit. -/
theorem eq_of_parts (hsign : x.isNegative = y.isNegative)
    (hsignificand : x.significand = y.significand) (hscale : x.scaleUp = y.scaleUp) : x = y := by
  have hlt := x.bits.toNat_lt
  have hlt' := y.bits.toNat_lt
  suffices hbits : x.bits.toNat = y.bits.toNat by
    cases x
    cases y
    rw [mk.injEq]
    exact UInt32.toNat_inj.mp hbits
  rw [isNegative, isNegative, Bool.eq_iff_iff, beq_iff_eq, beq_iff_eq] at hsign
  unfold significand at hsignificand
  unfold scaleUp at hscale
  unfold exponentField fractionField fieldUnit at *
  split at hsignificand <;> split at hsignificand <;> omega

/-- **Numbers of one sign are the same if their intervals have a rational in common.** -/
theorem eq_of_contains (hsign : x.isNegative = y.isNegative) (hx : x.interval.Contains u)
    (hy : y.interval.Contains u) : x = y := by
  rcases lt_trichotomy x.scaleUp y.scaleUp with hlt | hscale | hlt
  · exact absurd hy ((before_of_scaleUp_lt hlt).not_contains hx)
  · rcases lt_trichotomy x.significand y.significand with hlt | hsignificand | hlt
    · exact absurd hy ((before_of_significand_lt hscale hlt).not_contains hx)
    · exact eq_of_parts hsign hsignificand hscale
    · exact absurd hx ((before_of_significand_lt hscale.symm hlt).not_contains hy)
  · exact absurd hx ((before_of_scaleUp_lt hlt).not_contains hy)

/-- Zero is rounded to itself. -/
theorem contains_zero (h : x.significand = 0) : x.interval.Contains 0 := by
  have hlow : x.interval.low = 0 := by
    rw [interval]
    dsimp only
    rw [h, if_neg fun hfirst => absurd hfirst.1 (by decide)]
    exact Nat.zero_mul _
  refine ⟨by rw [hlow, Nat.cast_zero], Nat.cast_nonneg _, fun _ => ?_⟩
  rw [closed_iff, h]

/-- Nothing but zero is rounded to zero. -/
theorem Interval.Contains.pos (hu : x.interval.Contains u) (h : x.significand ≠ 0) : 0 < u := by
  have hlow : 0 < x.interval.low :=
    (Nat.mul_pos (by omega) (Nat.two_pow_pos _)).trans_le (le_low x)
  exact (by exact_mod_cast hlow : (0 : ℚ) < x.interval.low).trans_le hu.low_le

/-! ### The search -/

/-- The rational that a decimal stands for. -/
def Decimal.toRat (decimal : Decimal) : ℚ := decimal.digits * 10 ^ decimal.exponent

/-- A multiple of a power of ten that is found is in the interval. -/
theorem contains_of_multiple? (h : multiple? i k = some n) : i.Contains (n * 10 ^ k * one) := by
  have hholds : i.holds (n * (one * 10 ^ k.toNat)) (10 ^ (-k).toNat) = true := by
    unfold multiple? at h
    dsimp only at h
    split at h
    · next hbelow habove =>
      rw [← Option.some.inj h]
      split
      · exact hbelow
      · exact habove
    · next hbelow _ =>
      rw [← Option.some.inj h]
      exact hbelow
    · next _ habove =>
      rw [← Option.some.inj h]
      exact habove
    · cases h
  have hmeasure : ((n * (one * 10 ^ k.toNat) : ℕ) : ℚ) / (10 ^ (-k).toNat : ℕ) =
      n * 10 ^ k * one := by
    rw [zpow_eq_div (by norm_num) k]
    push_cast
    ring
  exact hmeasure ▸ (Interval.holds_iff (by positivity)).mp hholds

/-- The search ends with a multiple if there is one of the last power that it tries. -/
theorem multiple?_search {steps : ℕ} (h : (multiple? i (k - steps)).isSome = true) :
    multiple? i (search i steps k).exponent = some (search i steps k).digits := by
  induction steps generalizing k with
  | zero =>
    rw [Nat.cast_zero, sub_zero] at h
    obtain ⟨found, hfound⟩ := Option.isSome_iff_exists.mp h
    rw [search, hfound]
    rfl
  | succ steps ih =>
    rw [search]
    split
    · next found hfound => exact hfound
    · refine ih ?_
      rwa [Nat.cast_succ, ← sub_sub, sub_right_comm] at h

/-- A multiple that is the number itself is found. -/
theorem isSome_multiple?_of_dvd (hvalue : i.Contains i.value)
    (hdvd : one * 10 ^ k.toNat ∣ i.value * 10 ^ (-k).toNat) : (multiple? i k).isSome = true := by
  have hpos : 0 < 10 ^ (-k).toNat := by positivity
  have hbelow : i.holds (i.value * 10 ^ (-k).toNat / (one * 10 ^ k.toNat) * (one * 10 ^ k.toNat))
      (10 ^ (-k).toNat) = true := by
    rw [Nat.div_mul_cancel hdvd, Interval.holds_iff hpos]
    have hmeasure : ((i.value * 10 ^ (-k).toNat : ℕ) : ℚ) / (10 ^ (-k).toNat : ℕ) = i.value := by
      rw [Nat.cast_mul, mul_div_cancel_right₀]
      exact_mod_cast hpos.ne'
    rwa [hmeasure]
  unfold multiple?
  dsimp only
  split
  · rfl
  · rfl
  · rfl
  · next hnot _ => cases hbelow.symm.trans hnot

/-- Every number but zero lies between the ends of its interval. -/
theorem contains_value (hne : x.significand ≠ 0) : x.interval.Contains x.interval.value := by
  have hpos : 0 < 2 ^ x.scaleUp := Nat.two_pow_pos _
  have hlow : x.interval.low < x.interval.value := by
    rw [interval]
    dsimp only
    rw [Nat.one_shiftLeft]
    refine Nat.mul_lt_mul_of_pos_right ?_ hpos
    split <;> omega
  have hhigh : x.interval.value < x.interval.high := by
    rw [interval]
    dsimp only
    rw [Nat.one_shiftLeft]
    exact Nat.mul_lt_mul_of_pos_right (by omega) hpos
  refine ⟨by exact_mod_cast hlow.le, by exact_mod_cast hhigh.le, ?_⟩
  rintro (hend | hend)
  · exact absurd (by exact_mod_cast hend) hlow.ne'
  · exact absurd (by exact_mod_cast hend) hhigh.ne

/-- Every number is a multiple of the least power of ten that is tried. -/
theorem isSome_multiple?_least (hne : x.significand ≠ 0) :
    (multiple? x.interval (-149)).isSome = true := by
  refine isSome_multiple?_of_dvd (contains_value hne) ⟨x.significand * 2 ^ x.scaleUp * 5 ^ 149, ?_⟩
  have hone : one = 4 * 2 ^ 149 := by decide
  have hten : 10 ^ 149 = 2 ^ 149 * 5 ^ 149 := by rw [← Nat.mul_pow]
  have hvalue : x.interval.value = 4 * x.significand * 2 ^ x.scaleUp := by
    rw [interval]
    dsimp only
    rw [Nat.one_shiftLeft]
  calc x.interval.value * 10 ^ 149
      = 4 * x.significand * 2 ^ x.scaleUp * (2 ^ 149 * 5 ^ 149) := by rw [hvalue, hten]
    _ = one * 10 ^ 0 * (x.significand * 2 ^ x.scaleUp * 5 ^ 149) := by
      rw [hone]
      ring

/-- **The shortest decimal of a number is in its interval.** -/
theorem contains_shortest (hne : x.significand ≠ 0) :
    x.interval.Contains (x.shortest.toRat * one) :=
  contains_of_multiple? (multiple?_search (isSome_multiple?_least hne))

end Single
end JobSandbox
