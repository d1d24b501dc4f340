import JobSandbox.Single
import Mathlib.Algebra.Order.Field.Power
import Mathlib.Data.Rat.Cast.Order
import Mathlib.Tactic.FieldSimp
import Mathlib.Tactic.Linarith
import Mathlib.Tactic.Positivity
import Mathlib.Tactic.Ring

/-!
# What quotients are rounded to

A quotient of naturals is measured in a unit, a power of two that is chosen so that it comes to
between `2 ^ 23` and `2 ^ 24` units, and to fewer only in the least unit there is.  The measure is
rounded to a natural, and that is the significand.  Numbers of the format that are multiples of the
unit cannot be nearer to the quotient, since a natural has been rounded to; all others lie below
`2 ^ 23` units, which is a number of the format too and not above the quotient.

## Main definitions

* `Single.toRat` — the rational that a finite number stands for.
* `Single.Rounds` — the natural that a rational is rounded to.
* `Single.FitsUnit` — the unit that a positive rational is measured in.
* `Single.IsNearest` — the number of the format that a rational is rounded to.

## Main results

* `rounds_inUnits`, `fitsUnit_unitExponent` — measuring and choosing the unit.
* `isNearest_ofRatio` — **a quotient is rounded to the nearest number of the format, to the even one
  of two.**
* `toRat_ofRatio_self` — the whole is rounded to one.
-/

namespace JobSandbox
namespace Single

variable {n d m e : ℕ} {k : ℤ} {q : ℚ}

/-- The rational that a finite number stands for. -/
def toRat (x : Single) : ℚ :=
  (if x.isNegative then -1 else 1) * x.significand * 2 ^ x.scale

/-- The number of the format that a rational is rounded to. -/
structure IsNearest (x : Single) (q : ℚ) : Prop where
  isFinite : x.isFinite = true
  /-- No finite number of the format is nearer. -/
  dist_le : ∀ y : Single, y.isFinite = true → |x.toRat - q| ≤ |y.toRat - q|
  /-- If another one is as near, this is the even one of the two. -/
  even_of_tie : ∀ y : Single, y.isFinite = true → |y.toRat - q| = |x.toRat - q| →
    y.toRat = x.toRat ∨ x.significand % 2 = 0

/-! ### Rounding to a natural -/

/-- The natural that a rational is rounded to. -/
structure Rounds (m : ℕ) (q : ℚ) : Prop where
  dist_le_half : |(m : ℚ) - q| ≤ 1 / 2
  even_of_half : |(m : ℚ) - q| = 1 / 2 → m % 2 = 0

/-- Whole numbers other than the one that is rounded to are half a unit away, or more. -/
theorem Rounds.half_le (h : Rounds m q) {z : ℤ} (hz : z ≠ m) : 1 / 2 ≤ |(z : ℚ) - q| := by
  have hone : (1 : ℚ) ≤ |(z : ℚ) - m| := by
    have hint : 1 ≤ |z - (m : ℤ)| := Int.one_le_abs (sub_ne_zero.mpr hz)
    exact_mod_cast hint
  have htriangle := abs_sub_le (z : ℚ) q m
  rw [abs_sub_comm q] at htriangle
  have hhalf := h.dist_le_half
  linarith

theorem Rounds.dist_le (h : Rounds m q) (z : ℤ) : |(m : ℚ) - q| ≤ |(z : ℚ) - q| := by
  by_cases hz : z = m
  · rw [hz, Int.cast_natCast]
  · exact h.dist_le_half.trans (h.half_le hz)

theorem Rounds.even_of_tie (h : Rounds m q) {z : ℤ} (htie : |(z : ℚ) - q| = |(m : ℚ) - q|) :
    z = m ∨ m % 2 = 0 := by
  by_cases hz : z = m
  · exact .inl hz
  · have hhalf := h.half_le hz
    rw [htie] at hhalf
    exact .inr (h.even_of_half (le_antisymm h.dist_le_half hhalf))

/-- The nearest natural, in halves of the denominator. -/
theorem abs_sub_nearestEven_le (hd : 0 < d) (n : ℕ) :
    |2 * (n : ℤ) - 2 * (d * nearestEven n d : ℕ)| ≤ d ∧
      (|2 * (n : ℤ) - 2 * (d * nearestEven n d : ℕ)| = d → nearestEven n d % 2 = 0) := by
  have hdiv := Nat.div_add_mod n d
  have hmod := Nat.mod_lt n hd
  unfold nearestEven
  dsimp only
  split
  · rw [abs_le, abs_eq (by omega)]
    omega
  · split
    · rw [Nat.mul_add, abs_le, abs_eq (by omega)]
      omega
    · rcases Nat.mod_two_eq_zero_or_one (n / d) with heven | hodd
      · rw [heven, Nat.add_zero, abs_le, abs_eq (by omega)]
        omega
      · rw [hodd, Nat.mul_add, abs_le, abs_eq (by omega)]
        omega

theorem rounds_nearestEven (hd : 0 < d) (n : ℕ) : Rounds (nearestEven n d) (n / d) := by
  obtain ⟨hle, heven⟩ := abs_sub_nearestEven_le hd n
  generalize nearestEven n d = m at hle heven ⊢
  have hpos : (0 : ℚ) < d := by exact_mod_cast hd
  have hdist : |(m : ℚ) - n / d| = ((|2 * (n : ℤ) - 2 * (d * m : ℕ)| : ℤ) : ℚ) / (2 * d) := by
    have htwice : (0 : ℚ) < 2 * d := by positivity
    rw [eq_div_iff htwice.ne', abs_sub_comm (2 * (n : ℤ)), Int.cast_abs]
    calc |(m : ℚ) - n / d| * (2 * d)
        = |((m : ℚ) - n / d) * (2 * d)| := by rw [abs_mul, abs_of_pos htwice]
      _ = _ := by
        push_cast
        field_simp
  constructor
  · rw [hdist, div_le_iff₀ (by positivity)]
    have hcast : ((|2 * (n : ℤ) - 2 * (d * m : ℕ)| : ℤ) : ℚ) ≤ d := by exact_mod_cast hle
    linarith
  · rw [hdist, div_eq_iff (by positivity)]
    intro hhalf
    apply heven
    have hcast : ((|2 * (n : ℤ) - 2 * (d * m : ℕ)| : ℤ) : ℚ) = (d : ℤ) := by
      rw [hhalf, Int.cast_natCast]
      ring
    exact_mod_cast hcast

/-! ### Units -/

/-- A power as a quotient of whole ones. -/
theorem zpow_eq_div {b : ℚ} (hb : b ≠ 0) (k : ℤ) : b ^ k = b ^ k.toNat / b ^ (-k).toNat := by
  have hsplit : k = (k.toNat : ℤ) - ((-k).toNat : ℤ) := by omega
  conv_lhs => rw [hsplit]
  rw [zpow_sub₀ hb, zpow_natCast, zpow_natCast]

/-- Measuring in a unit rounds to a natural. -/
theorem rounds_inUnits (hd : 0 < d) (n : ℕ) (k : ℤ) :
    Rounds (inUnits n d k) ((n : ℚ) / d / 2 ^ k) := by
  unfold inUnits
  rw [zpow_eq_div two_ne_zero k]
  split
  · next hk =>
    have hzero : (-k).toNat = 0 := by omega
    have hround := rounds_nearestEven (Nat.mul_pos hd (Nat.two_pow_pos k.toNat)) n
    rw [Nat.shiftLeft_eq, hzero, pow_zero, div_one, div_div]
    push_cast at hround
    exact hround
  · next hk =>
    have hzero : k.toNat = 0 := by omega
    have hround := rounds_nearestEven hd (n * 2 ^ (-k).toNat)
    rw [Nat.shiftLeft_eq, hzero, pow_zero, one_div, div_inv_eq_mul, div_mul_eq_mul_div]
    push_cast at hround
    exact hround

/-- The unit `2 ^ k` that a positive rational is measured in. -/
structure FitsUnit (k : ℤ) (q : ℚ) : Prop where
  minScale_le : minScale ≤ k
  lt_upper : q < 2 ^ (k + 24)
  lower_le : k = minScale ∨ 2 ^ (k + 23) ≤ q

/-- How a quotient is compared with a power of two. -/
theorem shiftLeft_lt_iff (hd : 0 < d) (n : ℕ) (k : ℤ) (j : ℕ) :
    n <<< (-k).toNat < d <<< (k.toNat + j) ↔ (n : ℚ) / d < 2 ^ (k + j) := by
  have hpos : (0 : ℚ) < d := by exact_mod_cast hd
  rw [zpow_add₀ two_ne_zero, zpow_natCast, zpow_eq_div two_ne_zero, Nat.shiftLeft_eq,
    Nat.shiftLeft_eq, div_mul_eq_mul_div, ← pow_add, div_lt_div_iff₀ hpos (by positivity),
    ← Nat.cast_lt (α := ℚ)]
  push_cast
  rw [mul_comm (d : ℚ)]

/-- The lengths of two naturals tell their quotient up to a factor of two. -/
theorem log2_bounds (hn : n ≠ 0) (hd : d ≠ 0) :
    (2 : ℚ) ^ ((n.log2 : ℤ) - d.log2 - 1) ≤ n / d ∧
      (n : ℚ) / d < 2 ^ ((n.log2 : ℤ) - d.log2 + 1) := by
  have hnle : ((2 : ℚ) ^ n.log2) ≤ n := by exact_mod_cast Nat.log2_self_le hn
  have hnlt : (n : ℚ) < 2 ^ (n.log2 + 1) := by exact_mod_cast Nat.lt_log2_self
  have hdle : ((2 : ℚ) ^ d.log2) ≤ d := by exact_mod_cast Nat.log2_self_le hd
  have hdlt : (d : ℚ) < 2 ^ (d.log2 + 1) := by exact_mod_cast Nat.lt_log2_self
  have hpos : (0 : ℚ) < d := by exact_mod_cast Nat.pos_of_ne_zero hd
  constructor
  · rw [sub_sub, zpow_sub₀ two_ne_zero, zpow_natCast, ← Nat.cast_succ, zpow_natCast,
      div_le_div_iff₀ (by positivity) hpos]
    gcongr
  · rw [sub_add_eq_add_sub, zpow_sub₀ two_ne_zero, ← Nat.cast_succ, zpow_natCast, zpow_natCast,
      div_lt_div_iff₀ hpos (by positivity)]
    exact mul_lt_mul hnlt hdle (by positivity) (by positivity)

theorem fitsUnit_unitExponent (hn : n ≠ 0) (hd : d ≠ 0) :
    FitsUnit (unitExponent n d) (n / d) := by
  obtain ⟨hlow, hhigh⟩ := log2_bounds hn hd
  have hmono {i j : ℤ} (hij : i ≤ j) : (2 : ℚ) ^ i ≤ 2 ^ j :=
    zpow_le_zpow_right₀ one_le_two hij
  unfold unitExponent
  dsimp only
  simp only [shiftLeft_lt_iff (Nat.pos_of_ne_zero hd)]
  generalize hfirst : (n.log2 : ℤ) - d.log2 - 24 = first
  -- the quotient takes 24 bits in the first unit, or else in the next
  have hunit : ∃ k, (if (n : ℚ) / d < 2 ^ (first + (24 : ℕ)) then first else first + 1) = k ∧
      (n : ℚ) / d < 2 ^ (k + 24) ∧ 2 ^ (k + 23) ≤ (n : ℚ) / d := by
    split
    · next hlt => exact ⟨first, rfl, hlt, (hmono (by omega)).trans hlow⟩
    · next hge =>
      refine ⟨first + 1, rfl, hhigh.trans_le (hmono (by omega)), ?_⟩
      exact (hmono (by push_cast; omega)).trans (not_lt.mp hge)
  obtain ⟨k, hk, hupper, hlower⟩ := hunit
  rw [hk]
  refine ⟨le_max_right _ _, hupper.trans_le (hmono (by omega)), ?_⟩
  rcases le_total k minScale with hle | hle
  · exact .inl (max_eq_right hle)
  · rw [max_eq_left hle]
    exact .inr hlower

/-! ### Fields -/

theorem significand_lt (x : Single) : x.significand < 2 ^ 24 := by
  have hfraction : x.fractionField < fieldUnit := Nat.mod_lt _ (by decide)
  rw [significand]
  unfold fieldUnit at hfraction ⊢
  split <;> omega

/-- A significand may take one bit too many, since the fields run on into each other. -/
theorem ofNat_fields (hm : m ≤ 2 ^ 24) (hsmall : m < 2 ^ 23 → e = 0)
    (hbits : m + e * fieldUnit < 255 * fieldUnit) :
    let x : Single := ⟨UInt32.ofNat (m + e * fieldUnit)⟩
    x.isFinite = true ∧ x.toRat = m * 2 ^ (minScale + e) ∧ (m % 2 = 0 → x.significand % 2 = 0) := by
  intro x
  have hx : x.bits.toNat = m + e * fieldUnit :=
    UInt32.toNat_ofNat_of_lt' (hbits.trans (by decide))
  have hpositive : x.isNegative = false := by
    rw [isNegative, hx, beq_eq_false_iff_ne]
    unfold fieldUnit at hbits ⊢
    omega
  have hexponent : x.exponentField = (m + e * fieldUnit) / fieldUnit := by
    rw [exponentField, hx]
    unfold fieldUnit at hbits ⊢
    omega
  have hfraction : x.fractionField = (m + e * fieldUnit) % fieldUnit := by
    rw [fractionField, hx]
  have hfinite : x.isFinite = true := by
    rw [isFinite, hexponent, bne_iff_ne]
    unfold fieldUnit at hbits ⊢
    omega
  have hparts : (x.significand = m ∧ x.scaleUp = e) ∨
      (m = 2 ^ 24 ∧ x.significand = 2 ^ 23 ∧ x.scaleUp = e + 1) := by
    rw [significand, scaleUp, hexponent, hfraction]
    unfold fieldUnit
    split <;> omega
  have hvalue : x.toRat = x.significand * 2 ^ (minScale + x.scaleUp) := by
    rw [toRat, hpositive, if_neg Bool.false_ne_true, one_mul, scale]
  refine ⟨hfinite, ?_, ?_⟩
  · rcases hparts with ⟨hsig, hup⟩ | ⟨rfl, hsig, hup⟩
    · rw [hvalue, hsig, hup]
    · rw [hvalue, hsig, hup, Nat.cast_succ, ← add_assoc, zpow_add_one₀ two_ne_zero]
      push_cast
      ring
  · omega

/-! ### Rounding to a number of the format -/

/-- Numbers whose unit is no smaller are whole in the given unit. -/
theorem exists_toRat_eq {y : Single} (h : k ≤ y.scale) : ∃ z : ℤ, y.toRat = z * 2 ^ k := by
  obtain ⟨j, hj⟩ := Int.eq_ofNat_of_zero_le (sub_nonneg.mpr h)
  have hscale : y.scale = k + j := by omega
  refine ⟨(if y.isNegative then -1 else 1) * y.significand * 2 ^ j, ?_⟩
  rw [toRat, hscale, zpow_add₀ two_ne_zero, zpow_natCast]
  push_cast
  ring

/-- Numbers whose unit is smaller are below the least one that needs the given unit. -/
theorem toRat_lt {y : Single} (h : y.scale < k) : y.toRat < 2 ^ (k + 23) := by
  have hunit : (0 : ℚ) < 2 ^ y.scale := by positivity
  have hsig : (y.significand : ℚ) < 2 ^ 24 := by exact_mod_cast y.significand_lt
  have hsign : ((if y.isNegative then -1 else 1 : ℚ)) ≤ 1 := by split <;> norm_num
  calc y.toRat
      ≤ y.significand * 2 ^ y.scale := by
        rw [toRat, mul_assoc]
        exact mul_le_of_le_one_left (by positivity) hsign
    _ < 2 ^ 24 * 2 ^ y.scale := mul_lt_mul_of_pos_right hsig hunit
    _ = 2 ^ (y.scale + 24) := by rw [zpow_add₀ two_ne_zero, mul_comm]; rfl
    _ ≤ 2 ^ (k + 23) := zpow_le_zpow_right₀ one_le_two (by omega)

/-- What was rounded to a natural in its unit was rounded to a number of the format. -/
theorem isNearest_of_rounds {x : Single} (hunit : FitsUnit k q) (hround : Rounds m (q / 2 ^ k))
    (hfinite : x.isFinite = true) (hvalue : x.toRat = m * 2 ^ k)
    (heven : m % 2 = 0 → x.significand % 2 = 0) : x.IsNearest q := by
  have hpos : (0 : ℚ) < 2 ^ k := by positivity
  -- distances are measured in the unit
  have hscaled (r : ℚ) : |r * 2 ^ k - q| = |r - q / 2 ^ k| * 2 ^ k := by
    rw [← abs_of_pos hpos, ← abs_mul, abs_of_pos hpos, sub_mul, div_mul_cancel₀ q hpos.ne']
  have hwhole (z : ℤ) : |x.toRat - q| ≤ |z * 2 ^ k - q| := by
    rw [hvalue, hscaled, hscaled]
    exact mul_le_mul_of_nonneg_right (hround.dist_le z) hpos.le
  have hbelow (y : Single) (hy : y.scale < k) : |x.toRat - q| < |y.toRat - q| := by
    have hmin : minScale ≤ y.scale := by
      unfold scale
      omega
    have hlower : (2 : ℚ) ^ (k + 23) ≤ q := hunit.lower_le.resolve_left (by omega)
    have hleast := hwhole (2 ^ 23)
    have hmiddle : (((2 : ℤ) ^ 23 : ℤ) : ℚ) * 2 ^ k = 2 ^ (k + 23) := by
      rw [zpow_add₀ two_ne_zero, mul_comm]
      push_cast
      rfl
    have hy' := toRat_lt hy
    rw [hmiddle, abs_sub_comm _ q, abs_sub_comm _ q,
      abs_of_nonneg (sub_nonneg.mpr hlower)] at hleast
    rw [abs_sub_comm _ q, abs_sub_comm _ q, abs_of_pos (a := q - y.toRat) (by linarith)]
    linarith
  refine ⟨hfinite, ?_, ?_⟩
  · intro y hy
    rcases le_or_gt k y.scale with hle | hlt
    · obtain ⟨z, hz⟩ := exists_toRat_eq hle
      rw [hz]
      exact hwhole z
    · exact (hbelow y hlt).le
  · intro y hy htie
    rcases le_or_gt k y.scale with hle | hlt
    · obtain ⟨z, hz⟩ := exists_toRat_eq hle
      rw [hz, hvalue, hscaled, hscaled] at htie
      rcases hround.even_of_tie (mul_right_cancel₀ hpos.ne' htie) with rfl | hm
      · exact .inl (by rw [hz, hvalue, Int.cast_natCast])
      · exact .inr (heven hm)
    · exact absurd htie (hbelow y hlt).ne'

/-- The natural has a bit more than a significand at most, and a bit less in no unit but the
least. -/
theorem Rounds.le_of_fitsUnit (hround : Rounds m (q / 2 ^ k)) (hunit : FitsUnit k q) :
    m ≤ 2 ^ 24 ∧ (m < 2 ^ 23 → k = minScale) := by
  have hpos : (0 : ℚ) < 2 ^ k := by positivity
  obtain ⟨hlow, hhigh⟩ := abs_le.mp hround.dist_le_half
  constructor
  · have hupper : q / 2 ^ k < 2 ^ 24 := by
      have hlt := hunit.lt_upper
      rw [zpow_add₀ two_ne_zero] at hlt
      rw [div_lt_iff₀ hpos, mul_comm]
      exact hlt
    have hlt : (m : ℚ) < (2 ^ 24 + 1 : ℕ) := by
      push_cast
      linarith
    exact Nat.lt_succ_iff.mp (by exact_mod_cast hlt)
  · intro hm
    refine hunit.lower_le.resolve_right fun hlower => ?_
    rw [zpow_add₀ two_ne_zero] at hlower
    have hmeasure : (2 : ℚ) ^ 23 ≤ q / 2 ^ k := by
      rw [le_div_iff₀ hpos, mul_comm]
      exact hlower
    have hle : (m : ℚ) + 1 ≤ 2 ^ 23 := by exact_mod_cast hm
    linarith

/-- **A quotient is rounded to the nearest number of the format**, to the even one of two, if it is
within reach. -/
theorem isNearest_ofRatio (hd : d ≠ 0) (hreach : n < d * 2 ^ 127) :
    (ofRatio n d).IsNearest (n / d) := by
  by_cases hn : n = 0
  · subst hn
    have hunit : FitsUnit minScale 0 := ⟨le_rfl, by positivity, .inl rfl⟩
    have hround : Rounds 0 (0 / 2 ^ minScale) := by constructor <;> norm_num
    obtain ⟨hfinite, hvalue, heven⟩ := ofNat_fields (m := 0) (e := 0) (by decide) (by simp)
      (by decide)
    have hzero : ofRatio 0 d = ⟨0⟩ := if_pos (.inl rfl)
    rw [hzero, Nat.cast_zero, zero_div]
    exact isNearest_of_rounds hunit hround hfinite (by simpa using hvalue) heven
  · have hunit := fitsUnit_unitExponent hn hd
    have hround := rounds_inUnits (Nat.pos_of_ne_zero hd) n (unitExponent n d)
    rw [ofRatio, if_neg (by simp [hn, hd])]
    dsimp only
    generalize unitExponent n d = k at hunit hround ⊢
    generalize inUnits n d k = m at hround ⊢
    obtain ⟨hm, hsmall⟩ := hround.le_of_fitsUnit hunit
    have hmin := hunit.minScale_le
    have hk : k ≤ 103 := by
      rcases hunit.lower_le with rfl | hlower
      · decide
      · have hquotient : (n : ℚ) / d < 2 ^ (127 : ℤ) := by
          rw [div_lt_iff₀ (by positivity), mul_comm]
          exact_mod_cast hreach
        have hpow := (zpow_lt_zpow_iff_right₀ one_lt_two).mp (hlower.trans_lt hquotient)
        omega
    have hbits : m + (k - minScale).toNat * fieldUnit < 255 * fieldUnit := by
      unfold minScale fieldUnit at *
      omega
    rw [if_pos hbits]
    obtain ⟨hfinite, hvalue, heven⟩ := ofNat_fields hm (fun hlt => by rw [hsmall hlt]; decide) hbits
    rw [Int.toNat_of_nonneg (sub_nonneg.mpr hmin), add_sub_cancel] at hvalue
    exact isNearest_of_rounds hunit hround hfinite hvalue heven

/-- What is a number of the format is rounded to itself. -/
theorem IsNearest.toRat_eq {x y : Single} (h : x.IsNearest q) (hy : y.isFinite = true)
    (hq : y.toRat = q) : x.toRat = q := by
  have hdist := h.dist_le y hy
  rw [hq, sub_self, abs_zero] at hdist
  exact sub_eq_zero.mp (abs_nonpos_iff.mp hdist)

theorem toRat_one : (⟨0x3f800000⟩ : Single).toRat = 1 := by
  have hsign : (⟨0x3f800000⟩ : Single).isNegative = false := rfl
  have hsignificand : (⟨0x3f800000⟩ : Single).significand = 2 ^ 23 := rfl
  have hscale : (⟨0x3f800000⟩ : Single).scale = -23 := rfl
  rw [toRat, hsign, hsignificand, hscale]
  norm_num

/-- The whole is rounded to one. -/
theorem toRat_ofRatio_self (hd : d ≠ 0) : (ofRatio d d).toRat = 1 := by
  have hpos : 0 < d := Nat.pos_of_ne_zero hd
  have hnearest := isNearest_ofRatio hd (lt_mul_of_one_lt_right hpos (by norm_num : 1 < 2 ^ 127))
  rw [div_self (by exact_mod_cast hd)] at hnearest
  exact hnearest.toRat_eq rfl toRat_one

end Single
end JobSandbox
