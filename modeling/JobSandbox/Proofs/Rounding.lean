import JobSandbox.Proofs.Placement

/-!
# Rounding up at the top of the address space

Rounding with a mask goes through a sum, which may leave the address space, and ends at a multiple,
which may lie beyond it too.  For a power of two these are the same addresses: the space itself is a
multiple, so what is added on the way to the next one never passes it.  Rounding has no value only
where there is nothing to round to, and so it loses neither order nor what is rounded already.

## Main definitions

* `Address.RoundsUp` — rounding to the least multiple, as far as multiples are addresses.

## Main results

* `Address.roundsUp_of_eq` — rounding by division does so,
* `Address.roundsUp_by_mask` — **and rounding by mask, for all powers of two and for the units of
  datasets.**
-/

namespace JobSandbox
namespace Address

/-- Rounding up to the multiples of a unit, as far as these are addresses. -/
structure RoundsUp (unit : ℕ) (round : ℕ → Option ℕ) : Prop where
  /-- The value is the least multiple that is not below, if that is an address. -/
  some_iff : ∀ a b, round a = some b ↔ IsLeast {n | a ≤ n ∧ unit ∣ n} b ∧ b < addressSpace
  /-- There is no value exactly if all multiples that are not below are too large. -/
  none_iff : ∀ a, round a = none ↔ ∀ n, a ≤ n → unit ∣ n → addressSpace ≤ n
  /-- A value stays as it is when it is rounded again. -/
  idem : ∀ a b, round a = some b → round b = some b
  /-- What is below something that can be rounded is rounded to no more than that. -/
  mono : ∀ a b c, a ≤ b → round b = some c → ∃ d ≤ c, round a = some d

section Division

variable {unit : ℕ} {round : ℕ → Option ℕ} {a b : ℕ}

theorem leastMultiple_mono (hunit : 0 < unit) (h : a ≤ b) :
    leastMultiple unit a ≤ leastMultiple unit b := by
  obtain ⟨hle, hdvd⟩ := (isLeast_leastMultiple hunit b).1
  exact (isLeast_leastMultiple hunit a).2 ⟨h.trans hle, hdvd⟩

/-- Rounding by division is rounding up. -/
theorem roundsUp_of_eq (hunit : 0 < unit)
    (hround : ∀ a, round a =
      if leastMultiple unit a < addressSpace then some (leastMultiple unit a) else none) :
    RoundsUp unit round := by
  have hleast := isLeast_leastMultiple hunit
  have hsome (a b : ℕ) : round a = some b ↔ leastMultiple unit a = b ∧ b < addressSpace := by
    rw [hround]
    split <;> simp <;> omega
  have hnone (a : ℕ) : round a = none ↔ addressSpace ≤ leastMultiple unit a := by
    rw [hround]
    split <;> simp <;> omega
  refine ⟨fun a b => ?_, fun a => ?_, fun a b h => ?_, fun a b c hab h => ?_⟩
  · rw [hsome]
    refine and_congr_left fun _ => ⟨?_, (hleast a).unique⟩
    rintro rfl
    exact hleast a
  · rw [hnone]
    constructor
    · intro hbeyond n han hdvd
      exact hbeyond.trans ((hleast a).2 ⟨han, hdvd⟩)
    · intro hbeyond
      exact hbeyond _ (hleast a).1.1 (hleast a).1.2
  · obtain ⟨rfl, hlt⟩ := (hsome a b).mp h
    exact (hsome _ _).mpr ⟨leastMultiple_of_dvd hunit (hleast a).1.2, hlt⟩
  · obtain ⟨rfl, hlt⟩ := (hsome b c).mp h
    have hle := leastMultiple_mono hunit hab
    exact ⟨_, hle, (hsome a _).mpr ⟨rfl, hle.trans_lt hlt⟩⟩

end Division

/-- **Rounding by mask is exact up to the top of the address space**: for every power of two below
it, and for both units of datasets, the value is the least multiple that is not below, there is none
only if that multiple is no address, what is rounded stays as it is, and the order is kept. -/
theorem roundsUp_by_mask :
    (∀ k ≤ 63, RoundsUp (2 ^ k) fun a => alignUp? a (2 ^ k)) ∧
      ∀ granularity : Granularity, RoundsUp granularity.unit granularity.roundUp? := by
  constructor
  · intro k hk
    have hlt : 2 ^ k < addressSpace := by
      rw [addressSpace_eq]
      exact Nat.pow_lt_pow_right (by decide) (by omega)
    exact roundsUp_of_eq (Nat.two_pow_pos k) (alignUp?_eq ⟨k, rfl⟩ hlt)
  · intro granularity
    exact roundsUp_of_eq granularity.unit_pos granularity.roundUp?_eq

/-- The largest unit has two multiples: halfway up the address space an address is rounded to
itself, and one further up there is nothing left to round to. -/
theorem roundsUp_by_mask_of_half :
    63 ≤ 63 ∧ alignUp? (2 ^ 63) (2 ^ 63) = some (2 ^ 63) ∧
      alignUp? (2 ^ 63 + 1) (2 ^ 63) = none := by
  obtain ⟨hpowers, -⟩ := roundsUp_by_mask
  have hhalf := hpowers 63 le_rfl
  refine ⟨le_rfl, (hhalf.some_iff _ _).mpr ⟨⟨⟨le_rfl, dvd_rfl⟩, fun n hn => hn.1⟩, by decide⟩,
    (hhalf.none_iff _).mpr ?_⟩
  rintro n hn ⟨q, rfl⟩
  unfold addressSpace
  omega

end Address
end JobSandbox
