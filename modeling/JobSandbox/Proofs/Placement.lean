import JobSandbox.Proofs.Arena.Bump
import JobSandbox.Proofs.Ingestion

/-!
# Where a dataset is placed

In a fresh memory, a dataset is placed by arithmetic alone.  Its region starts at the least multiple
of the granularity from the heap base on, and its length is the least multiple that is no less than
that of the dataset.  It is there if both add up to no more than the capacity of the memory, however
many pages there are to begin with; and from then on, the arena is an ideal bump allocator.

## Main definitions

* `Granularity.request` — what is asked of the arena for a dataset.

## Main results

* `Dataset.ingest_of_fits`, `Dataset.ingest_of_empty` — what is placed, and where.
* `Dataset.ingest_of_beyond` — what is not placed, and why.
* `Dataset.exists_ready_below_limit` — what is taken in without growth, into whatever arena.
-/

namespace JobSandbox

open Address Contract

/-! ### Units -/

namespace Granularity

theorem isPowerOfTwo_unit (granularity : Granularity) : granularity.unit.isPowerOfTwo := by
  cases granularity with
  | word8 => exact ⟨3, rfl⟩
  | page => exact ⟨16, rfl⟩

theorem unit_lt (granularity : Granularity) : granularity.unit < addressSpace := by
  cases granularity <;> decide

/-- A length is rounded up to the least multiple of the unit, if that is an address. -/
theorem roundUp?_eq (granularity : Granularity) (length : ℕ) :
    granularity.roundUp? length =
      if leastMultiple granularity.unit length < addressSpace then
        some (leastMultiple granularity.unit length)
      else none :=
  alignUp?_eq granularity.isPowerOfTwo_unit granularity.unit_lt length

theorem eq_of_roundUp? {granularity : Granularity} {length rounded : ℕ}
    (h : granularity.roundUp? length = some rounded) :
    rounded = leastMultiple granularity.unit length := by
  rw [roundUp?_eq] at h
  split at h
  · exact (Option.some.inj h).symm
  · cases h

theorem le_leastMultiple (granularity : Granularity) (a : ℕ) :
    a ≤ leastMultiple granularity.unit a :=
  (isLeast_leastMultiple granularity.unit_pos a).1.1

/-- What is asked of the arena for a dataset of some length. -/
def request (granularity : Granularity) (length : ℕ) : Bump.Request where
  size := leastMultiple granularity.unit length
  align := granularity.unit
  isPowerOfTwo := granularity.isPowerOfTwo_unit
  align_lt := granularity.unit_lt

theorem size_request_ne_zero (granularity : Granularity) {length : ℕ} (h : length ≠ 0) :
    (granularity.request length).size ≠ 0 := by
  have hle := granularity.le_leastMultiple length
  show leastMultiple granularity.unit length ≠ 0
  omega

end Granularity

/-- Writing does not show in where an arena is. -/
theorem Bump.Refines.write {bump : Bump} {arena after : Arena PagedMemory} (h : bump.Refines arena)
    {region : Region} {bytes : Bytes} (hwrite : arena.write? region bytes = some after) :
    bump.Refines after := by
  obtain ⟨hmark, hlimit, hsize, hsound⟩ := Arena.of_write? hwrite
  obtain ⟨-, memory, hmemory, rfl⟩ := Arena.write?_eq_some_iff.mp hwrite
  refine ⟨hsound h.sound, ?_, hmark.trans h.mark_eq, ?_, ?_⟩
  · rw [Arena.Settled, hlimit, hsize]
    exact h.settled
  · rw [← h.pages_eq]
    exact congrArg (· / pageSize) hsize
  · rw [← h.capacity_eq]
    exact congrArg (· * pageSize) (PagedMemory.maxPages_of_write? hmemory)

namespace Dataset

variable {host : Host} {granularity : Granularity} {initialPages maxPages heapBase : ℕ}

/-- A dataset that ends below the limit of an arena is taken in, and the memory does not grow. -/
theorem exists_ready_below_limit {arena : Arena PagedMemory} (hne : host.announced ≠ 0)
    (hlimit : arena.limit ≤ arena.memory.size)
    (hroom : arena.targetStop (leastMultiple granularity.unit host.announced) granularity.unit ≤
      arena.limit)
    (hspace : arena.targetStop (leastMultiple granularity.unit host.announced) granularity.unit <
      addressSpace) :
    ∃ dataset host' after, ingest host arena granularity = (.ready dataset, host', after) := by
  have hround : granularity.roundUp? host.announced =
      some (leastMultiple granularity.unit host.announced) := by
    rw [granularity.roundUp?_eq, if_pos (lt_of_le_of_lt (Nat.le_add_left _ _) hspace)]
  exact exists_ready hround (Arena.allocate_of_room granularity.isPowerOfTwo_unit
    granularity.unit_lt (granularity.size_request_ne_zero hne) hroom hspace)
    (hroom.trans hlimit)

/-- The length of what was taken in is an address. -/
theorem announced_lt_of_ingest {host' : Host} {arena after : Arena PagedMemory}
    {dataset : Dataset} (h : ingest host arena granularity = (.ready dataset, host', after)) :
    host.announced < addressSpace := by
  obtain ⟨-, -, hround, -⟩ := ingest_eq_ready h
  have hle := granularity.le_leastMultiple host.announced
  rw [granularity.roundUp?_eq] at hround
  split at hround
  · next hlt => exact hle.trans_lt hlt
  · cases hround

/-- From a fresh memory, the request for a dataset is answered as by the ideal. -/
theorem answersAs_request (hcap : maxPages * pageSize < addressSpace) (initialPages heapBase : ℕ)
    (granularity : Granularity) (length : ℕ) :
    (Bump.start initialPages maxPages heapBase).AnswersAs (granularity.request length)
      (.ofMemory (.ofPages initialPages maxPages heapBase))
      ((Arena.ofMemory (PagedMemory.ofPages initialPages maxPages heapBase)).allocate
        (leastMultiple granularity.unit length) granularity.unit) :=
  (Bump.refines_start initialPages maxPages heapBase).allocate hcap (granularity.request length)

/-- A dataset of some bytes is never out of range. -/
theorem fst_ingest_ne_outOfRange (hne : host.announced ≠ 0) :
    (ingest host (.ofMemory (.ofPages initialPages maxPages heapBase)) granularity).1 ≠
      .outOfRange := by
  intro hrange
  have hsound : (Arena.ofMemory (PagedMemory.ofPages initialPages maxPages heapBase)).Sound :=
    Arena.sound_ofMemory (PagedMemory.wellFormed_ofPages initialPages maxPages heapBase)
  have hempty := (fst_ingest_eq_outOfRange_iff hsound).mp hrange
  exact hne hempty.1

/-- **A dataset that fits is placed at the least multiple of the granularity.**  The memory has
pages up to its end, and was asked for them at most once.  Behind it, the arena goes on as the
ideal. -/
theorem ingest_of_fits (hcap : maxPages * pageSize < addressSpace) (hne : host.announced ≠ 0)
    (hfits : leastMultiple granularity.unit heapBase +
      leastMultiple granularity.unit host.announced ≤ maxPages * pageSize) (initialPages : ℕ) :
    ∃ (after : Arena PagedMemory) (bump : Bump),
      ingest host (.ofMemory (.ofPages initialPages maxPages heapBase)) granularity =
        (.ready ⟨⟨leastMultiple granularity.unit heapBase,
            leastMultiple granularity.unit host.announced⟩, host.announced⟩,
          host.hearAll [.datasetLen host.dataset.length, .datasetWrite host.announced], after) ∧
      bump.Refines after ∧
      bump.mark = leastMultiple granularity.unit heapBase +
        leastMultiple granularity.unit host.announced ∧
      bump.capacity = maxPages * pageSize ∧
      bump.pages = max (min initialPages maxPages)
        (pagesFor (leastMultiple granularity.unit heapBase +
          leastMultiple granularity.unit host.announced)) ∧
      after.memory.heapBase = heapBase ∧
      after.memory.growCalls =
        if min initialPages maxPages * pageSize < leastMultiple granularity.unit heapBase +
          leastMultiple granularity.unit host.announced then 1 else 0 := by
  have hsize := granularity.size_request_ne_zero hne
  have hpages : (Bump.start initialPages maxPages heapBase).pages = min initialPages maxPages := by
    rw [Bump.pages, Bump.start, zero_ceilDiv, Nat.max_zero]
  have hserved := answersAs_request hcap initialPages heapBase granularity host.announced
  have hround : granularity.roundUp? host.announced =
      some (leastMultiple granularity.unit host.announced) := by
    rw [granularity.roundUp?_eq, if_pos (by omega)]
  have hanswer : (Bump.start initialPages maxPages heapBase).answer
      (granularity.request host.announced) =
        .ok ⟨leastMultiple granularity.unit heapBase,
          leastMultiple granularity.unit host.announced⟩ :=
    Bump.answer_of_fits hcap hsize hfits
  have hin : (ingest host (.ofMemory (.ofPages initialPages maxPages heapBase)) granularity).1 ≠
      .outOfRange := fst_ingest_ne_outOfRange hne
  have hout := ingest_ingested host (.ofMemory (.ofPages initialPages maxPages heapBase))
    granularity
  generalize ingest host (.ofMemory (.ofPages initialPages maxPages heapBase)) granularity = out
    at hout hin ⊢
  cases hout with
  | tooLong hnone =>
    rw [hround] at hnone
    cases hnone
  | refused hrounded hallocate =>
    -- the ideal has room, and the arena answers as the ideal
    rw [← Granularity.eq_of_roundUp? hrounded, hallocate] at hserved
    cases hserved.answer_eq.trans hanswer
  | outOfRange => exact absurd rfl hin
  | @ready region middle after destination hrounded hallocate hread hwrite =>
    rw [← Granularity.eq_of_roundUp? hrounded, hallocate] at hserved
    cases hserved.answer_eq.trans hanswer
    have hsound : (Arena.ofMemory (PagedMemory.ofPages initialPages maxPages heapBase)).Sound :=
      Arena.sound_ofMemory (PagedMemory.wellFormed_ofPages initialPages maxPages heapBase)
    have hadvanced := Arena.advanced_allocate hsound
      (leastMultiple granularity.unit host.announced) granularity.unit
    rw [hallocate] at hadvanced
    refine ⟨after, _, rfl, hserved.refines.write hwrite, ?_, ?_, ?_, ?_, ?_⟩
    · exact Bump.mark_next_of_fits hcap hsize hfits
    · exact (Bump.next_setting _ _).2
    · rw [Bump.next_of_ok hanswer, Bump.pages_handOut _ hsize, hpages]
      rfl
    · exact (Arena.heapBase_of_write? hwrite).trans hadvanced.heapBase_eq
    · have hgrows : (Bump.start initialPages maxPages heapBase).Grows
          (granularity.request host.announced) ↔
            min initialPages maxPages * pageSize < leastMultiple granularity.unit heapBase +
              leastMultiple granularity.unit host.announced := by
        rw [Bump.Grows, hpages]
        exact ⟨fun h => h.2.2, fun h => ⟨hsize, hfits.trans_lt hcap, h⟩⟩
      rw [Arena.growCalls_of_write? hwrite, hserved.growCalls_eq]
      simp only [hgrows]
      exact Nat.zero_add _

/-- **A dataset of no bytes takes none**, and lies where the heap starts. -/
theorem ingest_of_empty (granularity : Granularity) (hempty : host.announced = 0)
    (hbase : heapBase ≤ (PagedMemory.ofPages initialPages maxPages heapBase).size) :
    ∃ after,
      ingest host (.ofMemory (.ofPages initialPages maxPages heapBase)) granularity =
        (.ready ⟨⟨heapBase, 0⟩, 0⟩,
          host.hearAll [.datasetLen host.dataset.length, .datasetWrite 0], after) ∧
      (Bump.start initialPages maxPages heapBase).Refines after := by
  have hout := ingest_ingested host (.ofMemory (.ofPages initialPages maxPages heapBase))
    granularity
  have hready := (ingest_of_announced_eq_zero (.ofMemory (.ofPages initialPages maxPages heapBase))
    granularity hempty).1
  rw [if_neg (Nat.not_lt.mpr (show (Arena.ofMemory _).mark ≤ _ from hbase))] at hready
  generalize ingest host (.ofMemory (.ofPages initialPages maxPages heapBase)) granularity = out
    at hout hready ⊢
  cases hout with
  | tooLong => cases hready
  | refused => cases hready
  | outOfRange => cases hready
  | @ready region middle after destination hround hallocate hread hwrite =>
    rw [allocate_of_announced_eq_zero hempty hround] at hallocate
    cases hallocate
    rw [hempty]
    exact ⟨after, rfl, (Bump.refines_start initialPages maxPages heapBase).write hwrite⟩

/-- **A dataset that does not fit is not placed.**  The error tells whether it would end behind the
address space, or only behind the memory. -/
theorem ingest_of_beyond (hcap : maxPages * pageSize < addressSpace) (hne : host.announced ≠ 0)
    (hbeyond : maxPages * pageSize < leastMultiple granularity.unit heapBase +
      leastMultiple granularity.unit host.announced) (initialPages : ℕ) :
    ∃ error after,
      ingest host (.ofMemory (.ofPages initialPages maxPages heapBase)) granularity =
        (.refused error, host.hear (.datasetLen host.dataset.length), after) ∧
      error.trapCode =
        if addressSpace ≤ leastMultiple granularity.unit heapBase +
            leastMultiple granularity.unit host.announced then trapAddressOverflow
        else trapOutOfMemory := by
  have hsize := granularity.size_request_ne_zero hne
  have hserved := answersAs_request hcap initialPages heapBase granularity host.announced
  obtain ⟨error, hanswer, hcode⟩ : ∃ error,
      (Bump.start initialPages maxPages heapBase).answer (granularity.request host.announced) =
        .error error ∧
      error.trapCode =
        if addressSpace ≤ leastMultiple granularity.unit heapBase +
            leastMultiple granularity.unit host.announced then trapAddressOverflow
        else trapOutOfMemory :=
    Bump.exists_answer_of_beyond hsize hbeyond
  have hin : (ingest host (.ofMemory (.ofPages initialPages maxPages heapBase)) granularity).1 ≠
      .outOfRange := fst_ingest_ne_outOfRange hne
  have hout := ingest_ingested host (.ofMemory (.ofPages initialPages maxPages heapBase))
    granularity
  generalize ingest host (.ofMemory (.ofPages initialPages maxPages heapBase)) granularity = out
    at hout hin ⊢
  cases hout with
  | tooLong hnone =>
    -- the length alone, rounded up, is behind the address space
    have hfar : addressSpace ≤ leastMultiple granularity.unit host.announced := by
      by_contra hlt
      rw [granularity.roundUp?_eq, if_pos (Nat.lt_of_not_le hlt)] at hnone
      cases hnone
    refine ⟨_, _, rfl, ?_⟩
    rw [if_pos (hfar.trans (Nat.le_add_left _ _))]
    rfl
  | @refused rounded error' after hrounded hallocate =>
    rw [← Granularity.eq_of_roundUp? hrounded, hallocate] at hserved
    cases hserved.answer_eq.trans hanswer
    exact ⟨error, _, rfl, hcode⟩
  | outOfRange => exact absurd rfl hin
  | ready hrounded hallocate =>
    rw [← Granularity.eq_of_roundUp? hrounded, hallocate] at hserved
    cases hserved.answer_eq.trans hanswer

end Dataset
end JobSandbox
