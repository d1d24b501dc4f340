import JobSandbox.Proofs.Dataset

/-!
# Datasets out of range

The access to the region of a dataset fails in one case only.  A dataset of no bytes asks for no
memory, so nothing makes the memory grow up to the mark; and if the mark lies past the end of the
memory, the empty region at the mark does too.

## Main results

* `Dataset.fst_ingest_eq_outOfRange_iff` — **only an empty dataset behind the end of the memory is
  out of range.**
* `Dataset.ingest_fresh_outOfRange_iff` — the same from a fresh memory, and what comes of an empty
  dataset otherwise.
-/

namespace JobSandbox

/-- Nothing is rounded to nothing. -/
theorem Granularity.roundUp?_zero (granularity : Granularity) :
    granularity.roundUp? 0 = some 0 := by
  cases granularity <;> decide

namespace Dataset

variable {host : Host} {arena : Arena PagedMemory} {granularity : Granularity}

/-- What was handed out lies inside the memory, unless it is nothing and the mark is past the
end. -/
theorem stop_le_of_allocate (h : arena.Sound) {size align : ℕ} {region : Region}
    {after : Arena PagedMemory} (hallocate : arena.allocate size align = (.ok region, after))
    (hsize : size ≠ 0) : region.stop ≤ after.memory.size := by
  have hadvanced := Arena.advanced_allocate h size align
  obtain ⟨-, -, -, hlimit⟩ := Arena.of_allocate_ok (congrArg Prod.fst hallocate)
  rw [hallocate] at hadvanced hlimit
  exact (hlimit hsize).trans hadvanced.sound.limit_le

/-- A dataset of no bytes asks for the empty region at the mark, which costs nothing. -/
theorem allocate_of_announced_eq_zero (hempty : host.announced = 0) {rounded : ℕ}
    (hround : granularity.roundUp? host.announced = some rounded) :
    arena.allocate rounded granularity.unit = (.ok ⟨arena.mark, 0⟩, arena) := by
  rw [hempty, granularity.roundUp?_zero] at hround
  cases hround
  exact arena.allocate_zero granularity.unit

/-- **An empty dataset is taken in without growth**, if the mark does not lie past the end of the
memory. -/
theorem ingest_of_announced_eq_zero (arena : Arena PagedMemory) (granularity : Granularity)
    (hempty : host.announced = 0) :
    (ingest host arena granularity).1 =
        (if arena.memory.size < arena.mark then .outOfRange
          else .ready ⟨⟨arena.mark, 0⟩, 0⟩) ∧
      (ingest host arena granularity).2.2.memory.growCalls = arena.memory.growCalls := by
  have hout := ingest_ingested host arena granularity
  generalize ingest host arena granularity = out at hout ⊢
  cases hout with
  | tooLong hround =>
    rw [hempty, granularity.roundUp?_zero] at hround
    cases hround
  | refused hround hallocate =>
    rw [allocate_of_announced_eq_zero hempty hround] at hallocate
    cases hallocate
  | outOfRange hround hallocate hbeyond =>
    rw [allocate_of_announced_eq_zero hempty hround] at hallocate
    cases hallocate
    rw [hempty, Nat.add_zero] at hbeyond
    exact ⟨(if_pos hbeyond).symm, rfl⟩
  | @ready region middle after destination hround hallocate hread hwrite =>
    rw [allocate_of_announced_eq_zero hempty hround] at hallocate
    cases hallocate
    have hin := Arena.read?_isSome_iff.mp (Option.isSome_of_eq_some hread)
    have hstop : arena.mark + host.announced ≤ arena.memory.size := hin
    refine ⟨?_, Arena.growCalls_of_write? hwrite⟩
    rw [if_neg (by omega), hempty]

/-- **Taking in a dataset is out of range only if the dataset is empty and the mark lies past the
end of the memory.** -/
theorem fst_ingest_eq_outOfRange_iff (h : arena.Sound) :
    (ingest host arena granularity).1 = .outOfRange ↔
      host.announced = 0 ∧ arena.memory.size < arena.mark := by
  constructor
  · intro hrange
    have hempty : host.announced = 0 := by
      have hout := ingest_ingested host arena granularity
      generalize ingest host arena granularity = out at hout hrange
      cases hout with
      | @outOfRange region after hround hallocate hbeyond =>
        by_contra hne
        have hroom : host.announced ≤ region.length := Address.le_of_alignUp? hround
        have hinside := stop_le_of_allocate h hallocate (by omega)
        have hstop : region.stop = region.offset + region.length := rfl
        omega
      | tooLong => cases hrange
      | refused => cases hrange
      | ready => cases hrange
    refine ⟨hempty, ?_⟩
    rw [(ingest_of_announced_eq_zero arena granularity hempty).1] at hrange
    by_contra hle
    rw [if_neg hle] at hrange
    cases hrange
  · rintro ⟨hempty, hlt⟩
    rw [(ingest_of_announced_eq_zero arena granularity hempty).1, if_pos hlt]

/-! ### From a fresh memory -/

/-- **From a fresh memory, taking in a dataset is out of range exactly if the dataset is empty and
the heap starts past the end of the memory**; in all other cases there is a dataset, or an error
that says why there is no memory for it.  Where the heap starts inside the memory, an empty dataset
is always taken in: with an empty region, and without asking the memory to grow. -/
theorem ingest_fresh_outOfRange_iff (host : Host) (granularity : Granularity)
    (initialPages maxPages heapBase : ℕ) :
    let memory := PagedMemory.ofPages initialPages maxPages heapBase
    let out := ingest host (.ofMemory memory) granularity
    (out.1 = .outOfRange ↔ host.announced = 0 ∧ memory.size < heapBase) ∧
      (host.announced = 0 → heapBase ≤ memory.size →
        ∃ dataset, out.1 = .ready dataset ∧ dataset.length = 0 ∧ dataset.allocatedLength = 0 ∧
          out.2.2.memory.growCalls = 0) := by
  intro memory out
  have hsound : (Arena.ofMemory memory).Sound :=
    Arena.sound_ofMemory (PagedMemory.wellFormed_ofPages initialPages maxPages heapBase)
  refine ⟨fst_ingest_eq_outOfRange_iff hsound, ?_⟩
  intro hempty hbase
  obtain ⟨hending, hcalls⟩ := ingest_of_announced_eq_zero (.ofMemory memory) granularity hempty
  have hmark : (Arena.ofMemory memory).mark = heapBase := rfl
  have hsize : (Arena.ofMemory memory).memory.size = memory.size := rfl
  rw [hmark, hsize, if_neg (by omega)] at hending
  exact ⟨⟨⟨heapBase, 0⟩, 0⟩, hending, rfl, rfl, hcalls⟩

/-- An empty dataset in the standard memory. -/
theorem ingest_fresh_of_empty_dataset :
    1024 ≤ (PagedMemory.ofPages 1 256 1024).size ∧
      ∃ dataset,
        (ingest { dataset := [] } (.ofMemory (.ofPages 1 256 1024)) .page).1 = .ready dataset ∧
          dataset.length = 0 ∧ dataset.allocatedLength = 0 ∧
          (ingest { dataset := [] } (.ofMemory (.ofPages 1 256 1024)) .page).2.2.memory.growCalls =
            0 := by
  have hbase : 1024 ≤ (PagedMemory.ofPages 1 256 1024).size := by
    rw [PagedMemory.size_ofPages]
    decide
  have hfresh := (ingest_fresh_outOfRange_iff { dataset := [] } .page 1 256 1024).2
  exact ⟨hbase, hfresh rfl hbase⟩

/-- A heap that starts one byte past the first page, and nothing to put there. -/
theorem exists_ingest_outOfRange :
    ∃ (host : Host) (granularity : Granularity) (initialPages maxPages heapBase : ℕ),
      maxPages * Contract.pageSize < Address.addressSpace ∧ heapBase < Address.addressSpace ∧
        (ingest host (.ofMemory (.ofPages initialPages maxPages heapBase)) granularity).1 =
          .outOfRange := by
  refine ⟨{ dataset := [] }, .page, 1, 4, 65537, by decide, by decide, ?_⟩
  have hsound : (Arena.ofMemory (PagedMemory.ofPages 1 4 65537)).Sound :=
    Arena.sound_ofMemory (PagedMemory.wellFormed_ofPages 1 4 65537)
  have hsize : (PagedMemory.ofPages 1 4 65537).size < 65537 := by
    rw [PagedMemory.size_ofPages]
    decide
  exact (fst_ingest_eq_outOfRange_iff hsound).mpr ⟨rfl, hsize⟩

end Dataset
end JobSandbox
