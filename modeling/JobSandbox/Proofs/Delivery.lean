import JobSandbox.Proofs.Arena.History
import JobSandbox.Proofs.Placement

/-!
# What a dataset leaves behind

Taking in a dataset may find an arena in any state: with regions handed out before, in a memory that
others have grown, and a host that announces a length which is not that of its dataset.  Whatever it
finds, it writes the bytes that the host has, as far as it announced them, and no others; and if it
is refused, it writes none.

Growth is all that comes before the host's write, and growth only puts zeros behind the memory.  So
the bytes behind the write are those before the request, outside of the range that was written.

## Main definitions

* `PagedMemory.KeptOutside` — two memories that differ in one range at most.
* `Dataset.Delivered` — what a dataset is, and what has become of host and memory, once it is there.
* `Dataset.TurnedDown` — what has become of them if there is no memory for it.

## Main results

* `Dataset.delivered_of_ingest`, `Dataset.turnedDown_of_ingest` — one lemma per outcome.
* `Dataset.delivered_or_turnedDown` — **both, for every arena and every host.**
-/

namespace JobSandbox

open Address Contract

/-! ### Memory but for one range -/

/-- Every byte of a memory is still there, unless its address is in `range`. -/
def PagedMemory.KeptOutside (memory : PagedMemory) (range : Set ℕ) (later : PagedMemory) : Prop :=
  ∀ a < memory.size, a ∉ range → later.bytes[a]? = memory.bytes[a]?

theorem PagedMemory.GrownFrom.keptOutside {memory later : PagedMemory}
    (h : memory.GrownFrom later) (range : Set ℕ) : memory.KeptOutside range later :=
  fun _ ha _ => h.getElem?_bytes ha

/-- Bytes put over the front of a region keep all others, those behind them in the region too. -/
theorem Arena.keptOutside_of_overwrite {arena after : Arena PagedMemory} {region : Region}
    {bytes content : Bytes} (hread : arena.read? region = some content)
    (hwrite : arena.write? region (content.overwrite bytes) = some after) :
    arena.memory.KeptOutside
      (Set.Ico region.offset (region.offset + min region.length bytes.length)) after.memory := by
  intro a _ hout
  obtain ⟨-, hlength, hcontent⟩ := PagedMemory.read?_eq_some_iff.mp hread
  rw [Arena.getElem?_bytes_of_write? hwrite, Bytes.length_overwrite, hlength, Nat.min_self]
  split
  · next hin =>
    -- inside the region, but behind the bytes: the content is put back where it was
    have hbehind : ¬a - region.offset < bytes.length := by
      rw [Set.mem_Ico] at hout
      omega
    rw [Bytes.getElem?_overwrite _ _ (by omega), if_neg hbehind, ← hcontent _ (by omega),
      Nat.add_sub_cancel' hin.1]
  · rfl

namespace Dataset

variable {host host' : Host} {arena after : Arena PagedMemory} {granularity : Granularity}
  {dataset : Dataset} {error : AllocError}

/-! ### A dataset that is there -/

/-- What holds once the dataset of a host has been taken into an arena. -/
structure Delivered (host : Host) (arena : Arena PagedMemory) (granularity : Granularity)
    (dataset : Dataset) (host' : Host) (after : Arena PagedMemory) : Prop where
  length_eq : dataset.length = host.announced
  isLeast_allocatedLength :
    IsLeast {n | host.announced ≤ n ∧ granularity.unit ∣ n} dataset.allocatedLength
  dvd_offset : host.announced ≠ 0 → granularity.unit ∣ dataset.region.offset
  calls_eq : host'.calls =
    host.calls ++ [.datasetLen host.dataset.length, .datasetWrite host.announced]
  /-- The dataset can be read, and starts with what the host has of it. -/
  front : ∃ bytes, dataset.read? after = some bytes ∧ bytes.length = host.announced ∧
    bytes.take (min host.announced host.dataset.length) =
      host.dataset.take (min host.announced host.dataset.length)
  /-- No other byte has changed. -/
  kept : arena.memory.KeptOutside (Set.Ico dataset.region.offset
    (dataset.region.offset + min host.announced host.dataset.length)) after.memory

/-- A dataset of some bytes starts at a multiple of the granularity. -/
theorem dvd_offset_of_allocate {length : ℕ} {region : Region} {middle : Arena PagedMemory}
    (hround : granularity.roundUp? length = some region.length)
    (hallocate : arena.allocate region.length granularity.unit = (.ok region, middle))
    (hne : length ≠ 0) : granularity.unit ∣ region.offset := by
  have hroom : length ≤ region.length := le_of_alignUp? hround
  exact Arena.dvd_offset_of_allocate_ok granularity.isPowerOfTwo_unit granularity.unit_lt
    (by omega) (congrArg Prod.fst hallocate)

/-- **A dataset that was taken in has been delivered**, whatever the arena has been through. -/
theorem delivered_of_ingest (h : ingest host arena granularity = (.ready dataset, host', after)) :
    Delivered host arena granularity dataset host' after := by
  obtain ⟨hhost, -⟩ := of_ingest_eq_ready h
  obtain ⟨middle, destination, hround, hallocate, hlength, hread, hwrite⟩ := ingest_eq_ready h
  have hview : dataset.view = ⟨dataset.region.offset, host.announced⟩ := by
    rw [view_of_roundUp? (hlength ▸ hround), hlength]
  rw [read?, hview] at hread
  rw [hview] at hwrite
  have hdestination : destination.length = host.announced := PagedMemory.length_of_read? hread
  have hgrown := Arena.grownFrom_allocate arena dataset.region.length granularity.unit
  rw [hallocate] at hgrown
  refine ⟨hlength, ?_, dvd_offset_of_allocate hround hallocate, ?_, ?_, ?_⟩
  · rw [allocatedLength, Granularity.eq_of_roundUp? hround]
    exact isLeast_leastMultiple granularity.unit_pos host.announced
  · rw [hhost, Host.calls_hearAll]
  · refine ⟨destination.overwrite host.dataset, ?_, ?_, ?_⟩
    · rw [read?, hview, Arena.read?_of_write? hwrite hread,
        Bytes.overwrite_of_length_eq (Bytes.length_overwrite _ _)]
    · rw [Bytes.length_overwrite, hdestination]
    · rw [← hdestination]
      exact Bytes.take_overwrite destination host.dataset
  · intro a ha hout
    rw [Arena.keptOutside_of_overwrite hread hwrite a (ha.trans_le hgrown.size_le) hout]
    exact hgrown.getElem?_bytes ha

/-! ### A dataset that is not -/

/-- What holds once there turned out to be no memory for the dataset of a host. -/
structure TurnedDown (host : Host) (arena : Arena PagedMemory) (host' : Host)
    (after : Arena PagedMemory) : Prop where
  calls_eq : host'.calls = host.calls ++ [.datasetLen host.dataset.length]
  kept : arena.memory.KeptOutside ∅ after.memory

/-- **A dataset that was refused leaves every byte in place**, and its host has been asked for the
length only. -/
theorem turnedDown_of_ingest
    (h : ingest host arena granularity = (.refused error, host', after)) :
    TurnedDown host arena host' after := by
  have hcalls : (host.hear (.datasetLen host.dataset.length)).calls =
      host.calls ++ [.datasetLen host.dataset.length] := rfl
  have hout := ingest_ingested host arena granularity
  rw [h] at hout
  cases hout with
  | tooLong => exact ⟨hcalls, (PagedMemory.GrownFrom.refl _).keptOutside ∅⟩
  | @refused rounded _ _ hround hallocate =>
    have hgrown := Arena.grownFrom_allocate arena rounded granularity.unit
    rw [hallocate] at hgrown
    exact ⟨hcalls, hgrown.keptOutside ∅⟩

/-! ### Both -/

/-- **What taking in a dataset does, in success and in failure.**  The arena may be in any state,
and the host may announce any length. -/
theorem delivered_or_turnedDown (host : Host) (arena : Arena PagedMemory)
    (granularity : Granularity) :
    (∀ dataset host' after, ingest host arena granularity = (.ready dataset, host', after) →
      Delivered host arena granularity dataset host' after) ∧
    (∀ error host' after, ingest host arena granularity = (.refused error, host', after) →
      TurnedDown host arena host' after) := by
  constructor
  · intro dataset host' after hready
    exact delivered_of_ingest hready
  · intro error host' after hrefused
    exact turnedDown_of_ingest hrefused

/-- A length that cannot be rounded up is refused. -/
theorem exists_refused_of_roundUp? (arena : Arena PagedMemory)
    (h : granularity.roundUp? host.announced = none) :
    ∃ error host' after, ingest host arena granularity = (.refused error, host', after) := by
  have hout := ingest_ingested host arena granularity
  generalize ingest host arena granularity = out at hout ⊢
  cases hout with
  | tooLong => exact ⟨_, _, _, rfl⟩
  | refused hround => cases h.symm.trans hround
  | outOfRange hround => cases h.symm.trans hround
  | ready hround => cases h.symm.trans hround

/-- Where an arena is after a request for ten bytes and a growth that it did not ask for. -/
theorem mark_limit_of_request {memory : PagedMemory} (hbase : memory.heapBase = 1024)
    (hsize : memory.size = 1 * pageSize) :
    ((History.start memory).run [.request 10 8, .growth 1]).arena.mark = 1034 ∧
      ((History.start memory).run [.request 10 8, .growth 1]).arena.limit = 1 * pageSize := by
  have hmark : (History.start memory).arena.mark = 1024 := hbase
  have hlimit : (History.start memory).arena.limit = 1 * pageSize := hsize
  have hgrowth (history : History PagedMemory) : (history.next (.growth 1)).arena =
      ⟨(history.arena.memory.grow 1).2, history.arena.mark, history.arena.limit⟩ := rfl
  rw [History.run_cons, History.run_cons, History.run_nil, hgrowth, History.arena_next_request]
  generalize (History.start memory).arena = arena at hmark hlimit ⊢
  have hstop : arena.targetStop 10 8 = 1034 := by
    rw [Arena.targetStop, hmark, leastMultiple_of_dvd (by decide) (by decide)]
  rw [Arena.allocate_of_room ⟨3, rfl⟩ (by decide) (by decide) (by rw [hstop, hlimit]; decide)
    (by rw [hstop]; decide)]
  exact ⟨hstop, hlimit⟩

/-- An arena with an earlier request, in a memory that others have grown: it takes in a dataset that
is shorter than it was announced, and turns down one whose length cannot be rounded up. -/
theorem delivered_or_turnedDown_behind_request :
    let arena := ((History.start (PagedMemory.ofPages 1 3 1024)).run
      [.request 10 8, .growth 1]).arena
    let short : Host := { dataset := [1, 2, 3], announced := 5 }
    let long : Host := { dataset := [1, 2, 3], announced := addressSpace - 1 }
    (∃ dataset host' after, ingest short arena .word8 = (.ready dataset, host', after) ∧
      Delivered short arena .word8 dataset host' after) ∧
    ∃ error host' after, ingest long arena .word8 = (.refused error, host', after) ∧
      TurnedDown long arena host' after := by
  intro arena short long
  have hsound : arena.Sound := (History.sound_run_start 1 3 1024 _).1
  obtain ⟨hmark, hlimit⟩ : arena.mark = 1034 ∧ arena.limit = 1 * pageSize :=
    mark_limit_of_request rfl (PagedMemory.size_ofPages 1 3 1024)
  have hstop : arena.targetStop (leastMultiple Granularity.word8.unit short.announced)
      Granularity.word8.unit = 1048 := by
    rw [Arena.targetStop, hmark]
    decide
  obtain ⟨dataset, host', after, hready⟩ := exists_ready_below_limit
    (show short.announced ≠ 0 by decide) hsound.limit_le (by rw [hstop, hlimit]; decide)
    (by rw [hstop]; decide)
  obtain ⟨error, host'', later, hrefused⟩ := exists_refused_of_roundUp? arena
    (show Granularity.word8.roundUp? long.announced = none by decide)
  obtain ⟨hdelivered, -⟩ := delivered_or_turnedDown short arena .word8
  obtain ⟨-, hturnedDown⟩ := delivered_or_turnedDown long arena .word8
  exact ⟨⟨dataset, host', after, hready, hdelivered _ _ _ hready⟩,
    error, host'', later, hrefused, hturnedDown _ _ _ hrefused⟩

end Dataset
end JobSandbox
