import JobSandbox.Dataset
import JobSandbox.Proofs.Arena.Access
import JobSandbox.Proofs.Host

/-!
# How a dataset is taken in

Taking in a dataset asks the host for a length, the arena for memory, and the host for the bytes.
It can end at each of these points, and `Ingested` lists how.  The host has heard one call or two,
and it has heard the second one only if the dataset is there.

When it succeeds, the host has written its dataset over the front of a region.  In a fresh memory
that makes the dataset of the host, as far as its length was announced, and zeros for what is
missing.

## Main definitions

* `Host.visible` — a dataset as a job sees it.
* `Dataset.Ingested` — the ways in which taking in a dataset can end.

## Main results

* `Dataset.ingest_ingested` — **these are all the ways there are.**
* `Dataset.ingest_eq_ready`, `Dataset.exists_ready` — what a success consists of.
* `Dataset.read?_of_ingest` — **in a fresh memory, the dataset reads as what is visible of it.**
-/

namespace JobSandbox

/-- The dataset of a host as a job sees it: cut to the length that was announced, or filled up with
zeros. -/
def Host.visible (host : Host) : Bytes :=
  host.dataset.take host.announced ++ List.replicate (host.announced - host.dataset.length) 0

theorem Host.overwrite_replicate (host : Host) :
    Bytes.overwrite (List.replicate host.announced 0) host.dataset = host.visible := by
  rw [Bytes.overwrite, List.length_replicate, List.drop_replicate, visible]

@[simp] theorem Host.length_visible (host : Host) : host.visible.length = host.announced := by
  rw [← overwrite_replicate, Bytes.length_overwrite, List.length_replicate]

/-- A host that announces the true length shows all of its dataset. -/
theorem Host.visible_self (data : Bytes) : ({ dataset := data } : Host).visible = data := by
  simp only [visible, List.take_length, Nat.sub_self, List.replicate_zero, List.append_nil]

/-- The host writes its dataset over what it is given. -/
theorem Host.datasetWrite_eq (host : Host) (destination : Bytes) :
    (host.datasetWrite destination).1 = destination.overwrite host.dataset := by
  apply List.ext_getElem?
  intro i
  rcases Nat.lt_or_ge i destination.length with hi | hi
  · rw [Bytes.getElem?_overwrite _ _ hi]
    have htake : (host.dataset.take (min destination.length host.dataset.length)).length =
        min destination.length host.dataset.length := by
      rw [List.length_take]
      omega
    unfold Host.datasetWrite
    dsimp only
    by_cases hlt : i < host.dataset.length
    · rw [if_pos hlt, List.getElem?_append_left (by omega), List.getElem?_take_of_lt (by omega)]
    · rw [if_neg hlt, List.getElem?_append_right (by omega), List.getElem?_drop]
      congr 1
      omega
  · rw [List.getElem?_eq_none (by rwa [Host.length_datasetWrite]),
      List.getElem?_eq_none (by rwa [Bytes.length_overwrite])]

namespace Dataset

variable {host host' : Host} {arena after : Arena PagedMemory} {granularity : Granularity}
  {dataset : Dataset}

/-! ### All the ways -/

/-- The region has room for the dataset. -/
theorem view_of_roundUp? (h : granularity.roundUp? dataset.length = some dataset.region.length) :
    dataset.view = ⟨dataset.region.offset, dataset.length⟩ := by
  rw [view, Region.front, Nat.min_eq_left (Address.le_of_alignUp? h)]

/-- The ways in which taking in a dataset can end. -/
inductive Ingested (host : Host) (arena : Arena PagedMemory) (granularity : Granularity) :
    Ingestion × Host × Arena PagedMemory → Prop where
  /-- The length cannot be rounded up. -/
  | tooLong (hround : granularity.roundUp? host.announced = none) :
      Ingested host arena granularity
        (.refused (.addressOverflow arena.mark host.announced),
          host.hear (.datasetLen host.dataset.length), arena)
  /-- There is no memory. -/
  | refused {rounded : ℕ} {error : AllocError} {after : Arena PagedMemory}
      (hround : granularity.roundUp? host.announced = some rounded)
      (hallocate : arena.allocate rounded granularity.unit = (.error error, after)) :
      Ingested host arena granularity
        (.refused error, host.hear (.datasetLen host.dataset.length), after)
  /-- There is a region, but it does not lie inside the memory. -/
  | outOfRange {region : Region} {after : Arena PagedMemory}
      (hround : granularity.roundUp? host.announced = some region.length)
      (hallocate : arena.allocate region.length granularity.unit = (.ok region, after))
      (hbeyond : after.memory.size < region.offset + host.announced) :
      Ingested host arena granularity
        (.outOfRange, host.hear (.datasetLen host.dataset.length), after)
  /-- The host has written its dataset. -/
  | ready {region : Region} {middle after : Arena PagedMemory} {destination : Bytes}
      (hround : granularity.roundUp? host.announced = some region.length)
      (hallocate : arena.allocate region.length granularity.unit = (.ok region, middle))
      (hread : middle.read? ⟨region.offset, host.announced⟩ = some destination)
      (hwrite : middle.write? ⟨region.offset, host.announced⟩
        (destination.overwrite host.dataset) = some after) :
      Ingested host arena granularity
        (.ready ⟨region, host.announced⟩,
          host.hearAll [.datasetLen host.dataset.length, .datasetWrite host.announced], after)

/-- How the host's access to a region ends. -/
theorem ingested_fetch {region : Region} {middle : Arena PagedMemory}
    (hround : granularity.roundUp? host.announced = some region.length)
    (hallocate : arena.allocate region.length granularity.unit = (.ok region, middle)) :
    Ingested host arena granularity (fetch ⟨region, host.announced⟩
      (host.hear (.datasetLen host.dataset.length)) middle) := by
  have hview : (Dataset.mk region host.announced).view = ⟨region.offset, host.announced⟩ :=
    view_of_roundUp? hround
  unfold fetch
  rw [read?, hview]
  cases hread : middle.read? ⟨region.offset, host.announced⟩ with
  | none =>
    refine .outOfRange hround hallocate ?_
    by_contra hle
    have hsome : (middle.read? ⟨region.offset, host.announced⟩).isSome :=
      Arena.read?_isSome_iff.mpr (Nat.le_of_not_lt hle)
    rw [hread] at hsome
    cases hsome
  | some destination =>
    -- what can be read can be written, so nothing is in the way of the host any more
    have hin := Arena.read?_isSome_iff.mp (Option.isSome_of_eq_some hread)
    have hlength : destination.length = host.announced := PagedMemory.length_of_read? hread
    have hheard : ((host.hear (.datasetLen host.dataset.length)).datasetWrite destination).2 =
        host.hearAll [.datasetLen host.dataset.length, .datasetWrite host.announced] := by
      rw [← hlength]
      exact Host.record_eq_hear _ rfl
    have hbytes : ((host.hear (.datasetLen host.dataset.length)).datasetWrite destination).1 =
        destination.overwrite host.dataset := Host.datasetWrite_eq _ destination
    obtain ⟨after, hwrite⟩ : ∃ after, middle.write? ⟨region.offset, host.announced⟩
        (destination.overwrite host.dataset) = some after :=
      Option.isSome_iff_exists.mp (Arena.write?_isSome_iff.mpr hin)
    dsimp only
    rw [hheard, hbytes, hwrite]
    exact .ready hround hallocate hread hwrite

/-- **Taking in a dataset ends in one of the ways of `Ingested`.** -/
theorem ingest_ingested (host : Host) (arena : Arena PagedMemory) (granularity : Granularity) :
    Ingested host arena granularity (ingest host arena granularity) := by
  have hheard : host.record (.datasetLen host.dataset.length) =
      host.hear (.datasetLen host.dataset.length) := Host.record_eq_hear host rfl
  unfold ingest
  simp only [Host.datasetLen, hheard]
  cases hround : granularity.roundUp? host.announced with
  | none => exact .tooLong hround
  | some rounded =>
    dsimp only
    rcases hallocate : arena.allocate rounded granularity.unit with ⟨error | region, after⟩
    · exact .refused hround hallocate
    · obtain ⟨rfl, -⟩ := Arena.of_allocate_ok (congrArg Prod.fst hallocate)
      exact ingested_fetch hround hallocate

/-- Once a dataset was taken in, the host has been asked twice, and it has the announced length. -/
theorem of_ingest_eq_ready {dataset : Dataset} {host' : Host} {after : Arena PagedMemory}
    (h : ingest host arena granularity = (.ready dataset, host', after)) :
    host' = host.hearAll [.datasetLen host.dataset.length, .datasetWrite host.announced] ∧
      dataset.length = host.announced := by
  have hout := ingest_ingested host arena granularity
  rw [h] at hout
  cases hout with
  | ready => exact ⟨rfl, rfl⟩

/-! ### Success -/

/-- What it takes to take in a dataset. -/
theorem ingest_eq_ready (h : ingest host arena granularity = (.ready dataset, host', after)) :
    ∃ middle destination,
      granularity.roundUp? host.announced = some dataset.region.length ∧
      arena.allocate dataset.region.length granularity.unit = (.ok dataset.region, middle) ∧
      dataset.length = host.announced ∧
      dataset.read? middle = some destination ∧
      middle.write? dataset.view (destination.overwrite host.dataset) = some after := by
  have hout := ingest_ingested host arena granularity
  rw [h] at hout
  cases hout with
  | @ready region middle after destination hround hallocate hread hwrite =>
    have hview : (Dataset.mk region host.announced).view = ⟨region.offset, host.announced⟩ :=
      view_of_roundUp? hround
    refine ⟨middle, destination, hround, hallocate, rfl, ?_, ?_⟩
    · rw [read?, hview]
      exact hread
    · rw [hview]
      exact hwrite

/-- A dataset can be taken in if its length can be rounded up, and there is a region for it inside
the memory. -/
theorem exists_ready {rounded : ℕ} {region : Region} {middle : Arena PagedMemory}
    (hround : granularity.roundUp? host.announced = some rounded)
    (hallocate : arena.allocate rounded granularity.unit = (.ok region, middle))
    (hin : region.stop ≤ middle.memory.size) :
    ∃ dataset host' after, ingest host arena granularity = (.ready dataset, host', after) := by
  have hout := ingest_ingested host arena granularity
  generalize ingest host arena granularity = out at hout ⊢
  cases hout with
  | tooLong hnone =>
    rw [hround] at hnone
    cases hnone
  | refused hround' hallocate' =>
    cases hround.symm.trans hround'
    cases hallocate.symm.trans hallocate'
  | outOfRange hround' hallocate' hbeyond =>
    cases hround.symm.trans hround'
    cases hallocate.symm.trans hallocate'
    have hroom : host.announced ≤ region.length := Address.le_of_alignUp? hround
    have hstop : region.stop = region.offset + region.length := rfl
    omega
  | ready => exact ⟨_, _, _, rfl⟩

/-- What is read before anything was written, in a memory that started fresh, is zero. -/
theorem eq_replicate_of_read? {initialPages maxPages heapBase : ℕ} {region : Region} {bytes : Bytes}
    (hgrown : (PagedMemory.ofPages initialPages maxPages heapBase).GrownFrom arena.memory)
    (hread : arena.read? region = some bytes) : bytes = List.replicate region.length 0 := by
  obtain ⟨hin, hlength, hbytes⟩ := PagedMemory.read?_eq_some_iff.mp hread
  apply List.ext_getElem?
  intro i
  rcases Nat.lt_or_ge i region.length with hi | hi
  · rw [← hbytes i hi, hgrown.zero (by omega), List.getElem?_replicate_of_lt hi]
  · rw [List.getElem?_eq_none (by omega),
      List.getElem?_eq_none (by rwa [List.length_replicate])]

/-- **In a fresh memory, a dataset that was taken in reads as what is visible of it.** -/
theorem read?_of_ingest {initialPages maxPages heapBase : ℕ}
    (h : ingest host (.ofMemory (.ofPages initialPages maxPages heapBase)) granularity =
      (.ready dataset, host', after)) : dataset.read? after = some host.visible := by
  obtain ⟨middle, destination, hround, hallocate, hlength, hread, hwrite⟩ := ingest_eq_ready h
  have hadvanced := Arena.advanced_allocate
    (Arena.sound_ofMemory (PagedMemory.wellFormed_ofPages initialPages maxPages heapBase))
    dataset.region.length granularity.unit
  rw [hallocate] at hadvanced
  have hzero : destination = List.replicate host.announced 0 := by
    rw [eq_replicate_of_read? hadvanced.grown hread, view_of_roundUp? (hlength ▸ hround), hlength]
  rw [read?, Arena.read?_of_write? hwrite hread, Bytes.overwrite_of_length_eq
    (Bytes.length_overwrite _ _), hzero, Host.overwrite_replicate]

end Dataset
end JobSandbox
