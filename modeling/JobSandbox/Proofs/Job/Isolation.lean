import JobSandbox.Proofs.Job.Execute
import JobSandbox.Proofs.Placement
import Mathlib.Data.List.Pairwise

/-!
# The memory of a run

All memory of a job is one stretch of bytes, but a job cannot tell: its dataset and its scratch
regions behave as buffers of their own.  The dataset stays as it was taken in; a scratch region
holds zeros and then what was written to it; and no access to them fails.

What carries this is an invariant of sessions: dataset and regions lie in order of their addresses
and end at the mark, and from the mark on memory is zero.

## Main definitions

* `Exchange.apply`, `contentsAfter` — scratch regions as buffers of their own.
* `Session.Holds` — the invariant: the memory of a session holds a dataset and such buffers.
* `Session.Isolated` — what a job sees of that.

## Main results

* `Session.Holds.perform` — the invariant through one operation.
* `holds_of_ingest` — the invariant after the dataset was taken in.
* `body_isolated` — **a body works on buffers of its own, wherever it is in its course.**
-/

namespace JobSandbox

open Contract

/-! ### Scratch regions as buffers -/

namespace Exchange

/-- Scratch regions, by number, after one more exchange. -/
def apply (contents : List Bytes) (exchange : Exchange) : List Bytes :=
  match exchange with
  | ⟨.tryAlloc size, .ok _⟩ => contents ++ [List.replicate size 0]
  | ⟨.write number bytes, _⟩ => contents.modify number (·.overwrite bytes)
  | _ => contents

/-- Whether an exchange writes to a region. -/
def WritesTo (exchange : Exchange) (number : ℕ) : Prop :=
  ∃ bytes, exchange.op = .write number bytes

end Exchange

/-- What scratch regions hold after some exchanges. -/
def contentsAfter (exchanges : List Exchange) : List Bytes := exchanges.foldl Exchange.apply []

theorem Exchange.apply_of_looks (contents : List Bytes) {op : Op} {answer : op.Answer}
    (h : op.Looks) : apply contents ⟨op, answer⟩ = contents := by
  cases op <;> first | rfl | cases h

/-- An exchange leaves all regions alone but the one it writes to. -/
theorem Exchange.getElem?_apply (contents : List Bytes) {exchange : Exchange} {number : ℕ}
    (hwrites : ¬exchange.WritesTo number) (hnumber : number < contents.length) :
    (apply contents exchange)[number]? = contents[number]? := by
  unfold apply
  split
  · rw [List.getElem?_append_left hnumber]
  · next number' bytes answer =>
    have hne : number' ≠ number := by
      rintro rfl
      exact hwrites ⟨bytes, rfl⟩
    rw [List.getElem?_modify_ne _ _ hne]
  · rfl

/-- An exchange that does not write to a region leaves it zero. -/
theorem Exchange.zero_apply {contents : List Bytes} {exchange : Exchange} {number : ℕ}
    (hwrites : ¬exchange.WritesTo number)
    (hzero : ∀ content, contents[number]? = some content →
      content = List.replicate content.length 0) :
    ∀ content, (apply contents exchange)[number]? = some content →
      content = List.replicate content.length 0 := by
  intro content hcontent
  rcases Nat.lt_or_ge number contents.length with hlt | hge
  · rw [getElem?_apply contents hwrites hlt] at hcontent
    exact hzero content hcontent
  · unfold apply at hcontent
    split at hcontent
    · rw [List.getElem?_append_right hge, List.getElem?_singleton] at hcontent
      split at hcontent
      · cases hcontent
        rw [List.length_replicate]
      · cases hcontent
    · rw [List.getElem?_eq_none (by rwa [List.length_modify])] at hcontent
      cases hcontent
    · exact hzero content hcontent

/-- What nobody has written to is zero. -/
theorem contentsAfter_of_not_written {exchanges : List Exchange} {number : ℕ}
    (hunwritten : ∀ exchange ∈ exchanges, ¬exchange.WritesTo number) {content : Bytes}
    (hcontent : (contentsAfter exchanges)[number]? = some content) :
    content = List.replicate content.length 0 := by
  -- the start has no regions at all; what counts is that no exchange spoils it
  suffices general : ∀ contents : List Bytes, (∀ content, contents[number]? = some content →
      content = List.replicate content.length 0) → ∀ content,
      (exchanges.foldl Exchange.apply contents)[number]? = some content →
        content = List.replicate content.length 0 from
    general [] (fun content hnone => by cases hnone) content hcontent
  clear hcontent
  induction exchanges with
  | nil => exact fun contents hzero => hzero
  | cons exchange exchanges ih =>
    intro contents hzero
    have hrest := ih fun e he => hunwritten e (List.mem_cons_of_mem _ he)
    exact hrest _ (Exchange.zero_apply (hunwritten exchange List.mem_cons_self) hzero)

/-! ### The invariant -/

namespace Session

variable {session after : Session} {data : Bytes} {contents : List Bytes} {number : ℕ}
  {region : Region}

/-- The memory of a session holds the dataset and the scratch regions, one behind the other, and
zeros from there on. -/
structure Holds (session : Session) (data : Bytes) (contents : List Bytes) : Prop where
  sound : session.arena.Sound
  mark_le : session.arena.mark ≤ session.arena.memory.size
  ordered : (session.dataset.region :: session.regions).Pairwise fun r s => r.stop ≤ s.offset
  stop_le : ∀ region ∈ session.dataset.region :: session.regions,
    region.stop ≤ session.arena.mark
  zero : ∀ a, session.arena.mark ≤ a → a < session.arena.memory.size →
    session.arena.memory.bytes[a]? = some 0
  dataset_read : session.dataset.read? session.arena = some data
  length_eq : contents.length = session.regions.length
  region_read : ∀ (number : ℕ) (region : Region), session.regions[number]? = some region →
    session.arena.read? region = contents[number]?

namespace Holds

/-- Scratch regions lie behind the dataset. -/
theorem dataset_stop_le (h : session.Holds data contents)
    (hregion : session.regions[number]? = some region) :
    session.dataset.view.stop ≤ region.offset := by
  have hbehind := (List.pairwise_cons.mp h.ordered).1 region (List.mem_of_getElem? hregion)
  have hview : session.dataset.view.stop = session.dataset.region.offset +
      min session.dataset.length session.dataset.region.length := rfl
  have hstop : session.dataset.region.stop =
      session.dataset.region.offset + session.dataset.region.length := rfl
  omega

/-- Two scratch regions lie apart. -/
theorem apart (h : session.Holds data contents) {number' : ℕ} {region' : Region}
    (hregion : session.regions[number]? = some region)
    (hregion' : session.regions[number']? = some region') (hne : number ≠ number') :
    region.stop ≤ region'.offset ∨ region'.stop ≤ region.offset := by
  have hordered := List.pairwise_iff_getElem.mp (List.pairwise_cons.mp h.ordered).2
  obtain ⟨hlt, rfl⟩ := List.getElem?_eq_some_iff.mp hregion
  obtain ⟨hlt', rfl⟩ := List.getElem?_eq_some_iff.mp hregion'
  rcases Nat.lt_or_gt_of_ne hne with h | h
  · exact Or.inl (hordered _ _ hlt hlt' h)
  · exact Or.inr (hordered _ _ hlt' hlt h)

/-- Every scratch region can be read. -/
theorem exists_read (h : session.Holds data contents)
    (hregion : session.regions[number]? = some region) :
    ∃ content, contents[number]? = some content ∧
      session.arena.read? region = some content := by
  obtain ⟨hlt, -⟩ := List.getElem?_eq_some_iff.mp hregion
  have hcontent := List.getElem?_eq_getElem (h.length_eq.symm ▸ hlt : number < contents.length)
  exact ⟨_, hcontent, (h.region_read number region hregion).trans hcontent⟩

/-- From the mark on memory stays zero, wherever it grows. -/
theorem zero_of_advanced (h : session.Holds data contents) {arena : Arena PagedMemory}
    (hadvanced : session.arena.Advanced arena) {a : ℕ} (ha : session.arena.mark ≤ a)
    (hsize : a < arena.memory.size) : arena.memory.bytes[a]? = some 0 := by
  rcases Nat.lt_or_ge a session.arena.memory.size with hlt | hge
  · rw [hadvanced.grown.getElem?_bytes hlt]
    exact h.zero a ha hlt
  · exact hadvanced.grown.getElem?_bytes_of_le hge hsize

/-- A request for memory does not show in the memory that was there. -/
theorem advance (h : session.Holds data contents) {arena : Arena PagedMemory}
    (hadvanced : session.arena.Advanced arena) :
    Holds { session with arena } data contents where
  sound := hadvanced.sound
  mark_le := by
    have hmark := hadvanced.le_mark
    have hold := h.mark_le
    have hsize := hadvanced.grown.size_le
    dsimp only
    omega
  ordered := h.ordered
  stop_le region hmem := (h.stop_le region hmem).trans hadvanced.mark_le
  zero a ha hsize := h.zero_of_advanced hadvanced (hadvanced.mark_le.trans ha) hsize
  dataset_read := by
    have hin := PagedMemory.read?_isSome_iff.mp (Option.isSome_of_eq_some h.dataset_read)
    exact (hadvanced.grown.read?_eq hin).trans h.dataset_read
  length_eq := h.length_eq
  region_read number region hregion := by
    obtain ⟨content, hcontent, hread⟩ := h.exists_read hregion
    have hin := PagedMemory.read?_isSome_iff.mp (Option.isSome_of_eq_some hread)
    rw [hcontent]
    exact (hadvanced.grown.read?_eq hin).trans hread

/-- A new region at the end of all others is a buffer of zeros. -/
theorem addRegion (h : session.Holds data contents)
    (hbehind : ∀ r ∈ session.dataset.region :: session.regions, r.stop ≤ region.offset)
    (hstop : region.stop ≤ session.arena.mark)
    (hzero : ∀ a, region.offset ≤ a → a < region.stop →
      session.arena.memory.bytes[a]? = some 0) :
    Holds { session with regions := session.regions ++ [region] } data
      (contents ++ [List.replicate region.length 0]) where
  sound := h.sound
  mark_le := h.mark_le
  ordered := by
    rw [← List.cons_append, List.pairwise_append]
    refine ⟨h.ordered, List.pairwise_singleton _ _, fun r hr s hs => ?_⟩
    rw [List.mem_singleton.mp hs]
    exact hbehind r hr
  stop_le r hr := by
    rw [← List.cons_append, List.mem_append, List.mem_singleton] at hr
    rcases hr with hr | rfl
    · exact h.stop_le r hr
    · exact hstop
  zero := h.zero
  dataset_read := h.dataset_read
  length_eq := by
    rw [List.length_append, List.length_append, h.length_eq, List.length_singleton,
      List.length_singleton]
  region_read number r hr := by
    -- a region of before keeps its number, the new one has the first that is free
    have hlength := h.length_eq
    rcases Nat.lt_or_ge number session.regions.length with hlt | hge
    · rw [List.getElem?_append_left hlt] at hr
      rw [List.getElem?_append_left (by omega)]
      exact h.region_read number r hr
    · rw [List.getElem?_append_right hge, List.getElem?_singleton] at hr
      rw [List.getElem?_append_right (by omega), List.getElem?_singleton, hlength]
      split at hr
      · next hnumber =>
        cases hr
        rw [if_pos hnumber]
        have hdef : region.stop = region.offset + region.length := rfl
        refine PagedMemory.read?_eq_some_iff.mpr
          ⟨hstop.trans h.mark_le, List.length_replicate, fun i hi => ?_⟩
        rw [hzero _ (by omega) (by omega), List.getElem?_replicate_of_lt hi]
      · cases hr

/-- A write through a region changes its buffer and no other, and not the dataset. -/
theorem write (h : session.Holds data contents) (hregion : session.regions[number]? = some region)
    {bytes : Bytes} {arena : Arena PagedMemory}
    (hwrite : session.arena.write? region bytes = some arena) :
    Holds { session with arena } data (contents.modify number (·.overwrite bytes)) := by
  obtain ⟨hmark, -, hsize, hsound⟩ := Arena.of_write? hwrite
  have hstop : region.stop = region.offset + region.length := rfl
  have hbelow := h.stop_le region (List.mem_cons_of_mem _ (List.mem_of_getElem? hregion))
  exact
    { sound := hsound h.sound
      mark_le := by
        have hle := h.mark_le
        dsimp only
        omega
      ordered := h.ordered
      stop_le := fun r hr => hmark.symm ▸ h.stop_le r hr
      zero := fun a ha hlt => by
        dsimp only at ha hlt ⊢
        rw [Arena.getElem?_bytes_of_write? hwrite, if_neg (by omega)]
        exact h.zero a (by omega) (by omega)
      dataset_read :=
        (Arena.read?_of_write?_of_apart hwrite (Or.inr (h.dataset_stop_le hregion))).trans
          h.dataset_read
      length_eq := by rw [List.length_modify, h.length_eq]
      region_read := fun number' region' hregion' => by
        by_cases hsame : number = number'
        · subst hsame
          obtain ⟨content, hcontent, hread⟩ := h.exists_read hregion
          cases hregion.symm.trans hregion'
          rw [List.getElem?_modify_eq, hcontent]
          exact Arena.read?_of_write? hwrite hread
        · rw [List.getElem?_modify_ne _ _ hsame, ← h.region_read number' region' hregion']
          exact Arena.read?_of_write?_of_apart hwrite (h.apart hregion hregion' hsame) }

/-- A request for scratch memory that is served adds a buffer of zeros. -/
theorem served (h : session.Holds data contents) {size : ℕ} {arena : Arena PagedMemory}
    (hallocate : session.arena.allocate size scratchAlign = (.ok region, arena)) :
    Holds { session with arena, regions := session.regions ++ [region] } data
      (contents ++ [List.replicate size 0]) := by
  have hadvanced := Arena.advanced_allocate h.sound size scratchAlign
  obtain ⟨hlength, horder, hstop, -⟩ := Arena.of_allocate_ok (congrArg Prod.fst hallocate)
  rw [hallocate] at hadvanced hstop
  have hafter := h.advance hadvanced
  subst hlength
  refine hafter.addRegion ?_ hstop.le ?_
  · intro r hr
    exact (h.stop_le r hr).trans horder
  · -- behind the old mark lie zeros, in the pages of before as in new ones
    intro a hle hlt
    refine h.zero_of_advanced hadvanced (horder.trans hle) (lt_of_lt_of_le hlt ?_)
    exact hstop.le.trans hafter.mark_le

/-- **Every operation keeps the invariant**, with the buffers it leaves behind. -/
theorem perform (h : session.Holds data contents) {op : Op} {answer : op.Answer}
    (hperform : session.perform op = some (answer, after)) :
    after.Holds data (Exchange.apply contents ⟨op, answer⟩) := by
  cases performed_of_perform hperform with
  | looked hlooks =>
    rw [Exchange.apply_of_looks contents hlooks]
    exact h
  | @refused size error arena hallocate =>
    have hadvanced := Arena.advanced_allocate h.sound size scratchAlign
    rw [hallocate] at hadvanced
    exact h.advance hadvanced
  | served hallocate => exact h.served hallocate
  | written hregion hwrite => exact h.write hregion hwrite
  | called =>
    exact ⟨h.sound, h.mark_le, h.ordered, h.stop_le, h.zero, h.dataset_read, h.length_eq,
      h.region_read⟩

/-- No access to a region of its own, or to the dataset, is out of range. -/
theorem isSome_perform (h : session.Holds data contents) {op : Op}
    (hmentioned : ∀ number ∈ op.mentioned?, number < session.regions.length) :
    (session.perform op).isSome := by
  cases op with
  | dataset => exact (Option.isSome_map ..).trans (Option.isSome_of_eq_some h.dataset_read)
  | datasetLength => rfl
  | policy => rfl
  | tryAlloc size =>
    unfold Session.perform
    dsimp only
    split <;> rfl
  | region number =>
    have hregion := List.getElem?_eq_getElem (hmentioned number rfl)
    exact (Option.isSome_map ..).trans (Option.isSome_of_eq_some hregion)
  | read number =>
    have hregion := List.getElem?_eq_getElem (hmentioned number rfl)
    obtain ⟨content, -, hread⟩ := h.exists_read hregion
    simp only [Session.perform, hregion, hread, bind, pure, Option.bind_some, Option.isSome_some]
  | write number bytes =>
    have hlt : number < session.regions.length := hmentioned number rfl
    have hregion := List.getElem?_eq_getElem hlt
    obtain ⟨content, -, hread⟩ := h.exists_read hregion
    have hin := Arena.read?_isSome_iff.mp (Option.isSome_of_eq_some hread)
    have hsome : (session.arena.write? session.regions[number] bytes).isSome :=
      Arena.write?_isSome_iff.mpr hin
    obtain ⟨arena, hwrite⟩ := Option.isSome_iff_exists.mp hsome
    simp only [Session.perform, hregion, hwrite, bind, pure, Option.bind_some, Option.isSome_some]
  | call request => rfl

end Holds

/-! ### Where it holds -/

/-- **The invariant holds once a dataset was taken into a fresh memory.** -/
theorem holds_of_ingest {policy : Policy} {host host' : Host} {initialPages maxPages heapBase : ℕ}
    {dataset : Dataset} {arena : Arena PagedMemory}
    (h : Dataset.ingest host (.ofMemory (.ofPages initialPages maxPages heapBase))
      policy.granularity = (.ready dataset, host', arena)) :
    (start policy dataset host' arena).Holds host.visible [] := by
  obtain ⟨middle, destination, hround, hallocate, hlength, hread, hwrite⟩ :=
    Dataset.ingest_eq_ready h
  have hadvanced := Arena.advanced_allocate
    (Arena.sound_ofMemory (PagedMemory.wellFormed_ofPages initialPages maxPages heapBase))
    dataset.region.length policy.granularity.unit
  obtain ⟨-, -, hstop, hlimit⟩ := Arena.of_allocate_ok (congrArg Prod.fst hallocate)
  rw [hallocate] at hadvanced hstop hlimit
  dsimp only at hadvanced hstop hlimit
  obtain ⟨hmark, -, hsize, hsound⟩ := Arena.of_write? hwrite
  have hview := Dataset.view_of_roundUp? (hlength ▸ hround)
  have hroom : dataset.length ≤ dataset.region.length := Address.le_of_alignUp? (hlength ▸ hround)
  have hdef : dataset.region.stop = dataset.region.offset + dataset.region.length := rfl
  have hinside : dataset.region.stop ≤ middle.memory.size := by
    by_cases hempty : dataset.region.length = 0
    · -- an empty region was not asked for; that it lies inside shows in the host's access to it
      have hin := Arena.read?_isSome_iff.mp (Option.isSome_of_eq_some hread)
      rw [hview] at hin
      refine le_trans ?_ hin
      rw [hdef, hempty]
      exact Nat.le_add_right _ _
    · exact (hlimit hempty).trans hadvanced.sound.limit_le
  exact
    { sound := hsound hadvanced.sound
      mark_le := by
        dsimp only [start]
        omega
      ordered := List.pairwise_singleton _ _
      stop_le := fun region hmem => by
        rw [List.mem_singleton.mp hmem]
        exact hstop.le.trans hmark.ge
      zero := fun a ha hlt => by
        dsimp only [start] at ha hlt ⊢
        rw [Arena.getElem?_bytes_of_write? hwrite, hview, if_neg (by dsimp only; omega)]
        exact hadvanced.grown.zero (by omega)
      dataset_read := Dataset.read?_of_ingest h
      length_eq := rfl
      region_read := fun number region hregion => by cases hregion }

/-! ### What a job sees -/

/-- What is true of a session that a body has come to by some exchanges, in terms of what the body
can do there. -/
structure Isolated (data : Bytes) (exchanges : List Exchange) (session : Session) : Prop where
  /-- The dataset is what it always was. -/
  dataset_eq : session.perform .dataset = some (data, session)
  /-- A region holds what was written to it, as if it were a buffer of its own. -/
  read_eq : ∀ number : ℕ, session.perform (.read number) =
    (contentsAfter exchanges)[number]?.map fun bytes => (bytes, session)
  /-- A region to which nothing was written holds zeros. -/
  read_zero : ∀ (number : ℕ) (region : Region), session.regions[number]? = some region →
    (∀ exchange ∈ exchanges, ¬exchange.WritesTo number) →
      session.perform (.read number) = some (List.replicate region.length 0, session)
  /-- Whatever the body does next changes no byte of the dataset. -/
  dataset_frame : ∀ (op : Op) (answer : op.Answer) (after : Session),
    session.perform op = some (answer, after) →
      after.dataset.read? after.arena = session.dataset.read? session.arena
  /-- Whatever it does next changes no byte of a region that it does not write to. -/
  region_frame : ∀ (op : Op) (answer : op.Answer) (after : Session),
    session.perform op = some (answer, after) →
      ∀ (number : ℕ) (region : Region), session.regions[number]? = some region →
        (∀ bytes, op ≠ .write number bytes) →
          after.regions[number]? = some region ∧
            after.arena.read? region = session.arena.read? region
  /-- It succeeds if it mentions none but regions that were handed out. -/
  isSome_perform : ∀ op : Op, (∀ number ∈ op.mentioned?, number < session.regions.length) →
    (session.perform op).isSome

theorem Holds.perform_read (h : session.Holds data contents) (number : ℕ) :
    session.perform (.read number) = contents[number]?.map fun bytes => (bytes, session) := by
  cases hregion : session.regions[number]? with
  | none =>
    have hnone : contents[number]? = none := by
      rw [List.getElem?_eq_none_iff, h.length_eq]
      exact List.getElem?_eq_none_iff.mp hregion
    simp only [Session.perform, hregion, hnone, bind, Option.bind_none, Option.map_none]
  | some region =>
    obtain ⟨content, hcontent, hread⟩ := h.exists_read hregion
    simp only [Session.perform, hregion, hcontent, hread, bind, pure, Option.bind_some,
      Option.map_some]

theorem Holds.isolated {exchanges : List Exchange}
    (h : session.Holds data (contentsAfter exchanges)) : session.Isolated data exchanges where
  dataset_eq := Option.map_eq_some_iff.mpr ⟨data, h.dataset_read, rfl⟩
  read_eq := h.perform_read
  read_zero number region hregion hunwritten := by
    obtain ⟨content, hcontent, hread⟩ := h.exists_read hregion
    have hlength := (PagedMemory.read?_eq_some_iff.mp hread).2.1
    rw [h.perform_read, hcontent, contentsAfter_of_not_written hunwritten hcontent, hlength]
    rfl
  dataset_frame op answer after hperform := by
    rw [(h.perform hperform).dataset_read, h.dataset_read]
  region_frame op answer after hperform number region hregion hop := by
    obtain ⟨hlt, -⟩ := List.getElem?_eq_some_iff.mp hregion
    obtain ⟨more, hmore⟩ := (regions_of_perform hperform).1
    have hregion' : after.regions[number]? = some region := by
      rw [← hmore, List.getElem?_append_left hlt, hregion]
    have hwrites : ¬(⟨op, answer⟩ : Exchange).WritesTo number := by
      rintro ⟨bytes, hwrite⟩
      exact hop bytes hwrite
    refine ⟨hregion', ?_⟩
    rw [(h.perform hperform).region_read number region hregion',
      h.region_read number region hregion, Exchange.getElem?_apply _ hwrites (h.length_eq ▸ hlt)]
  isSome_perform op hmentioned := h.isSome_perform hmentioned

end Session

/-! ### Bodies -/

section Bodies

variable {ν : Type} {policy : Policy} {host host' : Host} {initialPages maxPages heapBase : ℕ}
  {dataset : Dataset} {arena : Arena PagedMemory}

/-- The buffers of a session that a body has come to. -/
theorem holds_of_passes
    (hready : Dataset.ingest host (.ofMemory (.ofPages initialPages maxPages heapBase))
      policy.granularity = (.ready dataset, host', arena))
    {body rest : Job ν Unit} {exchanges : List Exchange} {session : Session}
    (hpath : body.Passes (.start policy dataset host' arena) exchanges rest session) :
    session.Holds host.visible (contentsAfter exchanges) :=
  hpath.induction (P := fun session contents => session.Holds host.visible contents)
    (fun _ _ _ _ _ h hperform => h.perform hperform) (Session.holds_of_ingest hready)

/-- A run that was aborted was so in its body. -/
theorem ending_of_aborted {memory : PagedMemory}
    (hready : Dataset.ingest host (.ofMemory memory) policy.granularity =
      (.ready dataset, host', arena)) {body : Job ν Unit} {abort : Abort}
    (hstatus : (execute policy host memory body).status = .aborted abort) :
    (body.run (.start policy dataset host' arena)).ending = .error abort := by
  rw [execute_of_ready hready] at hstatus
  exact (status_runBody_iff policy dataset host' arena body abort).mp hstatus

/-- **A body works on buffers of its own, wherever it is in its course.**  Take any host, any policy
and any fresh memory, and let taking in the dataset succeed.  Then at every point of any body, the
dataset is what is visible of the host's, as long as was announced; every scratch region holds what
was written to it and zeros before; nothing else shows in them, however memory grows; and a body
that uses its own regions is never taken out of range by an access to them or to the dataset. -/
theorem body_isolated
    (hready : Dataset.ingest host (.ofMemory (.ofPages initialPages maxPages heapBase))
      policy.granularity = (.ready dataset, host', arena)) (body : Job ν Unit) :
    host.visible.length = host.announced ∧
      (∀ (exchanges : List Exchange) (rest : Job ν Unit) (session : Session),
        body.Passes (.start policy dataset host' arena) exchanges rest session →
          session.Isolated host.visible exchanges) ∧
      (body.UsesOwn (.start policy dataset host' arena) →
        (execute policy host (.ofPages initialPages maxPages heapBase) body).status ≠
          .aborted .outOfRange) := by
  refine ⟨host.length_visible, ?_, ?_⟩
  · intro exchanges rest session hpath
    exact (holds_of_passes hready hpath).isolated
  · intro hown hstatus
    -- the run has come to the access that failed, and the invariant has come with it
    obtain ⟨exchanges, session, op, next, hpath, hnone⟩ :=
      Job.exists_passes_of_outOfRange (ending_of_aborted hready hstatus)
    have hsome : (session.perform op).isSome := by
      refine (holds_of_passes hready hpath).isSome_perform ?_
      intro number hmentioned
      exact hpath.lt_of_obtained.2 number (hown exchanges op next session hpath number hmentioned)
    rw [hnone] at hsome
    cases hsome

/-- Five bytes from 1024 on lie inside the first page. -/
theorem exists_ready_of_sizes (host : Host) (memory : PagedMemory) (hbase : memory.heapBase = 1024)
    (hsize : memory.size = 1 * pageSize) (hannounced : host.announced = 5) :
    ∃ dataset host' arena, Dataset.ingest host (.ofMemory memory) Policy.legacy.granularity =
      (.ready dataset, host', arena) := by
  have hmark : (Arena.ofMemory memory).mark = 1024 := hbase
  have hlimit : (Arena.ofMemory memory).limit = 1 * pageSize := hsize
  have hstop : (Arena.ofMemory memory).targetStop
      (Address.leastMultiple Policy.legacy.granularity.unit host.announced)
      Policy.legacy.granularity.unit = 1032 := by
    rw [Arena.targetStop, hmark, hannounced]
    decide
  exact Dataset.exists_ready_below_limit (hannounced ▸ by decide) le_rfl
    (by rw [hstop, hlimit]; decide) (by rw [hstop]; decide)

/-- A body that writes to a region which it may not get, over a dataset that is shorter than it was
announced. -/
theorem body_isolated_of_short_dataset :
    let host : Host := { dataset := [1, 2, 3], announced := 5 }
    let memory := PagedMemory.ofPages 1 2 1024
    let body : Job Unit Unit := .act (.tryAlloc 16) fun
      | .ok number => .act (.write number [7]) fun _ => .done ()
      | .error _ => .done ()
    ∃ dataset host' arena,
      Dataset.ingest host (.ofMemory memory) Policy.legacy.granularity =
        (.ready dataset, host', arena) ∧
      (∀ exchanges rest session,
        body.Passes (.start .legacy dataset host' arena) exchanges rest session →
          session.perform .dataset = some ([1, 2, 3, 0, 0], session)) ∧
      (execute .legacy host memory body).status ≠ .aborted .outOfRange := by
  intro host memory body
  obtain ⟨dataset, host', arena, hready⟩ :=
    exists_ready_of_sizes host memory rfl (PagedMemory.size_ofPages 1 2 1024) rfl
  obtain ⟨-, hpoints, hstatus⟩ := body_isolated hready body
  have hwritten : body.WrittenFor [] := by
    constructor
    · intro number hmem
      cases hmem
    · rintro (error | number)
      · trivial
      · refine ⟨?_, fun _ => trivial⟩
        intro number' hmem
        exact List.mem_singleton.mpr (Option.some.inj hmem).symm
  refine ⟨dataset, host', arena, hready, ?_, hstatus (hwritten.usesOwn _)⟩
  intro exchanges rest session hpath
  exact (hpoints exchanges rest session hpath).dataset_eq

end Bodies
end JobSandbox
