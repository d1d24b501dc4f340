import JobSandbox.Proofs.Arena.History

/-!
# The arena as a bump allocator

An arena that has its memory to itself is an ideal bump allocator: one that rounds its mark up, adds
the size, and looks whether the sum is within what there can be.  Limit, pages and the tries of a
request do not show in its answers; of the pages it only ever asks for those that are missing.

## Main definitions

* `Bump.Request` — a size, and an alignment that is a power of two.
* `Bump.answer`, `Bump.next`, `Bump.run` — the ideal allocator.
* `Bump.Refines` — what an arena has in common with the ideal.

## Main results

* `Bump.Refines.allocate` — one request is answered as by the ideal.
* `allocates_as_bump` — **so are all requests, and each of them grows the memory at most once.**
-/

namespace JobSandbox

open Address Contract

/-! ### The ideal -/

/-- An allocator that knows how far it has come.  The rest says what its memory is like. -/
structure Bump where
  mark : ℕ
  /-- The highest end of what was handed out. -/
  top : ℕ
  firstPages : ℕ
  capacity : ℕ
  deriving DecidableEq, Repr

namespace Bump

/-- A request of any size, aligned to a power of two. -/
structure Request where
  size : ℕ
  align : ℕ
  isPowerOfTwo : align.isPowerOfTwo
  align_lt : align < addressSpace

/-- The request as an event in the history of an arena. -/
def Request.event (request : Request) : Event := .request request.size request.align

/-- An allocator that has handed out nothing yet. -/
def start (initialPages maxPages heapBase : ℕ) : Bump where
  mark := heapBase
  top := 0
  firstPages := min initialPages maxPages
  capacity := maxPages * pageSize

/-- As many pages as there were at first, or as it takes to reach the top. -/
def pages (bump : Bump) : ℕ := max bump.firstPages (bump.top ⌈/⌉ pageSize)

/-- Where a request would end: its size behind the least multiple from the mark on. -/
def stop (bump : Bump) (request : Request) : ℕ :=
  leastMultiple request.align bump.mark + request.size

/-- The answer to a request. -/
def answer (bump : Bump) (request : Request) : Except AllocError Region :=
  if request.size = 0 then .ok ⟨bump.mark, 0⟩
  else if addressSpace ≤ bump.stop request then .error (.addressOverflow bump.mark request.size)
  else if bump.capacity < bump.stop request then
    .error (.outOfMemory request.size ((bump.stop request - bump.pages * pageSize) ⌈/⌉ pageSize))
  else .ok ⟨leastMultiple request.align bump.mark, request.size⟩

/-- What a region does to the allocator that hands it out.  An empty one does nothing. -/
def handOut (bump : Bump) (region : Region) : Bump :=
  if region.length = 0 then bump
  else { bump with mark := region.stop, top := max bump.top region.stop }

/-- The allocator after a request.  One that fails does nothing. -/
def next (bump : Bump) (request : Request) : Bump :=
  match bump.answer request with
  | .ok region => bump.handOut region
  | .error _ => bump

/-- The allocator after more requests. -/
def run (bump : Bump) (requests : List Request) : Bump := requests.foldl next bump

/-- Whether a request needs more pages than there are. -/
def Grows (bump : Bump) (request : Request) : Prop :=
  request.size ≠ 0 ∧ bump.stop request < addressSpace ∧ bump.pages * pageSize < bump.stop request

instance (bump : Bump) (request : Request) : Decidable (bump.Grows request) :=
  inferInstanceAs (Decidable (_ ∧ _))

/-! ### Refinement -/

variable {bump : Bump} {arena : Arena PagedMemory}

/-- What an arena has in common with the ideal. -/
structure Refines (bump : Bump) (arena : Arena PagedMemory) : Prop where
  sound : arena.Sound
  settled : arena.Settled
  mark_eq : arena.mark = bump.mark
  pages_eq : arena.memory.pages = bump.pages
  capacity_eq : arena.memory.capacity = bump.capacity

theorem refines_start (initialPages maxPages heapBase : ℕ) :
    Refines (start initialPages maxPages heapBase)
      (.ofMemory (PagedMemory.ofPages initialPages maxPages heapBase)) where
  sound := Arena.sound_ofMemory (PagedMemory.wellFormed_ofPages _ _ _)
  settled := Arena.settled_ofMemory _
  mark_eq := rfl
  pages_eq := by
    rw [pages, start, zero_ceilDiv, Nat.max_zero]
    exact PagedMemory.pages_ofPages _ _ _
  capacity_eq := rfl

theorem Refines.limit_eq (h : bump.Refines arena) : arena.limit = bump.pages * pageSize := by
  rw [← h.pages_eq, h.sound.wellFormed.pages_mul]
  exact h.settled

theorem next_of_ok {request : Request} {region : Region} (h : bump.answer request = .ok region) :
    bump.next request = bump.handOut region := by
  rw [next, h]

theorem next_of_error {request : Request} {error : AllocError}
    (h : bump.answer request = .error error) : bump.next request = bump := by
  rw [next, h]

theorem handOut_setting (bump : Bump) (region : Region) :
    (bump.handOut region).firstPages = bump.firstPages ∧
      (bump.handOut region).capacity = bump.capacity := by
  unfold handOut
  split <;> exact ⟨rfl, rfl⟩

theorem next_setting (bump : Bump) (request : Request) :
    (bump.next request).firstPages = bump.firstPages ∧
      (bump.next request).capacity = bump.capacity := by
  cases hanswer : bump.answer request with
  | ok region =>
    rw [next_of_ok hanswer]
    exact handOut_setting bump region
  | error error =>
    rw [next_of_error hanswer]
    exact ⟨rfl, rfl⟩

/-- What the memory is like does not change. -/
theorem run_setting (bump : Bump) (requests : List Request) :
    (bump.run requests).firstPages = bump.firstPages ∧
      (bump.run requests).capacity = bump.capacity := by
  induction requests generalizing bump with
  | nil => exact ⟨rfl, rfl⟩
  | cons request requests ih =>
    obtain ⟨hfirst, hcapacity⟩ := next_setting bump request
    rw [← hfirst, ← hcapacity]
    exact ih (bump.next request)

theorem pages_handOut (bump : Bump) {region : Region} (h : region.length ≠ 0) :
    (bump.handOut region).pages = max bump.pages (pagesFor region.stop) := by
  have hmax : pagesFor (max bump.top region.stop) =
      max (pagesFor bump.top) (pagesFor region.stop) := by
    unfold pagesFor pageSize
    omega
  rw [handOut, if_neg h]
  simp only [pages, ← pagesFor_eq_ceilDiv, hmax, Nat.max_assoc]

/-- The answers to requests for at least one byte. -/
theorem answer_of_ne_zero (bump : Bump) {request : Request} (hsize : request.size ≠ 0) :
    bump.answer request =
      if addressSpace ≤ bump.stop request then .error (.addressOverflow bump.mark request.size)
      else if bump.capacity < bump.stop request then
        .error (.outOfMemory request.size (pagesFor (bump.stop request - bump.pages * pageSize)))
      else .ok ⟨leastMultiple request.align bump.mark, request.size⟩ :=
  if_neg hsize

/-- What fits is handed out. -/
theorem answer_of_fits (hcap : bump.capacity < addressSpace) {request : Request}
    (hsize : request.size ≠ 0) (hfits : bump.stop request ≤ bump.capacity) :
    bump.answer request = .ok ⟨leastMultiple request.align bump.mark, request.size⟩ := by
  rw [answer_of_ne_zero bump hsize, if_neg (by omega), if_neg (by omega)]

/-- What fits moves the mark to its end. -/
theorem mark_next_of_fits (hcap : bump.capacity < addressSpace) {request : Request}
    (hsize : request.size ≠ 0) (hfits : bump.stop request ≤ bump.capacity) :
    (bump.next request).mark = bump.stop request := by
  rw [next_of_ok (answer_of_fits hcap hsize hfits), handOut, if_neg hsize]
  rfl

/-- What does not fit is refused, for one cause of two. -/
theorem exists_answer_of_beyond {request : Request} (hsize : request.size ≠ 0)
    (hbeyond : bump.capacity < bump.stop request) :
    ∃ error, bump.answer request = .error error ∧
      error.trapCode =
        if addressSpace ≤ bump.stop request then trapAddressOverflow else trapOutOfMemory := by
  rw [answer_of_ne_zero bump hsize, if_pos hbeyond]
  split
  · exact ⟨_, rfl, rfl⟩
  · exact ⟨_, rfl, rfl⟩

/-- What a request of an arena comes to, measured by the ideal. -/
structure AnswersAs (bump : Bump) (request : Request) (arena : Arena PagedMemory)
    (out : Except AllocError Region × Arena PagedMemory) : Prop where
  answer_eq : out.1 = bump.answer request
  refines : (bump.next request).Refines out.2
  growCalls_eq : out.2.memory.growCalls =
    arena.memory.growCalls + if bump.Grows request then 1 else 0

/-- A refusal leaves the ideal where it is. -/
theorem AnswersAs.of_error {request : Request} {error : AllocError} {after : Arena PagedMemory}
    (hanswer : bump.answer request = .error error) (hafter : bump.Refines after)
    (hcalls : after.memory.growCalls =
      arena.memory.growCalls + if bump.Grows request then 1 else 0) :
    bump.AnswersAs request arena (.error error, after) := by
  refine ⟨hanswer.symm, ?_, hcalls⟩
  rw [next_of_error hanswer]
  exact hafter

theorem AnswersAs.of_ok {request : Request} {region : Region} {after : Arena PagedMemory}
    (hanswer : bump.answer request = .ok region) (hafter : (bump.handOut region).Refines after)
    (hcalls : after.memory.growCalls =
      arena.memory.growCalls + if bump.Grows request then 1 else 0) :
    bump.AnswersAs request arena (.ok region, after) := by
  refine ⟨hanswer.symm, ?_, hcalls⟩
  rw [next_of_ok hanswer]
  exact hafter

/-- Handing out a region takes the arena to where it takes the ideal. -/
theorem Refines.handOut (h : bump.Refines arena) {region : Region} (hlength : region.length ≠ 0)
    {after : Arena PagedMemory} (hsound : after.Sound) (hsettled : after.Settled)
    (hmark : after.mark = region.stop)
    (hpages : after.memory.pages = max bump.pages (pagesFor region.stop))
    (hcapacity : after.memory.capacity = arena.memory.capacity) :
    (bump.handOut region).Refines after where
  sound := hsound
  settled := hsettled
  mark_eq := by rw [hmark, Bump.handOut, if_neg hlength]
  pages_eq := by rw [hpages, pages_handOut bump hlength]
  capacity_eq := by rw [hcapacity, h.capacity_eq, Bump.handOut, if_neg hlength]

/-- A memory that has refused to grow is no other for it. -/
theorem Refines.afterGrow (h : bump.Refines arena) {pages : ℕ}
    (hgrow : (arena.memory.grow pages).1 = none) : bump.Refines (arena.afterGrow pages) where
  sound := (Arena.Advanced.afterGrow h.sound pages).sound
  settled := h.settled.trans (PagedMemory.size_grow_of_refused hgrow).symm
  mark_eq := h.mark_eq
  pages_eq := (PagedMemory.pages_grow_of_refused hgrow).trans h.pages_eq
  capacity_eq := (PagedMemory.capacity_grow _ _).trans h.capacity_eq

/-- **One request is answered as by the ideal.** -/
theorem Refines.allocate (h : bump.Refines arena) (hcap : bump.capacity < addressSpace)
    (request : Request) :
    bump.AnswersAs request arena (arena.allocate request.size request.align) := by
  have hlimit : arena.limit = bump.pages * pageSize := h.limit_eq
  have hle : arena.limit ≤ bump.capacity := by
    rw [← h.capacity_eq]
    exact h.sound.limit_le.trans h.sound.wellFormed.size_le
  by_cases hsize : request.size = 0
  · have hgrows : ¬bump.Grows request := by
      intro hgrows
      exact hgrows.1 hsize
    rw [hsize, Arena.allocate_zero, h.mark_eq]
    refine .of_ok (if_pos hsize) h ?_
    rw [if_neg hgrows, Nat.add_zero]
  -- from the same mark, both measure the request to the same end
  have hstop : arena.targetStop request.size request.align = bump.stop request := by
    rw [Arena.targetStop, h.mark_eq, stop]
  have hout := Arena.serve_outcome_of_settled h.sound (lt_of_eq_of_lt h.capacity_eq hcap) h.settled
    request.isPowerOfTwo request.align_lt request.size (.addressOverflow arena.mark request.size)
  have hanswer := bump.answer_of_ne_zero hsize
  rw [Arena.allocate_of_ne_zero hsize]
  generalize arena.serve request.size request.align _ = out at hout ⊢
  -- a settled arena decides a request at once or after one grant, in one of four ways
  cases hout with
  | tooFar hfar =>
    rw [hstop] at hfar
    have hgrows : ¬bump.Grows request := by
      intro hgrows
      exact absurd hgrows.2.1 (Nat.not_lt.mpr hfar)
    rw [if_pos hfar, ← h.mark_eq] at hanswer
    refine .of_error hanswer h ?_
    rw [if_neg hgrows, Nat.add_zero]
  | room hroom =>
    rw [hstop] at hroom ⊢
    have hgrows : ¬bump.Grows request := by
      intro hgrows
      have hbehind := hgrows.2.2
      omega
    have hpages : pagesFor (arena.targetStop request.size request.align) ≤ bump.pages := by
      rw [hstop, pagesFor_le_iff]
      omega
    rw [if_neg (by omega), if_neg (by omega), ← h.mark_eq] at hanswer
    refine .of_ok hanswer ?_ ?_
    · refine h.handOut hsize ⟨h.sound.wellFormed, h.sound.limit_le⟩ h.settled hstop.symm ?_ rfl
      exact h.pages_eq.trans (Nat.max_eq_left hpages).symm
    · rw [if_neg hgrows, Nat.add_zero]
  | granted hshort hfits hpages hgrow =>
    rw [hstop] at hshort hfits hpages ⊢
    rw [h.capacity_eq] at hfits
    have hgrows : bump.Grows request := ⟨hsize, by omega, by omega⟩
    have hsound := h.sound.enlarged hgrow
    rw [if_neg (by omega), if_neg (by omega), ← h.mark_eq] at hanswer
    refine .of_ok hanswer ?_ ?_
    · refine h.handOut hsize ⟨hsound.wellFormed, hsound.limit_le⟩ (Arena.settled_enlarged hgrow)
        hstop.symm ?_ (PagedMemory.capacity_grow _ _)
      -- the pages that are missing make up the pages up to the end
      refine (h.sound.wellFormed.pages_grow_of_granted hgrow).trans ?_
      rw [h.pages_eq, hpages, hlimit, add_pagesFor_sub, ← hstop]
      rfl
    · rw [if_pos hgrows]
      exact PagedMemory.growCalls_grow _ _
  | refused hspace hbeyond hpages hgrow =>
    rw [hstop] at hspace hbeyond hpages
    rw [h.capacity_eq] at hbeyond
    have hgrows : bump.Grows request := ⟨hsize, hspace, by omega⟩
    rw [if_neg (by omega), if_pos hbeyond, ← hlimit, ← hpages] at hanswer
    refine .of_error hanswer (h.afterGrow hgrow) ?_
    rw [if_pos hgrows]
    exact PagedMemory.growCalls_grow _ _

/-! ### Whole histories -/

/-- **After any number of requests, the arena is where the ideal is.** -/
theorem Refines.run {history : History PagedMemory} (h : bump.Refines history.arena)
    (hcap : bump.capacity < addressSpace) (requests : List Request) :
    (bump.run requests).Refines (history.run (requests.map Request.event)).arena := by
  induction requests generalizing bump history with
  | nil => exact h
  | cons request requests ih =>
    have hnext := (h.allocate hcap request).refines
    have hcapacity : (bump.next request).capacity = bump.capacity :=
      (next_setting bump request).2
    rw [List.map_cons, History.run_cons]
    refine ih ?_ (lt_of_eq_of_lt hcapacity hcap)
    rw [Request.event, History.arena_next_request]
    exact hnext

end Bump

namespace History

/-- **An arena that has its memory to itself answers every request as the ideal does**, whatever
was asked before.  Its limit is the end of its memory; its pages are those it began with, or as many
as reach up to the highest end that was handed out; a request that fails leaves mark, limit and
pages as they were; and the memory is asked to grow once for a request that ends in the address
space and behind all pages, and else not at all. -/
theorem allocates_as_bump {maxPages : ℕ} (hcap : maxPages * pageSize < addressSpace)
    (initialPages heapBase : ℕ) (past : List Bump.Request) (request : Bump.Request) :
    let memory := PagedMemory.ofPages initialPages maxPages heapBase
    let arena := ((start memory).run (past.map Bump.Request.event)).arena
    let bump := (Bump.start initialPages maxPages heapBase).run past
    let out := arena.allocate request.size request.align
    (arena.mark = bump.mark ∧ arena.limit = arena.memory.size ∧
      arena.memory.pages = max (min initialPages maxPages) (bump.top ⌈/⌉ pageSize)) ∧
    (out.1 = bump.answer request ∧ out.2.mark = (bump.next request).mark ∧
      out.2.limit = out.2.memory.size ∧
      out.2.memory.pages =
        max (min initialPages maxPages) ((bump.next request).top ⌈/⌉ pageSize)) ∧
    (request.size = 0 → out = (.ok ⟨arena.mark, 0⟩, arena)) ∧
    (∀ error, out.1 = .error error → out.2.mark = arena.mark ∧ out.2.limit = arena.limit ∧
      out.2.memory.pages = arena.memory.pages) ∧
    out.2.memory.growCalls = arena.memory.growCalls +
      if request.size ≠ 0 ∧ bump.stop request < addressSpace ∧
        arena.memory.size < bump.stop request then 1 else 0 := by
  intro memory arena bump out
  have hrefines : bump.Refines arena :=
    (Bump.refines_start initialPages maxPages heapBase).run hcap past
  obtain ⟨hfirst, hcapacity⟩ : bump.firstPages = min initialPages maxPages ∧
      bump.capacity = maxPages * pageSize :=
    (Bump.start initialPages maxPages heapBase).run_setting past
  obtain ⟨hfirst', -⟩ := bump.next_setting request
  obtain ⟨hanswer, hnext, hgrowCalls⟩ :=
    hrefines.allocate (lt_of_eq_of_lt hcapacity hcap) request
  have hsize : arena.memory.size = bump.pages * pageSize :=
    hrefines.settled.symm.trans hrefines.limit_eq
  refine ⟨⟨hrefines.mark_eq, hrefines.settled, ?_⟩, ⟨hanswer, hnext.mark_eq, hnext.settled, ?_⟩,
    fun hzero => ?_, fun error herror => ?_, ?_⟩
  · rw [hrefines.pages_eq, Bump.pages, hfirst]
  · rw [hnext.pages_eq, Bump.pages, hfirst', hfirst]
  · show arena.allocate request.size request.align = _
    rw [hzero, Arena.allocate_zero]
  · rw [hanswer] at herror
    rw [Bump.next_of_error herror] at hnext
    exact ⟨hnext.mark_eq.trans hrefines.mark_eq.symm, hnext.limit_eq.trans hrefines.limit_eq.symm,
      hnext.pages_eq.trans hrefines.pages_eq.symm⟩
  · rw [hsize]
    exact hgrowCalls

/-- A request that rounds its start up, ends behind the first page and takes one more. -/
theorem allocates_as_bump_behind_page :
    3 * pageSize < addressSpace ∧
      let small : Bump.Request := ⟨64, 8, ⟨3, rfl⟩, by decide⟩
      let arena := ((start (PagedMemory.ofPages 1 3 0)).run ([small].map Bump.Request.event)).arena
      (arena.allocate 65536 4096).1 = .ok ⟨4096, 65536⟩ ∧
        (arena.allocate 65536 4096).2.mark = 69632 ∧
        (arena.allocate 65536 4096).2.memory.pages = 2 := by
  have hcap : 3 * pageSize < addressSpace := by decide
  obtain ⟨-, ⟨hanswer, hmark, -, hpages⟩, -⟩ :=
    allocates_as_bump hcap 1 0 [⟨64, 8, ⟨3, rfl⟩, by decide⟩] ⟨65536, 4096, ⟨12, rfl⟩, by decide⟩
  have hrun : (Bump.start 1 3 0).run [⟨64, 8, ⟨3, rfl⟩, by decide⟩] =
      ⟨64, 64, 1, 3 * pageSize⟩ := by
    decide +kernel
  have hstop : Bump.stop ⟨64, 64, 1, 3 * pageSize⟩ ⟨65536, 4096, ⟨12, rfl⟩, by decide⟩ =
      69632 := by
    decide
  have hok : Bump.answer ⟨64, 64, 1, 3 * pageSize⟩ ⟨65536, 4096, ⟨12, rfl⟩, by decide⟩ =
      .ok ⟨4096, 65536⟩ := by
    rw [Bump.answer_of_ne_zero _ (by decide), hstop]
    decide
  rw [hrun] at hanswer hmark hpages
  rw [Bump.next_of_ok hok] at hmark hpages
  exact ⟨hcap, hanswer.trans hok, hmark.trans (by decide), hpages.trans (by decide)⟩

end History
end JobSandbox
