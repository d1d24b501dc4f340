import JobSandbox.Proofs.Arena.History

/-!
# Requests that fail

A request that fails should leave the mark where it was.  An arena that others came before does not
always do so: once the memory has granted it the pages it was short of, it moves its mark up to
them, past the pages of the others, and may find then that the request does not fit any more.  What
was free below the limit is lost.  This module says exactly when that happens.

## Main definitions

* `Arena.Overtaken` — the requests whose first grant is of no use to them.

## Main results

* `serve_of_foreign` — a request that is first granted pages behind those of others.
* `isOk_serve_iff`, `mark_serve_of_error` — the requests of a settled arena fail without a trace.
* `mark_moved_iff_overtaken` — **a request fails and moves the mark just if it is overtaken.**
-/

namespace JobSandbox

open Address Contract

namespace Arena

variable {arena : Arena PagedMemory} {size align : ℕ} {overflow : AllocError}

/-! ### Settled arenas -/

section Settled

variable (h : arena.Sound) (hcap : arena.memory.capacity < addressSpace) (hsettled : arena.Settled)
  (hpow : align.isPowerOfTwo) (halign : align < addressSpace)

include h hcap hsettled hpow halign

/-- A settled arena serves what ends within the capacity. -/
theorem isOk_serve_iff (overflow : AllocError) :
    (∃ region, (arena.serve size align overflow).1 = .ok region) ↔
      arena.targetStop size align ≤ arena.memory.capacity := by
  have hlimit : arena.limit ≤ arena.memory.capacity := h.limit_le.trans h.wellFormed.size_le
  have hout := serve_outcome_of_settled h hcap hsettled hpow halign size overflow
  generalize arena.serve size align overflow = out at hout ⊢
  cases hout with
  | tooFar hfar =>
    constructor
    · rintro ⟨region, ⟨⟩⟩
    · intro hle
      omega
  | room hroom => exact ⟨fun _ => hroom.trans hlimit, fun _ => ⟨_, rfl⟩⟩
  | granted hshort hfits hpages hgrow => exact ⟨fun _ => hfits, fun _ => ⟨_, rfl⟩⟩
  | refused hspace hbeyond hpages hgrow =>
    constructor
    · rintro ⟨region, ⟨⟩⟩
    · intro hle
      omega

/-- A settled arena fails without a trace. -/
theorem mark_serve_of_error {error : AllocError}
    (herror : (arena.serve size align overflow).1 = .error error) :
    (arena.serve size align overflow).2.mark = arena.mark := by
  have hout := serve_outcome_of_settled h hcap hsettled hpow halign size overflow
  generalize arena.serve size align overflow = out at hout herror ⊢
  cases hout with
  | tooFar hfar => rfl
  | room hroom => cases herror
  | granted hshort hfits hpages hgrow => cases herror
  | refused hspace hbeyond hpages hgrow => exact mark_afterGrow _ _

end Settled

/-! ### Arenas that others came before -/

/-- A request whose first grant lies behind pages of others, where there is no room for it within
the capacity. -/
structure Overtaken (arena : Arena PagedMemory) (size align : ℕ) : Prop where
  size_ne_zero : size ≠ 0
  /-- Others have grown the memory behind the limit. -/
  foreign : arena.limit < arena.memory.size
  mark_lt : arena.mark < arena.memory.size
  /-- There is no room below the limit. -/
  short : arena.limit < arena.targetStop size align
  stop_lt : arena.targetStop size align < addressSpace
  /-- The pages that are missing below the limit are granted. -/
  granted : arena.memory.size + pagesFor (arena.targetStop size align - arena.limit) * pageSize ≤
    arena.memory.capacity
  /-- Behind the pages of others, the capacity is too small. -/
  beyond : arena.memory.capacity < leastMultiple align arena.memory.size + size

theorem mark_enlarged (hforeign : arena.limit < arena.memory.size)
    (hmark : arena.mark < arena.memory.size) (pages : ℕ) :
    (arena.enlarged pages).mark = arena.memory.size := by
  rw [enlarged, if_pos hforeign, Nat.max_eq_right hmark.le]

section Overtaken

variable (h : arena.Sound) (hcap : arena.memory.capacity < addressSpace)
  (hpow : align.isPowerOfTwo) (halign : align < addressSpace)

include h hcap hpow halign

/-- A request that is granted pages goes on from behind them. -/
theorem serve_of_granted (overflow : AllocError)
    (hshort : arena.limit < arena.targetStop size align)
    (hstop : arena.targetStop size align < addressSpace) {pages : ℕ}
    (hpages : pages = pagesFor (arena.targetStop size align - arena.limit))
    (hgranted : arena.memory.size + pages * pageSize ≤ arena.memory.capacity) :
    arena.serve size align overflow = (arena.enlarged pages).serve size align overflow ∧
      (arena.enlarged pages).Sound ∧ (arena.enlarged pages).Settled ∧
      (arena.enlarged pages).memory.capacity = arena.memory.capacity := by
  have hgrow : (arena.memory.grow pages).1 = some arena.memory.pages := by
    rw [PagedMemory.grow_answer h.wellFormed hcap, if_pos hgranted]
  refine ⟨serve_of_again ?_, h.enlarged hgrow, settled_enlarged hgrow,
    PagedMemory.capacity_grow _ _⟩
  have hregion : (⟨leastMultiple align arena.mark, size⟩ : Region).stop =
      arena.targetStop size align := rfl
  rw [attempt_of_sound h hcap, target?_eq hpow halign, if_pos hstop]
  dsimp only
  rw [hregion, if_neg (by omega), ← hpages, if_pos hgranted]

/-- A request that is not granted pages fails without a trace. -/
theorem mark_serve_of_not_granted
    (hgranted : arena.targetStop size align < addressSpace →
      arena.limit < arena.targetStop size align → arena.memory.capacity <
        arena.memory.size + pagesFor (arena.targetStop size align - arena.limit) * pageSize)
    {error : AllocError} (herror : (arena.serve size align overflow).1 = .error error) :
    (arena.serve size align overflow).2.mark = arena.mark := by
  have hattempt := attempt_of_sound h hcap size align overflow
  rw [target?_eq hpow halign] at hattempt
  by_cases hspace : arena.targetStop size align < addressSpace
  · rw [if_pos hspace] at hattempt
    have hregion : (⟨leastMultiple align arena.mark, size⟩ : Region).stop =
        arena.targetStop size align := rfl
    dsimp only at hattempt
    rw [hregion] at hattempt
    by_cases hroom : arena.targetStop size align ≤ arena.limit
    · rw [if_pos hroom] at hattempt
      rw [serve_of_done hattempt] at herror
      cases herror
    · have hrefused := hgranted hspace (by omega)
      rw [if_neg hroom, if_neg (Nat.not_le.mpr hrefused)] at hattempt
      rw [serve_of_done hattempt]
      exact mark_afterGrow _ _
  · rw [if_neg hspace] at hattempt
    rw [serve_of_done hattempt]

/-- An overtaken request fails, with the mark at the pages that it was granted. -/
theorem allocate_of_overtaken (hover : arena.Overtaken size align) :
    (∃ error, (arena.allocate size align).1 = .error error) ∧
      (arena.allocate size align).2.mark = arena.memory.size := by
  obtain ⟨hserve, hsound, hsettled, hcapacity⟩ := serve_of_granted h hcap hpow halign
    (.addressOverflow arena.mark size) hover.short hover.stop_lt rfl hover.granted
  have hmark := mark_enlarged hover.foreign hover.mark_lt
    (pagesFor (arena.targetStop size align - arena.limit))
  -- from behind the foreign pages the request does not fit, and nothing moves the mark back
  generalize arena.enlarged _ = after at hserve hsound hsettled hcapacity hmark
  have hspent : ¬∃ region, (after.serve size align (.addressOverflow arena.mark size)).1 =
      .ok region := by
    rw [isOk_serve_iff hsound (lt_of_eq_of_lt hcapacity hcap) hsettled hpow halign, hcapacity,
      targetStop, hmark]
    exact Nat.not_le.mpr hover.beyond
  rw [allocate_of_ne_zero hover.size_ne_zero, hserve]
  cases hresult : (after.serve size align (.addressOverflow arena.mark size)).1 with
  | ok region => exact absurd ⟨region, hresult⟩ hspent
  | error error =>
    refine ⟨⟨error, rfl⟩, ?_⟩
    rw [mark_serve_of_error hsound (lt_of_eq_of_lt hcapacity hcap) hsettled hpow halign hresult,
      hmark]

/-- Only a request that is overtaken fails and moves the mark. -/
theorem overtaken_of_mark_ne {error : AllocError}
    (herror : (arena.allocate size align).1 = .error error)
    (hmoved : (arena.allocate size align).2.mark ≠ arena.mark) : arena.Overtaken size align := by
  have hsize : size ≠ 0 := by
    rintro rfl
    cases herror
  rw [allocate_of_ne_zero hsize] at herror hmoved
  -- without a grant the mark stays, so there was one
  by_cases hgranted : arena.targetStop size align < addressSpace ∧
      arena.limit < arena.targetStop size align ∧
      arena.memory.size + pagesFor (arena.targetStop size align - arena.limit) * pageSize ≤
        arena.memory.capacity
  · obtain ⟨hstop, hshort, hle⟩ := hgranted
    obtain ⟨hserve, hsound, hsettled, hcapacity⟩ := serve_of_granted h hcap hpow halign
      (.addressOverflow arena.mark size) hshort hstop rfl hle
    rw [hserve] at herror hmoved
    rw [mark_serve_of_error hsound (lt_of_eq_of_lt hcapacity hcap) hsettled hpow halign
      herror] at hmoved
    -- the grant has moved the mark, so it was not joined on
    obtain ⟨hforeign, hmark⟩ : arena.limit < arena.memory.size ∧
        arena.mark < arena.memory.size := by
      unfold enlarged at hmoved
      dsimp only at hmoved
      split at hmoved <;> omega
    refine ⟨hsize, hforeign, hmark, hshort, hstop, hle, Nat.not_le.mp fun hfits => ?_⟩
    rw [← hcapacity, ← mark_enlarged hforeign hmark
      (pagesFor (arena.targetStop size align - arena.limit))] at hfits
    obtain ⟨region, hok⟩ := (isOk_serve_iff hsound (lt_of_eq_of_lt hcapacity hcap) hsettled
      hpow halign (.addressOverflow arena.mark size)).mpr hfits
    rw [herror] at hok
    cases hok
  · refine absurd (mark_serve_of_not_granted h hcap hpow halign ?_ herror) hmoved
    intro hstop hshort
    exact Nat.not_le.mp fun hle => hgranted ⟨hstop, hshort, hle⟩

end Overtaken
end Arena

namespace History

/-- **A request fails and moves the mark just if it is overtaken**, whatever has happened to the
arena before.  The mark is then at the pages that the request was granted in vain. -/
theorem mark_moved_iff_overtaken {maxPages align : ℕ} (hcap : maxPages * pageSize < addressSpace)
    (hpow : align.isPowerOfTwo) (halign : align < addressSpace) (initialPages heapBase size : ℕ)
    (events : List Event) :
    let arena := ((start (PagedMemory.ofPages initialPages maxPages heapBase)).run events).arena
    let out := arena.allocate size align
    ((∃ error, out.1 = .error error) ∧ out.2.mark ≠ arena.mark ↔ arena.Overtaken size align) ∧
      (arena.Overtaken size align → out.2.mark = arena.memory.size) := by
  intro arena out
  obtain ⟨hsound, hcapacity⟩ := sound_run_start initialPages maxPages heapBase events
  have hcap' : arena.memory.capacity < addressSpace := lt_of_eq_of_lt hcapacity hcap
  refine ⟨⟨?_, fun hover => ?_⟩, fun hover => ?_⟩
  · rintro ⟨⟨error, herror⟩, hmoved⟩
    exact Arena.overtaken_of_mark_ne hsound hcap' hpow halign herror hmoved
  · obtain ⟨herror, hmark⟩ := Arena.allocate_of_overtaken hsound hcap' hpow halign hover
    exact ⟨herror, fun heq => hover.mark_lt.ne (heq.symm.trans hmark)⟩
  · exact (Arena.allocate_of_overtaken hsound hcap' hpow halign hover).2

/-- One page of three, one more for others, then a request for two pages: the third page is granted
to no use. -/
theorem overtaken_of_sizes {memory : PagedMemory} (hwell : memory.WellFormed)
    (hbase : memory.heapBase = 0) (hfirst : memory.size = 1 * pageSize)
    (hcapacity : memory.capacity = 3 * pageSize) :
    ((start memory).run [.growth 1]).arena.Overtaken (2 * pageSize) 8 := by
  have hgrow : (memory.grow 1).1 = some memory.pages := by
    rw [PagedMemory.grow_answer hwell (lt_of_eq_of_lt hcapacity (by decide)),
      if_pos (by rw [hfirst, hcapacity]; decide)]
  have hsize : (memory.grow 1).2.size = 2 * pageSize := by
    rw [PagedMemory.size_grow_of_granted hgrow, hfirst, ← Nat.add_mul]
  have harena : ((start memory).run [.growth 1]).arena =
      ⟨(memory.grow 1).2, memory.heapBase, memory.size⟩ := rfl
  rw [hbase, hfirst] at harena
  have hstop : (⟨(memory.grow 1).2, 0, 1 * pageSize⟩ : Arena PagedMemory).targetStop
      (2 * pageSize) 8 = 2 * pageSize := by
    rw [Arena.targetStop, leastMultiple_of_dvd (by decide) (Nat.dvd_zero 8), Nat.zero_add]
  have hleast : leastMultiple 8 (2 * pageSize) = 2 * pageSize :=
    leastMultiple_of_dvd (by decide) (by decide)
  have hpages : pagesFor (2 * pageSize - 1 * pageSize) = 1 := by decide
  rw [harena]
  refine ⟨by decide, ?_, ?_, ?_, ?_, ?_, ?_⟩
  · simp only [hsize]
    decide
  · simp only [hsize]
    decide
  · simp only [hstop]
    decide
  · simp only [hstop]
    decide
  · simp only [hsize, hstop, hpages, PagedMemory.capacity_grow, hcapacity]
    decide
  · simp only [hsize, hleast, PagedMemory.capacity_grow, hcapacity]
    decide

theorem overtaken_of_two_pages :
    ((start (PagedMemory.ofPages 1 3 0)).run [.growth 1]).arena.Overtaken (2 * pageSize) 8 :=
  overtaken_of_sizes (PagedMemory.wellFormed_ofPages 1 3 0) rfl (PagedMemory.size_ofPages 1 3 0) rfl

/-- A failed request may move the mark. -/
theorem exists_mark_moved_of_error :
    ¬∀ (initialPages maxPages heapBase : ℕ) (events : List Event) (size align : ℕ),
      maxPages * pageSize < addressSpace → align.isPowerOfTwo → align < addressSpace →
      let arena := ((start (PagedMemory.ofPages initialPages maxPages heapBase)).run events).arena
      ∀ error, (arena.allocate size align).1 = .error error →
        (arena.allocate size align).2.mark = arena.mark := by
  intro hstays
  obtain ⟨hsound, hcapacity⟩ := sound_run_start 1 3 0 [.growth 1]
  have hpow : (8).isPowerOfTwo := ⟨3, rfl⟩
  have hover := overtaken_of_two_pages
  obtain ⟨⟨error, herror⟩, hmark⟩ := Arena.allocate_of_overtaken hsound
    (lt_of_eq_of_lt hcapacity (by decide)) hpow (by decide) hover
  have hkept := hstays 1 3 0 [.growth 1] (2 * pageSize) 8 (by decide) hpow (by decide) error herror
  exact hover.mark_lt.ne (hkept.symm.trans hmark)

theorem mark_moved_of_two_pages :
    3 * pageSize < addressSpace ∧ (8).isPowerOfTwo ∧ 8 < addressSpace ∧
      let arena := ((start (PagedMemory.ofPages 1 3 0)).run [.growth 1]).arena
      (∃ error, (arena.allocate (2 * pageSize) 8).1 = .error error) ∧
        (arena.allocate (2 * pageSize) 8).2.mark ≠ arena.mark ∧
        (arena.allocate (2 * pageSize) 8).2.mark = arena.memory.size := by
  have hcap : 3 * pageSize < addressSpace := by decide
  have hpow : (8).isPowerOfTwo := ⟨3, rfl⟩
  have halign : 8 < addressSpace := by decide
  obtain ⟨hiff, hmark⟩ :=
    mark_moved_iff_overtaken hcap hpow halign 1 0 (2 * pageSize) [.growth 1]
  obtain ⟨herror, hmoved⟩ := hiff.mpr overtaken_of_two_pages
  exact ⟨hcap, hpow, halign, herror, hmoved, hmark overtaken_of_two_pages⟩

end History
end JobSandbox
