import JobSandbox.Proofs.Arena.Tries
import JobSandbox.Proofs.Memory

/-!
# An arena over a paged memory

Over a paged memory the outcome of a request can be told beforehand.  An arena is sound when its
limit lies inside its memory, and settled when the two end at the same address, that is when nobody
else has grown the memory since the arena last did.  A settled arena serves a request with one
grant at most; any other arena is settled by its first grant.

## Main definitions

* `Arena.Sound`, `Arena.Settled` — how the limit lies to the end of the memory.
* `Arena.enlarged` — the arena behind a grant.
* `Arena.Advanced` — how an arena may change while it serves requests.

## Main results

* `attempt_of_sound` — one try over a paged memory, as an equation.
* `serve_of_settled` — a whole request of a settled arena, as an equation.
* `advanced_allocate` — no request does more than advance its arena.
* `grownFrom_allocate` — no request touches the bytes that are there.
-/

namespace JobSandbox

open Address Contract

namespace Arena

variable {arena after : Arena PagedMemory} {size align : ℕ} {overflow : AllocError}

/-- The memory is well formed, and the limit lies inside it. -/
structure Sound (arena : Arena PagedMemory) : Prop where
  wellFormed : arena.memory.WellFormed
  limit_le : arena.limit ≤ arena.memory.size

/-- The limit is the end of the memory. -/
def Settled (arena : Arena PagedMemory) : Prop := arena.limit = arena.memory.size

theorem sound_ofMemory {memory : PagedMemory} (h : memory.WellFormed) : (ofMemory memory).Sound :=
  ⟨h, le_rfl⟩

theorem settled_ofMemory (memory : PagedMemory) : (ofMemory memory).Settled := rfl

/-! ### One try -/

/-- The arena behind a grant. -/
def enlarged (arena : Arena PagedMemory) (pages : ℕ) : Arena PagedMemory where
  memory := (arena.memory.grow pages).2
  mark := if arena.limit < arena.memory.size then max arena.mark arena.memory.size else arena.mark
  limit := arena.memory.size + pages * pageSize

/-- Asking a paged memory for pages: it grows up to its capacity. -/
theorem extend_of_sound (h : arena.Sound) (hcap : arena.memory.capacity < addressSpace)
    (size pages : ℕ) (overflow : AllocError) :
    arena.extend size pages overflow =
      if arena.memory.size + pages * pageSize ≤ arena.memory.capacity then
        .again (arena.enlarged pages)
      else .done (.error (.outOfMemory size pages)) (arena.afterGrow pages) := by
  have hanswer := PagedMemory.grow_answer h.wellFormed hcap pages
  have hgrow : LinearMemory.grow arena.memory pages = arena.memory.grow pages := rfl
  rw [extend, hgrow, hanswer]
  by_cases hle : arena.memory.size + pages * pageSize ≤ arena.memory.capacity
  · rw [if_pos hle, if_pos hle]
    have hprev := h.wellFormed.pages_mul
    have hrange : grantRange? arena.memory.pages pages =
        some (arena.memory.size, arena.memory.size + pages * pageSize) :=
      grantRange?_eq_some_iff.mpr ⟨hprev.symm, by rw [hprev], lt_of_le_of_lt hle hcap⟩
    dsimp only
    rw [hrange]
    rfl
  · rw [if_neg hle, if_neg hle]

/-- **One try over a paged memory.** -/
theorem attempt_of_sound (h : arena.Sound) (hcap : arena.memory.capacity < addressSpace)
    (size align : ℕ) (overflow : AllocError) :
    arena.attempt size align overflow =
      match arena.target? size align with
      | none => .done (.error overflow) arena
      | some region =>
        if region.stop ≤ arena.limit then .done (.ok region) { arena with mark := region.stop }
        else if arena.memory.size + pagesFor (region.stop - arena.limit) * pageSize ≤
            arena.memory.capacity then
          .again (arena.enlarged (pagesFor (region.stop - arena.limit)))
        else
          .done (.error (.outOfMemory size (pagesFor (region.stop - arena.limit))))
            (arena.afterGrow (pagesFor (region.stop - arena.limit))) := by
  rw [attempt_eq]
  cases arena.target? size align with
  | none => rfl
  | some region =>
    dsimp only
    rw [extend_of_sound h hcap]

/-! ### What a grant makes of an arena -/

section Grant

variable {pages prev : ℕ}

theorem size_enlarged (hgrow : (arena.memory.grow pages).1 = some prev) :
    (arena.enlarged pages).memory.size = arena.memory.size + pages * pageSize :=
  PagedMemory.size_grow_of_granted hgrow

theorem settled_enlarged (hgrow : (arena.memory.grow pages).1 = some prev) :
    (arena.enlarged pages).Settled :=
  (size_enlarged hgrow).symm

theorem Sound.enlarged (h : arena.Sound) (hgrow : (arena.memory.grow pages).1 = some prev) :
    (arena.enlarged pages).Sound :=
  ⟨h.wellFormed.grow pages, (settled_enlarged hgrow).le⟩

/-- The grant starts at the old end of the memory. -/
theorem granted_eq_enlarged (h : arena.Sound) (hgrow : (arena.memory.grow pages).1 = some prev) :
    (arena.afterGrow pages).granted (prev * pageSize) (prev * pageSize + pages * pageSize) =
      arena.enlarged pages := by
  obtain ⟨rfl, -, -⟩ := PagedMemory.grow_eq_some hgrow
  rw [h.wellFormed.pages_mul]
  rfl

end Grant

/-- The pages that are missing up to an address can be had exactly if the address is within the
capacity. -/
theorem size_add_pagesFor_le_iff {memory : PagedMemory} (h : memory.WellFormed) {stop : ℕ}
    (hstop : memory.size ≤ stop) :
    memory.size + pagesFor (stop - memory.size) * pageSize ≤ memory.capacity ↔
      stop ≤ memory.capacity := by
  have hpages : memory.size + pagesFor (stop - memory.size) * pageSize ≤ memory.capacity ↔
      pagesFor (stop - memory.size) ≤ memory.maxPages - memory.pages := by
    rw [← h.pages_mul, ← Nat.add_mul, PagedMemory.capacity,
      Nat.mul_le_mul_right_iff (by decide), Nat.le_sub_iff_add_le h.pages_le, Nat.add_comm]
  rw [hpages, pagesFor_le_iff, Nat.sub_mul, h.pages_mul, ← PagedMemory.capacity]
  have := h.size_le
  omega

/-! ### Requests of a settled arena -/

/-- The pages that a settled arena is short of reach up to the target, which they do not move. -/
theorem room_enlarged (h : arena.Settled) {region : Region}
    (htarget : arena.target? size align = some region) :
    (arena.enlarged (pagesFor (region.stop - arena.limit))).target? size align = some region ∧
      region.stop ≤ (arena.enlarged (pagesFor (region.stop - arena.limit))).limit := by
  unfold Settled at h
  have hcover := le_pagesFor_mul (region.stop - arena.limit)
  generalize pagesFor (region.stop - arena.limit) = pages at hcover ⊢
  have hmark : (arena.enlarged pages).mark = arena.mark := by
    rw [enlarged, if_neg (by omega)]
  have hlimit : (arena.enlarged pages).limit = arena.memory.size + pages * pageSize := rfl
  refine ⟨?_, by omega⟩
  rw [target?, hmark]
  exact htarget

/-- **A settled arena serves a request with one grant at most**, and serves it if the request ends
within the capacity. -/
theorem serve_of_settled (h : arena.Sound) (hcap : arena.memory.capacity < addressSpace)
    (hsettled : arena.Settled) (size align : ℕ) (overflow : AllocError) :
    arena.serve size align overflow =
      match arena.target? size align with
      | none => (.error overflow, arena)
      | some region =>
        if region.stop ≤ arena.limit then (.ok region, { arena with mark := region.stop })
        else if region.stop ≤ arena.memory.capacity then
          (.ok region,
            { arena.enlarged (pagesFor (region.stop - arena.limit)) with mark := region.stop })
        else
          (.error (.outOfMemory size (pagesFor (region.stop - arena.limit))),
            arena.afterGrow (pagesFor (region.stop - arena.limit))) := by
  have hattempt := attempt_of_sound h hcap size align overflow
  cases htarget : arena.target? size align with
  | none =>
    rw [htarget] at hattempt
    exact serve_of_done hattempt
  | some region =>
    rw [htarget] at hattempt
    dsimp only at hattempt ⊢
    by_cases hroom : region.stop ≤ arena.limit
    · rw [if_pos hroom] at hattempt ⊢
      exact serve_of_done hattempt
    rw [if_neg hroom] at hattempt ⊢
    have hiff : arena.memory.size + pagesFor (region.stop - arena.limit) * pageSize ≤
        arena.memory.capacity ↔ region.stop ≤ arena.memory.capacity := by
      rw [hsettled]
      have hlimit : arena.limit = arena.memory.size := hsettled
      exact size_add_pagesFor_le_iff h.wellFormed (by omega)
    simp only [hiff] at hattempt
    by_cases hfits : region.stop ≤ arena.memory.capacity
    · rw [if_pos hfits] at hattempt ⊢
      obtain ⟨htarget', hroom'⟩ := room_enlarged hsettled htarget
      rw [serve_of_again hattempt]
      refine serve_of_done ?_
      rw [attempt_eq, htarget']
      exact if_pos hroom'
    · rw [if_neg hfits] at hattempt ⊢
      exact serve_of_done hattempt

/-- The ways a request of a settled arena can end. -/
inductive SettledOutcome (arena : Arena PagedMemory) (size align : ℕ) (overflow : AllocError) :
    Except AllocError Region × Arena PagedMemory → Prop where
  /-- The request would leave the address space. -/
  | tooFar (hfar : addressSpace ≤ arena.targetStop size align) :
      SettledOutcome arena size align overflow (.error overflow, arena)
  /-- There is room below the limit. -/
  | room (hroom : arena.targetStop size align ≤ arena.limit) :
      SettledOutcome arena size align overflow
        (.ok ⟨leastMultiple align arena.mark, size⟩,
          { arena with mark := arena.targetStop size align })
  /-- The memory grows by what is missing. -/
  | granted {pages : ℕ} (hshort : arena.limit < arena.targetStop size align)
      (hfits : arena.targetStop size align ≤ arena.memory.capacity)
      (hpages : pages = pagesFor (arena.targetStop size align - arena.limit))
      (hgrow : (arena.memory.grow pages).1 = some arena.memory.pages) :
      SettledOutcome arena size align overflow
        (.ok ⟨leastMultiple align arena.mark, size⟩,
          { arena.enlarged pages with mark := arena.targetStop size align })
  /-- The memory has reached its limit. -/
  | refused {pages : ℕ} (hspace : arena.targetStop size align < addressSpace)
      (hbeyond : arena.memory.capacity < arena.targetStop size align)
      (hpages : pages = pagesFor (arena.targetStop size align - arena.limit))
      (hgrow : (arena.memory.grow pages).1 = none) :
      SettledOutcome arena size align overflow
        (.error (.outOfMemory size pages), arena.afterGrow pages)

/-- **A request of a settled arena ends in one of the ways of `SettledOutcome`.** -/
theorem serve_outcome_of_settled (h : arena.Sound) (hcap : arena.memory.capacity < addressSpace)
    (hsettled : arena.Settled) (hpow : align.isPowerOfTwo) (halign : align < addressSpace)
    (size : ℕ) (overflow : AllocError) :
    arena.SettledOutcome size align overflow (arena.serve size align overflow) := by
  have hlimit : arena.limit = arena.memory.size := hsettled
  have hsize := h.wellFormed.size_le
  have hanswer := PagedMemory.grow_answer h.wellFormed hcap
    (pagesFor (arena.targetStop size align - arena.limit))
  rw [serve_of_settled h hcap hsettled, target?_eq hpow halign]
  by_cases hspace : arena.targetStop size align < addressSpace
  · have hstop : (⟨leastMultiple align arena.mark, size⟩ : Region).stop =
        arena.targetStop size align := rfl
    rw [if_pos hspace]
    dsimp only
    rw [hstop]
    by_cases hroom : arena.targetStop size align ≤ arena.limit
    · rw [if_pos hroom]
      exact .room hroom
    · have hiff := size_add_pagesFor_le_iff h.wellFormed (hlimit ▸ Nat.le_of_not_le hroom)
      rw [← hlimit] at hiff
      rw [if_neg hroom]
      by_cases hfits : arena.targetStop size align ≤ arena.memory.capacity
      · rw [if_pos (by omega)] at hanswer
        rw [if_pos hfits]
        exact .granted (Nat.lt_of_not_le hroom) hfits rfl hanswer
      · rw [if_neg (by omega)] at hanswer
        rw [if_neg hfits]
        exact .refused hspace (Nat.lt_of_not_le hfits) rfl hanswer
  · rw [if_neg hspace]
    exact .tooFar (Nat.le_of_not_lt hspace)

/-! ### How an arena changes -/

/-- What may become of an arena while it serves requests and others grow its memory. -/
structure Advanced (arena after : Arena PagedMemory) : Prop where
  sound : after.Sound
  grown : arena.memory.GrownFrom after.memory
  capacity_eq : after.memory.capacity = arena.memory.capacity
  heapBase_eq : after.memory.heapBase = arena.memory.heapBase
  mark_le : arena.mark ≤ after.mark
  /-- The mark passes the end of the memory only where it began. -/
  le_mark : after.mark ≤ max arena.mark after.memory.size

namespace Advanced

theorem refl (h : arena.Sound) : Advanced arena arena :=
  ⟨h, .refl _, rfl, rfl, le_rfl, le_max_left _ _⟩

theorem trans {a b c : Arena PagedMemory} (hab : Advanced a b) (hbc : Advanced b c) :
    Advanced a c where
  sound := hbc.sound
  grown := hab.grown.trans hbc.grown
  capacity_eq := hbc.capacity_eq.trans hab.capacity_eq
  heapBase_eq := hbc.heapBase_eq.trans hab.heapBase_eq
  mark_le := hab.mark_le.trans hbc.mark_le
  le_mark := by
    have hb := hab.le_mark
    have hc := hbc.le_mark
    have hsize := hbc.grown.size_le
    omega

/-- Growth of the memory alone, whoever asked for it. -/
theorem afterGrow (h : arena.Sound) (pages : ℕ) : Advanced arena (arena.afterGrow pages) where
  sound := ⟨h.wellFormed.grow pages, h.limit_le.trans (PagedMemory.size_le_grow _ _)⟩
  grown := PagedMemory.grownFrom_grow _ _
  capacity_eq := PagedMemory.capacity_grow _ _
  heapBase_eq := PagedMemory.heapBase_grow _ _
  mark_le := le_rfl
  le_mark := le_max_left _ _

theorem enlarged (h : arena.Sound) {pages prev : ℕ}
    (hgrow : (arena.memory.grow pages).1 = some prev) :
    Advanced arena (arena.enlarged pages) where
  sound := h.enlarged hgrow
  grown := PagedMemory.grownFrom_grow _ _
  capacity_eq := PagedMemory.capacity_grow _ _
  heapBase_eq := PagedMemory.heapBase_grow _ _
  mark_le := by
    unfold Arena.enlarged
    dsimp only
    split <;> omega
  le_mark := by
    rw [size_enlarged hgrow]
    unfold Arena.enlarged
    dsimp only
    split <;> omega

theorem of_again (h : arena.Sound)
    (hattempt : arena.attempt size align overflow = .again after) : Advanced arena after := by
  have hout := attempt_outcome arena size align overflow
  rw [hattempt] at hout
  cases hout with
  | granted htarget hshort hpages hgrow hrange =>
    rw [granted_eq_enlarged h hgrow]
    exact enlarged h hgrow

theorem of_done (h : arena.Sound) {result : Except AllocError Region}
    (hattempt : arena.attempt size align overflow = .done result after) :
    Advanced arena after := by
  have hout := attempt_outcome arena size align overflow
  rw [hattempt] at hout
  cases hout with
  | tooFar hnone => exact refl h
  | @room region htarget hroom =>
    have horder := (target?_eq_some htarget).2.1
    have hstop : region.stop = region.offset + region.length := rfl
    have hlimit := h.limit_le
    exact ⟨⟨h.wellFormed, h.limit_le⟩, .refl _, rfl, rfl, by dsimp only; omega,
      by dsimp only; omega⟩
  | refused htarget hshort hpages hgrow => exact afterGrow h _
  | beyond htarget hshort hpages hgrow hrange => exact afterGrow h _

end Advanced

/-- **A request advances its arena**, whether it is served or not. -/
theorem advanced_allocate (h : arena.Sound) (size align : ℕ) :
    Advanced arena (arena.allocate size align).2 := by
  by_cases hsize : size = 0
  · subst hsize
    exact .refl h
  · rw [allocate_of_ne_zero hsize]
    refine serve_induction (P := Advanced arena) (Q := fun out => Advanced arena out.2) ?_ ?_
      (.refl h)
    · intro a b ha hattempt
      exact ha.trans (.of_again ha.sound hattempt)
    · intro a b result ha hattempt
      exact ha.trans (.of_done ha.sound hattempt)

/-- **A request does no more to the bytes of a memory than put zeros behind them**, in whatever
state its arena is. -/
theorem grownFrom_allocate (arena : Arena PagedMemory) (size align : ℕ) :
    arena.memory.GrownFrom (arena.allocate size align).2.memory := by
  by_cases hsize : size = 0
  · subst hsize
    exact .refl _
  · rw [allocate_of_ne_zero hsize]
    refine serve_induction (P := fun a => arena.memory.GrownFrom a.memory)
      (Q := fun out => arena.memory.GrownFrom out.2.memory) ?_ ?_ (.refl _)
    · intro a b ha hattempt
      have hout := attempt_outcome a size align (.addressOverflow arena.mark size)
      rw [hattempt] at hout
      cases hout with
      | granted => exact ha.trans (PagedMemory.grownFrom_grow _ _)
    · intro a b result ha hattempt
      have hout := attempt_outcome a size align (.addressOverflow arena.mark size)
      rw [hattempt] at hout
      cases hout with
      | tooFar => exact ha
      | room => exact ha
      | refused => exact ha.trans (PagedMemory.grownFrom_grow _ _)
      | beyond => exact ha.trans (PagedMemory.grownFrom_grow _ _)

end Arena
end JobSandbox
