import JobSandbox.Arena
import JobSandbox.Proofs.Address

/-!
# How a request is served

One try to serve a request ends in one of five ways, and `attempt_outcome` lists them: whatever is
proved of an arena step by step is proved by going through that list.  A whole request is a
sequence of tries; `serve_induction` carries a property of the arena through all tries but the last
and hands it to the last one.

An arena knows its memory only as far as `LinearMemory` goes.  So a function between memories that
respects this view carries requests over one memory to requests over the other, `allocate_map`.

## Main definitions

* `Arena.target?`, `Arena.targetStop` — the region that a request would take up, and its end.
* `Arena.Outcome` — the ways a try can end.
* `MemoryHom`, `Arena.map` — a function between memories, and what it makes of an arena.
-/

namespace JobSandbox

open Address

namespace Arena

/-! ### One try -/

section Attempt

variable {M : Type} {arena after : Arena M} {size align : ℕ} {overflow : AllocError}

/-- The region that a request would take up, if it ends inside the address space. -/
def target? (arena : Arena M) (size align : ℕ) : Option Region :=
  (alignUp? arena.mark align).bind fun start => (add? start size).map fun _ => ⟨start, size⟩

theorem target?_eq_some {region : Region} (h : arena.target? size align = some region) :
    region.length = size ∧ arena.mark ≤ region.offset ∧ region.stop < addressSpace := by
  obtain ⟨start, hstart, hstop⟩ := Option.bind_eq_some_iff.mp h
  obtain ⟨stop, hadd, rfl⟩ := Option.map_eq_some_iff.mp hstop
  exact ⟨rfl, le_of_alignUp? hstart, (add?_eq_some_iff.mp hadd).2⟩

/-- The end of the region that a request asks for, in the address space or not. -/
def targetStop (arena : Arena M) (size align : ℕ) : ℕ := leastMultiple align arena.mark + size

/-- For a power of two, the target starts at the least multiple from the mark on. -/
theorem target?_eq (hpow : align.isPowerOfTwo) (halign : align < addressSpace)
    (arena : Arena M) (size : ℕ) :
    arena.target? size align =
      if arena.targetStop size align < addressSpace then
        some ⟨leastMultiple align arena.mark, size⟩
      else none := by
  rw [target?, alignUp?_eq hpow halign, targetStop]
  by_cases hstart : leastMultiple align arena.mark < addressSpace
  · rw [if_pos hstart, Option.bind_some, add?]
    split <;> rfl
  · rw [if_neg hstart, Option.bind_none, if_neg (by omega)]

/-- For a power of two, the target starts at a multiple of it. -/
theorem dvd_offset_of_target? (hpow : align.isPowerOfTwo) (halign : align < addressSpace)
    {region : Region} (h : arena.target? size align = some region) : align ∣ region.offset := by
  have hpos : 0 < align := hpow.elim fun k hk => hk ▸ Nat.two_pow_pos k
  rw [target?_eq hpow halign] at h
  split at h
  · cases h
    exact (isLeast_leastMultiple hpos arena.mark).1.2
  · cases h

/-- The ways a try can end. -/
inductive Outcome [LinearMemory M] (arena : Arena M) (size align : ℕ) (overflow : AllocError) :
    Attempt M → Prop where
  /-- The request would leave the address space. -/
  | tooFar (hnone : arena.target? size align = none) :
      Outcome arena size align overflow (.done (.error overflow) arena)
  /-- There is room below the limit. -/
  | room {region : Region} (htarget : arena.target? size align = some region)
      (hroom : region.stop ≤ arena.limit) :
      Outcome arena size align overflow (.done (.ok region) { arena with mark := region.stop })
  /-- The memory does not grow. -/
  | refused {region : Region} {pages : ℕ} (htarget : arena.target? size align = some region)
      (hshort : arena.limit < region.stop) (hpages : pages = pagesFor (region.stop - arena.limit))
      (hgrow : (LinearMemory.grow arena.memory pages).1 = none) :
      Outcome arena size align overflow
        (.done (.error (.outOfMemory size pages)) (arena.afterGrow pages))
  /-- The memory grows where no address leads. -/
  | beyond {region : Region} {pages prev : ℕ} (htarget : arena.target? size align = some region)
      (hshort : arena.limit < region.stop) (hpages : pages = pagesFor (region.stop - arena.limit))
      (hgrow : (LinearMemory.grow arena.memory pages).1 = some prev)
      (hrange : grantRange? prev pages = none) :
      Outcome arena size align overflow (.done (.error overflow) (arena.afterGrow pages))
  /-- The memory grows, and the request is tried again. -/
  | granted {region : Region} {pages prev : ℕ} (htarget : arena.target? size align = some region)
      (hshort : arena.limit < region.stop) (hpages : pages = pagesFor (region.stop - arena.limit))
      (hgrow : (LinearMemory.grow arena.memory pages).1 = some prev)
      (hrange : grantRange? prev pages =
        some (prev * Contract.pageSize, prev * Contract.pageSize + pages * Contract.pageSize)) :
      Outcome arena size align overflow
        (.again ((arena.afterGrow pages).granted (prev * Contract.pageSize)
          (prev * Contract.pageSize + pages * Contract.pageSize)))

@[simp] theorem mark_afterGrow [LinearMemory M] (arena : Arena M) (pages : ℕ) :
    (arena.afterGrow pages).mark = arena.mark := rfl

theorem grantRange?_eq_some_iff {prev pages start stop : ℕ} :
    grantRange? prev pages = some (start, stop) ↔
      start = prev * Contract.pageSize ∧
        stop = prev * Contract.pageSize + pages * Contract.pageSize ∧ stop < addressSpace := by
  simp only [grantRange?, bind, pure, Option.bind_eq_some_iff, Option.some.injEq, Prod.mk.injEq]
  constructor
  · rintro ⟨first, hfirst, length, hlength, last, hlast, rfl, rfl⟩
    obtain ⟨rfl, -⟩ := mul?_eq_some_iff.mp hfirst
    obtain ⟨rfl, -⟩ := mul?_eq_some_iff.mp hlength
    obtain ⟨rfl, hlt⟩ := add?_eq_some_iff.mp hlast
    exact ⟨rfl, rfl, hlt⟩
  · rintro ⟨rfl, rfl, hlt⟩
    exact ⟨_, mul?_eq_some_iff.mpr ⟨rfl, lt_of_le_of_lt (Nat.le_add_right _ _) hlt⟩,
      _, mul?_eq_some_iff.mpr ⟨rfl, lt_of_le_of_lt (Nat.le_add_left _ _) hlt⟩,
      _, add?_eq_some_iff.mpr ⟨rfl, hlt⟩, rfl, rfl⟩

theorem attempt_eq [LinearMemory M] (arena : Arena M) (size align : ℕ) (overflow : AllocError) :
    arena.attempt size align overflow =
      match arena.target? size align with
      | none => .done (.error overflow) arena
      | some region =>
        if region.stop ≤ arena.limit then .done (.ok region) { arena with mark := region.stop }
        else arena.extend size (pagesFor (region.stop - arena.limit)) overflow := by
  unfold attempt target?
  cases alignUp? arena.mark align with
  | none => rfl
  | some start =>
    dsimp only [Option.bind_some]
    cases hadd : add? start size with
    | none => rfl
    | some stop =>
      obtain ⟨rfl, -⟩ := add?_eq_some_iff.mp hadd
      rfl

/-- **A try ends in one of the ways of `Outcome`.** -/
theorem attempt_outcome [LinearMemory M] (arena : Arena M) (size align : ℕ)
    (overflow : AllocError) :
    arena.Outcome size align overflow (arena.attempt size align overflow) := by
  rw [attempt_eq]
  cases htarget : arena.target? size align with
  | none => exact .tooFar htarget
  | some region =>
    dsimp only
    by_cases hroom : region.stop ≤ arena.limit
    · rw [if_pos hroom]
      exact .room htarget hroom
    · rw [if_neg hroom]
      have hshort : arena.limit < region.stop := by omega
      unfold extend
      cases hgrow : (LinearMemory.grow arena.memory (pagesFor (region.stop - arena.limit))).1 with
      | none => exact .refused htarget hshort rfl hgrow
      | some prev =>
        dsimp only
        cases hrange : grantRange? prev (pagesFor (region.stop - arena.limit)) with
        | none => exact .beyond htarget hshort rfl hgrow hrange
        | some range =>
          obtain ⟨start, stop⟩ := range
          obtain ⟨rfl, rfl, -⟩ := grantRange?_eq_some_iff.mp hrange
          exact .granted htarget hshort rfl hgrow hrange

/-- A try that leads to another does not lower the mark. -/
theorem mark_le_of_again [LinearMemory M]
    (h : arena.attempt size align overflow = .again after) : arena.mark ≤ after.mark := by
  have hout := attempt_outcome arena size align overflow
  rw [h] at hout
  cases hout with
  | granted htarget hshort hpages hgrow hrange =>
    unfold granted afterGrow
    dsimp only
    split <;> omega

/-- A try that serves the request hands out its target and moves the mark behind it. -/
theorem of_attempt_ok [LinearMemory M] {region : Region}
    (h : arena.attempt size align overflow = .done (.ok region) after) :
    arena.target? size align = some region ∧ region.stop = after.mark ∧
      region.stop ≤ after.limit := by
  have hout := attempt_outcome arena size align overflow
  rw [h] at hout
  cases hout with
  | room htarget hroom => exact ⟨htarget, rfl, hroom⟩

/-- A try that refuses the request for good leaves the mark alone. -/
theorem mark_of_attempt_error [LinearMemory M] {error : AllocError}
    (h : arena.attempt size align overflow = .done (.error error) after) :
    after.mark = arena.mark := by
  have hout := attempt_outcome arena size align overflow
  rw [h] at hout
  cases hout with
  | tooFar hnone => rfl
  | refused htarget hshort hpages hgrow => exact mark_afterGrow _ _
  | beyond htarget hshort hpages hgrow hrange => exact mark_afterGrow _ _

end Attempt

/-! ### A whole request -/

section Serve

variable {M : Type} [FiniteMemory M] {arena after : Arena M} {size align : ℕ}
  {overflow : AllocError}

theorem serve_of_done {result : Except AllocError Region}
    (h : arena.attempt size align overflow = .done result after) :
    arena.serve size align overflow = (result, after) := by
  rw [serve]
  split
  · next hdone =>
    rw [h] at hdone
    cases hdone
    rfl
  · next hagain =>
    rw [h] at hagain
    cases hagain

theorem serve_of_again (h : arena.attempt size align overflow = .again after) :
    arena.serve size align overflow = after.serve size align overflow := by
  conv_lhs => rw [serve]
  split
  · next hdone =>
    rw [h] at hdone
    cases hdone
  · next hagain =>
    rw [h] at hagain
    cases hagain
    rfl

/-- Induction over the tries of a request, from the last one back. -/
theorem tries_induction (size align : ℕ) (overflow : AllocError) {motive : Arena M → Prop}
    (last : ∀ (arena after : Arena M) (result : Except AllocError Region),
      arena.attempt size align overflow = .done result after → motive arena)
    (another : ∀ arena after : Arena M,
      arena.attempt size align overflow = .again after → motive after → motive arena)
    (arena : Arena M) : motive arena := by
  induction hn : FiniteMemory.budget arena.memory using Nat.strong_induction_on
    generalizing arena with
  | _ n ih =>
    cases hattempt : arena.attempt size align overflow with
    | done result after => exact last arena after result hattempt
    | again after =>
      -- the memory has a smaller budget than before
      have hlt : FiniteMemory.budget after.memory < n := hn ▸ budget_of_attempt_again hattempt
      exact another arena after hattempt (ih _ hlt after rfl)

/-- **What holds before every try holds before the last one.**  `P` is kept by every try that leads
to another, and the last try makes `Q` of it. -/
theorem serve_induction {P : Arena M → Prop} {Q : Except AllocError Region × Arena M → Prop}
    (hagain : ∀ arena after : Arena M, P arena →
      arena.attempt size align overflow = .again after → P after)
    (hdone : ∀ (arena after : Arena M) (result : Except AllocError Region), P arena →
      arena.attempt size align overflow = .done result after → Q (result, after))
    (h : P arena) : Q (arena.serve size align overflow) := by
  revert h
  refine tries_induction size align overflow
    (motive := fun arena => P arena → Q (arena.serve size align overflow)) ?_ ?_ arena
  · intro arena after result hattempt h
    rw [serve_of_done hattempt]
    exact hdone arena after result h hattempt
  · intro arena after hattempt ih h
    rw [serve_of_again hattempt]
    exact ih (hagain arena after h hattempt)

theorem allocate_of_ne_zero (hsize : size ≠ 0) (arena : Arena M) (align : ℕ) :
    arena.allocate size align = arena.serve size align (.addressOverflow arena.mark size) :=
  if_neg hsize

/-- What ends below the limit is handed out at once. -/
theorem allocate_of_room (hpow : align.isPowerOfTwo) (halign : align < addressSpace)
    (hsize : size ≠ 0) (hroom : arena.targetStop size align ≤ arena.limit)
    (hspace : arena.targetStop size align < addressSpace) :
    arena.allocate size align =
      (.ok ⟨leastMultiple align arena.mark, size⟩,
        { arena with mark := arena.targetStop size align }) := by
  rw [allocate_of_ne_zero hsize]
  refine serve_of_done ?_
  rw [attempt_eq, target?_eq hpow halign, if_pos hspace]
  exact if_pos hroom

end Serve
end Arena

/-! ### From one memory to another -/

/-- A function between memories that respects all that an allocator sees. -/
structure MemoryHom (M N : Type) [LinearMemory M] [LinearMemory N] where
  toFun : M → N
  heapBase_toFun : ∀ m, LinearMemory.heapBase (toFun m) = LinearMemory.heapBase m
  size_toFun : ∀ m, LinearMemory.size (toFun m) = LinearMemory.size m
  grow_toFun : ∀ m pages, LinearMemory.grow (toFun m) pages =
    ((LinearMemory.grow m pages).1, toFun (LinearMemory.grow m pages).2)

namespace Arena

section Map

variable {M N : Type} [FiniteMemory M] [FiniteMemory N] (f : MemoryHom M N)

/-- The arena over the image of its memory. -/
def map (arena : Arena M) : Arena N where
  memory := f.toFun arena.memory
  mark := arena.mark
  limit := arena.limit

/-- What a try comes to, with the arena mapped. -/
def Attempt.map : Attempt M → Attempt N
  | .done result arena => .done result (arena.map f)
  | .again arena => .again (arena.map f)

theorem afterGrow_map (arena : Arena M) (pages : ℕ) :
    (arena.map f).afterGrow pages = (arena.afterGrow pages).map f := by
  simp only [afterGrow, map, f.grow_toFun]

theorem attempt_map (arena : Arena M) (size align : ℕ) (overflow : AllocError) :
    (arena.map f).attempt size align overflow = (arena.attempt size align overflow).map f := by
  have htarget : (arena.map f).target? size align = arena.target? size align := rfl
  rw [attempt_eq, attempt_eq, htarget]
  cases arena.target? size align with
  | none => rfl
  | some region =>
    dsimp only
    by_cases hroom : region.stop ≤ arena.limit
    · rw [if_pos hroom, if_pos (show region.stop ≤ (arena.map f).limit from hroom)]
      rfl
    · rw [if_neg hroom, if_neg (show ¬region.stop ≤ (arena.map f).limit from hroom)]
      have hlimit : (arena.map f).limit = arena.limit := rfl
      have hmemory : (arena.map f).memory = f.toFun arena.memory := rfl
      rw [hlimit, extend, extend, hmemory, f.grow_toFun, afterGrow_map]
      dsimp only
      cases (LinearMemory.grow arena.memory (pagesFor (region.stop - arena.limit))).1 with
      | none => rfl
      | some prev =>
        dsimp only
        cases grantRange? prev (pagesFor (region.stop - arena.limit)) <;> rfl

theorem serve_map (arena : Arena M) (size align : ℕ) (overflow : AllocError) :
    (arena.map f).serve size align overflow =
      ((arena.serve size align overflow).1, (arena.serve size align overflow).2.map f) := by
  refine tries_induction size align overflow
    (motive := fun arena => (arena.map f).serve size align overflow =
      ((arena.serve size align overflow).1, (arena.serve size align overflow).2.map f)) ?_ ?_ arena
  · intro arena after result hattempt
    have himage : (arena.map f).attempt size align overflow = .done result (after.map f) := by
      rw [attempt_map, hattempt]
      rfl
    rw [serve_of_done himage, serve_of_done hattempt]
  · intro arena after hattempt ih
    have himage : (arena.map f).attempt size align overflow = .again (after.map f) := by
      rw [attempt_map, hattempt]
      rfl
    rw [serve_of_again himage, serve_of_again hattempt, ih]

/-- **A request over a memory goes as it goes over its image.** -/
theorem allocate_map (arena : Arena M) (size align : ℕ) :
    (arena.map f).allocate size align =
      ((arena.allocate size align).1, (arena.allocate size align).2.map f) := by
  by_cases hsize : size = 0
  · subst hsize
    rfl
  · rw [allocate_of_ne_zero hsize, allocate_of_ne_zero hsize]
    exact serve_map f arena size align _

end Map
end Arena
end JobSandbox
