import JobSandbox.Proofs.Arena.Serve

/-!
# Requests over any memory

A request is tried until it is served or refused.  Over a memory that grants only finitely many
pages this ends, and `Arena.serve` is its result.  Here nothing is known of the memory: it may grant
pages without end, its answers may contradict each other, and others may get at it between two
tries.  What is left of a request then is so many tries, with whatever others do before each of
them; it may be open at their end.  As soon as it is not, its result does not depend on how many
tries it might have had.

## Main definitions

* `Arena.serveAmid`, `Arena.allocateAmid` — a request over any memory, amid others.

## Main results

* `exists_allocateAmid_eq` — where requests end by themselves, this is how they end.
* `of_allocateAmid_ok`, `mark_le_of_allocateAmid` — where a region lies, and that the mark rises,
  for all memories.
* `of_allocate_ok` — the same of a memory that grants only finitely many pages.
-/

namespace JobSandbox

open Address

namespace Arena

section AnyMemory

variable {M : Type} {arena after : Arena M} {size align : ℕ} {overflow : AllocError}
  {others : List (M → M)} {result : Except AllocError Region}

/-- The arena once somebody else has done something to its memory. -/
def disturbed (arena : Arena M) (act : M → M) : Arena M :=
  { arena with memory := act arena.memory }

@[simp] theorem mark_disturbed (arena : Arena M) (act : M → M) :
    (arena.disturbed act).mark = arena.mark := rfl

variable [LinearMemory M]

/-- Tries to serve a request, once for every act of others, who come first each time.  There is no
value if the request is still open after that. -/
def serveAmid (size align : ℕ) (overflow : AllocError) :
    (others : List (M → M)) → Arena M → Option (Except AllocError Region × Arena M)
  | [], _ => none
  | act :: others, arena =>
    match (arena.disturbed act).attempt size align overflow with
    | .done result after => some (result, after)
    | .again after => serveAmid size align overflow others after

/-- Hands out `size` bytes at a multiple of `align`, as `Arena.allocate` does, in so many tries and
with others at work before each of them. -/
def allocateAmid (arena : Arena M) (size align : ℕ) (others : List (M → M)) :
    Option (Except AllocError Region × Arena M) :=
  if size = 0 then some (.ok ⟨arena.mark, 0⟩, arena)
  else serveAmid size align (.addressOverflow arena.mark size) others arena

theorem allocateAmid_zero (arena : Arena M) (align : ℕ) (others : List (M → M)) :
    arena.allocateAmid 0 align others = some (.ok ⟨arena.mark, 0⟩, arena) := rfl

theorem allocateAmid_of_ne_zero (hsize : size ≠ 0) (arena : Arena M) (align : ℕ)
    (others : List (M → M)) : arena.allocateAmid size align others =
      serveAmid size align (.addressOverflow arena.mark size) others arena :=
  if_neg hsize

/-! ### The tries one by one -/

theorem serveAmid_cons_of_done {act : M → M}
    (h : (arena.disturbed act).attempt size align overflow = .done result after) :
    serveAmid size align overflow (act :: others) arena = some (result, after) := by
  rw [serveAmid, h]

theorem serveAmid_cons_of_again {act : M → M}
    (h : (arena.disturbed act).attempt size align overflow = .again after) :
    serveAmid size align overflow (act :: others) arena =
      serveAmid size align overflow others after := by
  rw [serveAmid, h]

/-- **What a request that ends leaves behind.**  The mark rises from try to try, and the region is
the target of the last one. -/
theorem of_serveAmid (h : serveAmid size align overflow others arena = some (result, after)) :
    arena.mark ≤ after.mark ∧ ∀ region, result = .ok region →
      ∃ last : Arena M, arena.mark ≤ last.mark ∧ last.target? size align = some region ∧
        region.stop = after.mark ∧ region.stop ≤ after.limit := by
  induction others generalizing arena with
  | nil => cases h
  | cons act others ih =>
    cases hattempt : (arena.disturbed act).attempt size align overflow with
    | again middle =>
      rw [serveAmid_cons_of_again hattempt] at h
      have hmark := mark_le_of_again hattempt
      rw [mark_disturbed] at hmark
      obtain ⟨hrest, hregion⟩ := ih h
      refine ⟨hmark.trans hrest, fun region hok => ?_⟩
      obtain ⟨last, hlast, hfacts⟩ := hregion region hok
      exact ⟨last, hmark.trans hlast, hfacts⟩
    | done last stopped =>
      rw [serveAmid_cons_of_done hattempt] at h
      cases h
      cases result with
      | error error => exact ⟨(mark_of_attempt_error hattempt).ge, fun _ hok => nomatch hok⟩
      | ok region =>
        obtain ⟨htarget, hstop, hlimit⟩ := of_attempt_ok hattempt
        have hmark := (target?_eq_some htarget).2.1
        rw [mark_disturbed] at hmark
        refine ⟨hstop ▸ hmark.trans (Nat.le_add_right _ _), ?_⟩
        rintro _ ⟨⟩
        exact ⟨arena.disturbed act, le_rfl, htarget, hstop, hlimit⟩

/-! ### Whole requests -/

/-- No request lowers the mark. -/
theorem mark_le_of_allocateAmid
    (h : arena.allocateAmid size align others = some (result, after)) :
    arena.mark ≤ after.mark := by
  by_cases hsize : size = 0
  · subst hsize
    cases h
    exact le_rfl
  · rw [allocateAmid_of_ne_zero hsize] at h
    exact (of_serveAmid h).1

/-- **What a request gets lies between the old mark and the new one**, and, if it is anything at
all, below the limit and inside the address space. -/
theorem of_allocateAmid_ok {region : Region}
    (h : arena.allocateAmid size align others = some (.ok region, after)) :
    region.length = size ∧ arena.mark ≤ region.offset ∧ region.stop = after.mark ∧
      (size ≠ 0 → region.stop ≤ after.limit ∧ region.stop < addressSpace) := by
  by_cases hsize : size = 0
  · subst hsize
    cases h
    exact ⟨rfl, le_rfl, rfl, fun hne => absurd rfl hne⟩
  · rw [allocateAmid_of_ne_zero hsize] at h
    obtain ⟨last, hmark, htarget, hstop, hlimit⟩ := (of_serveAmid h).2 region rfl
    obtain ⟨hlength, horder, hspace⟩ := target?_eq_some htarget
    exact ⟨hlength, hmark.trans horder, hstop, fun _ => ⟨hlimit, hspace⟩⟩

/-- What a request of some bytes gets starts at a multiple of the alignment. -/
theorem dvd_offset_of_allocateAmid_ok (hpow : align.isPowerOfTwo) (halign : align < addressSpace)
    (hsize : size ≠ 0) {region : Region}
    (h : arena.allocateAmid size align others = some (.ok region, after)) :
    align ∣ region.offset := by
  rw [allocateAmid_of_ne_zero hsize] at h
  obtain ⟨last, -, htarget, -⟩ := (of_serveAmid h).2 region rfl
  exact dvd_offset_of_target? hpow halign htarget

end AnyMemory

/-! ### Memories that grant only finitely many pages -/

section FiniteMemory

variable {M : Type} [FiniteMemory M]

/-- With nobody else at work and tries enough, a request ends as `serve` says. -/
theorem exists_serveAmid_eq (arena : Arena M) (size align : ℕ) (overflow : AllocError) :
    ∃ tries, serveAmid size align overflow (List.replicate tries id) arena =
      some (arena.serve size align overflow) := by
  refine tries_induction size align overflow
    (motive := fun arena => ∃ tries, serveAmid size align overflow (List.replicate tries id) arena =
      some (arena.serve size align overflow)) ?_ ?_ arena
  · intro arena after result hattempt
    refine ⟨1, ?_⟩
    rw [serve_of_done hattempt]
    exact serveAmid_cons_of_done hattempt
  · rintro arena after hattempt ⟨tries, htries⟩
    refine ⟨tries + 1, ?_⟩
    rw [serve_of_again hattempt, ← htries]
    exact serveAmid_cons_of_again hattempt

/-- **With nobody else at work and tries enough, a request ends as `allocate` says.** -/
theorem exists_allocateAmid_eq (arena : Arena M) (size align : ℕ) :
    ∃ tries, arena.allocateAmid size align (List.replicate tries id) =
      some (arena.allocate size align) := by
  by_cases hsize : size = 0
  · subst hsize
    exact ⟨0, rfl⟩
  · obtain ⟨tries, htries⟩ :=
      exists_serveAmid_eq arena size align (.addressOverflow arena.mark size)
    refine ⟨tries, ?_⟩
    rw [allocateAmid_of_ne_zero hsize, allocate_of_ne_zero hsize, htries]

variable {arena : Arena M} {size align : ℕ} {region : Region}

theorem serve_eq_of_serveAmid {overflow : AllocError} {tries : ℕ}
    {out : Except AllocError Region × Arena M}
    (h : serveAmid size align overflow (List.replicate tries id) arena = some out) :
    arena.serve size align overflow = out := by
  induction tries generalizing arena with
  | zero => cases h
  | succ tries ih =>
    have hquiet : arena.disturbed id = arena := rfl
    rw [List.replicate_succ] at h
    cases hattempt : arena.attempt size align overflow with
    | done result after =>
      rw [serveAmid_cons_of_done (hquiet ▸ hattempt)] at h
      rw [serve_of_done hattempt]
      exact Option.some.inj h
    | again after =>
      rw [serveAmid_cons_of_again (hquiet ▸ hattempt)] at h
      rw [serve_of_again hattempt]
      exact ih h

/-- With nobody else at work, a request that ends does so as `allocate` says. -/
theorem allocate_eq_of_allocateAmid {tries : ℕ} {out : Except AllocError Region × Arena M}
    (h : arena.allocateAmid size align (List.replicate tries id) = some out) :
    arena.allocate size align = out := by
  by_cases hsize : size = 0
  · subst hsize
    exact Option.some.inj h
  · rw [allocateAmid_of_ne_zero hsize] at h
    rw [allocate_of_ne_zero hsize]
    exact serve_eq_of_serveAmid h

theorem exists_allocateAmid_eq_ok (h : (arena.allocate size align).1 = .ok region) :
    ∃ tries, arena.allocateAmid size align (List.replicate tries id) =
      some (.ok region, (arena.allocate size align).2) := by
  rw [← h]
  exact exists_allocateAmid_eq arena size align

/-- Where the region of a request lies. -/
theorem of_allocate_ok (h : (arena.allocate size align).1 = .ok region) :
    region.length = size ∧ arena.mark ≤ region.offset ∧
      region.stop = (arena.allocate size align).2.mark ∧
      (size ≠ 0 → region.stop ≤ (arena.allocate size align).2.limit) := by
  obtain ⟨tries, htries⟩ := exists_allocateAmid_eq_ok h
  obtain ⟨hlength, horder, hstop, hroom⟩ := of_allocateAmid_ok htries
  exact ⟨hlength, horder, hstop, fun hsize => (hroom hsize).1⟩

theorem dvd_offset_of_allocate_ok (hpow : align.isPowerOfTwo) (halign : align < addressSpace)
    (hsize : size ≠ 0) (h : (arena.allocate size align).1 = .ok region) :
    align ∣ region.offset := by
  obtain ⟨tries, htries⟩ := exists_allocateAmid_eq_ok h
  exact dvd_offset_of_allocateAmid_ok hpow halign hsize htries

end FiniteMemory
end Arena
end JobSandbox
