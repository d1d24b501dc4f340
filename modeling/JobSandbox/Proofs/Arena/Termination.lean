import JobSandbox.Memory.Scripted
import JobSandbox.Proofs.Arena.History

/-!
# How long a request takes

A request is tried again only after a grant, and every grant sets the limit to its end.  As long as
no grant starts below the limit, the limit rises with each of them by a page at least, and it never
leaves the address space: so the number of tries has a bound that depends on the limit alone,
however much the memory is willing to grant and whatever others do to it in the meantime.

Over a paged memory that others leave alone while a request is served, two grants are enough.  The
first one may turn out to lie behind pages of others; but it settles the arena, and a settled arena
gets all it needs at once.

## Main definitions

* `Arena.answer?`, `Arena.GrantsAbove` — what a memory answers, and that it grants nothing below the
  limit.
* `Arena.Short` — the request ends above the limit, inside the address space.
* `EndlessMemory` — a memory that grants everything.

## Main results

* `exists_serveAmid` — the limit bounds the number of tries.
* `exists_growCalls_allocate` — how often a request asks a paged memory for pages.
* `request_ends` — **every request ends, and asks a paged memory at most twice.**
-/

namespace JobSandbox

open Address Contract

namespace Arena

/-! ### The limit rises -/

section AnyMemory

variable {M : Type} [LinearMemory M] {arena after : Arena M} {size align : ℕ}
  {overflow : AllocError} {others : List (M → M)}

/-- What the memory answers to a try, if the try comes to ask it for pages and is granted them. -/
def answer? (arena : Arena M) (size align : ℕ) : Option ℕ :=
  (arena.target? size align).bind fun region =>
    if region.stop ≤ arena.limit then none
    else (LinearMemory.grow arena.memory (pagesFor (region.stop - arena.limit))).1

/-- In the course of a request amid others, every grant is answered by a number of pages that
reaches up to the limit as it is then. -/
def GrantsAbove (size align : ℕ) : (others : List (M → M)) → Arena M → Prop
  | [], _ => True
  | act :: others, arena =>
    (∀ prev, (arena.disturbed act).answer? size align = some prev →
      arena.limit ≤ prev * pageSize) ∧
    ∀ overflow after, (arena.disturbed act).attempt size align overflow = .again after →
      GrantsAbove size align others after

/-- A try that leads to another has been granted pages, and the limit is now at their end. -/
theorem limit_of_again (h : arena.attempt size align overflow = .again after) :
    ∃ prev pages, arena.answer? size align = some prev ∧ 0 < pages ∧
      after.limit = prev * pageSize + pages * pageSize ∧ after.limit < addressSpace := by
  have hout := attempt_outcome arena size align overflow
  rw [h] at hout
  cases hout with
  | @granted region pages prev htarget hshort hpages hgrow hrange =>
    refine ⟨prev, pages, ?_, ?_, rfl, (grantRange?_eq_some_iff.mp hrange).2.2⟩
    · rw [answer?, htarget, Option.bind_some, if_neg (by omega), ← hpages]
      exact hgrow
    · rw [hpages]
      exact pagesFor_pos (by omega)

/-- **The limit bounds the number of tries.**  Each try but the last moves it up by a page. -/
theorem exists_serveAmid (h : GrantsAbove size align others arena) (overflow : AllocError)
    (hlength : (addressSpace - arena.limit) / pageSize < others.length) :
    ∃ out, serveAmid size align overflow others arena = some out := by
  induction others generalizing arena with
  | nil => exact absurd hlength (Nat.not_lt_zero _)
  | cons act others ih =>
    obtain ⟨habove, hrest⟩ := h
    cases hattempt : (arena.disturbed act).attempt size align overflow with
    | done result after => exact ⟨_, serveAmid_cons_of_done hattempt⟩
    | again after =>
      obtain ⟨prev, pages, hanswer, hpages, hlimit, hspace⟩ := limit_of_again hattempt
      have hprev : arena.limit ≤ prev * pageSize := habove prev hanswer
      rw [serveAmid_cons_of_again hattempt]
      refine ih (hrest overflow after hattempt) ?_
      rw [List.length_cons] at hlength
      unfold pageSize at *
      omega

theorem exists_allocateAmid (h : GrantsAbove size align others arena)
    (hlength : (addressSpace - arena.limit) / pageSize < others.length) :
    ∃ out, arena.allocateAmid size align others = some out := by
  by_cases hsize : size = 0
  · subst hsize
    exact ⟨_, allocateAmid_zero arena align others⟩
  · rw [allocateAmid_of_ne_zero hsize]
    exact exists_serveAmid h _ hlength

end AnyMemory

/-! ### Short requests -/

section Short

variable {M : Type} {arena after : Arena M} {size align : ℕ} {overflow : AllocError}

/-- The request ends above the limit, but inside the address space. -/
def Short (arena : Arena M) (size align : ℕ) : Prop :=
  ∃ region, arena.target? size align = some region ∧ arena.limit < region.stop

theorem not_short_iff (hpow : align.isPowerOfTwo) (halign : align < addressSpace) :
    ¬arena.Short size align ↔
      addressSpace ≤ arena.targetStop size align ∨ arena.targetStop size align ≤ arena.limit := by
  have hstop : (⟨leastMultiple align arena.mark, size⟩ : Region).stop =
      arena.targetStop size align := rfl
  unfold Short
  rw [target?_eq hpow halign]
  by_cases hspace : arena.targetStop size align < addressSpace
  · simp only [if_pos hspace, Option.some.injEq, exists_eq_left', hstop]
    omega
  · simp only [if_neg hspace, reduceCtorEq, false_and, exists_false, not_false_iff, true_iff]
    omega

theorem short_of_again [LinearMemory M] (h : arena.attempt size align overflow = .again after) :
    arena.Short size align := by
  have hout := attempt_outcome arena size align overflow
  rw [h] at hout
  cases hout with
  | granted htarget hshort hpages hgrow hrange => exact ⟨_, htarget, hshort⟩

end Short

/-! ### Questions to a paged memory -/

section Paged

variable {arena after : Arena PagedMemory} {size align : ℕ} {overflow : AllocError}
  {result : Except AllocError Region}

@[simp] theorem growCalls_afterGrow (arena : Arena PagedMemory) (pages : ℕ) :
    (arena.afterGrow pages).memory.growCalls = arena.memory.growCalls + 1 :=
  PagedMemory.growCalls_grow _ _

/-- A try that leads to another has asked for pages once. -/
theorem growCalls_of_again (h : arena.attempt size align overflow = .again after) :
    after.memory.growCalls = arena.memory.growCalls + 1 := by
  have hout := attempt_outcome arena size align overflow
  rw [h] at hout
  cases hout with
  | granted htarget hshort hpages hgrow hrange => exact growCalls_afterGrow _ _

/-- The last try asks for pages just if the request is short. -/
theorem growCalls_of_done (h : arena.attempt size align overflow = .done result after) :
    (arena.Short size align → after.memory.growCalls = arena.memory.growCalls + 1) ∧
      (¬arena.Short size align → after.memory.growCalls = arena.memory.growCalls) := by
  have hout := attempt_outcome arena size align overflow
  rw [h] at hout
  cases hout with
  | tooFar hnone =>
    refine ⟨?_, fun _ => rfl⟩
    rintro ⟨region, htarget, -⟩
    rw [hnone] at htarget
    cases htarget
  | @room region htarget hroom =>
    refine ⟨?_, fun _ => rfl⟩
    rintro ⟨other, htarget', hshort⟩
    rw [htarget] at htarget'
    cases htarget'
    omega
  | refused htarget hshort hpages hgrow =>
    exact ⟨fun _ => growCalls_afterGrow _ _, fun hnot => absurd ⟨_, htarget, hshort⟩ hnot⟩
  | beyond htarget hshort hpages hgrow hrange =>
    exact ⟨fun _ => growCalls_afterGrow _ _, fun hnot => absurd ⟨_, htarget, hshort⟩ hnot⟩

/-- A request that is not short asks for nothing. -/
theorem growCalls_serve_of_not_short (h : ¬arena.Short size align) (overflow : AllocError) :
    (arena.serve size align overflow).2.memory.growCalls = arena.memory.growCalls := by
  cases hattempt : arena.attempt size align overflow with
  | done result after =>
    rw [serve_of_done hattempt]
    exact (growCalls_of_done hattempt).2 h
  | again after => exact absurd (short_of_again hattempt) h

/-- The first grant settles an arena, and if it was settled before, the request is not short any
more. -/
theorem settled_of_again (h : arena.Sound)
    (hattempt : arena.attempt size align overflow = .again after) :
    after.Sound ∧ after.Settled ∧ (arena.Settled → ¬after.Short size align) := by
  have hout := attempt_outcome arena size align overflow
  rw [hattempt] at hout
  cases hout with
  | @granted region pages prev htarget hshort hpages hgrow hrange =>
    rw [granted_eq_enlarged h hgrow]
    refine ⟨h.enlarged hgrow, settled_enlarged hgrow, ?_⟩
    rintro hsettled ⟨other, htarget', hshort'⟩
    obtain ⟨hkept, hroom⟩ := room_enlarged hsettled htarget
    rw [← hpages] at hkept hroom
    rw [hkept] at htarget'
    cases htarget'
    omega

/-- **A settled arena asks once**, if the request is short. -/
theorem growCalls_serve_of_settled (h : arena.Sound) (hsettled : arena.Settled)
    (hshort : arena.Short size align) (overflow : AllocError) :
    (arena.serve size align overflow).2.memory.growCalls = arena.memory.growCalls + 1 := by
  cases hattempt : arena.attempt size align overflow with
  | done result after =>
    rw [serve_of_done hattempt]
    exact (growCalls_of_done hattempt).1 hshort
  | again after =>
    obtain ⟨-, -, hlong⟩ := settled_of_again h hattempt
    rw [serve_of_again hattempt, growCalls_serve_of_not_short (hlong hsettled),
      growCalls_of_again hattempt]

/-- **Any arena asks once or twice**, if the request is short. -/
theorem growCalls_serve_of_short (h : arena.Sound) (hshort : arena.Short size align)
    (overflow : AllocError) :
    (arena.serve size align overflow).2.memory.growCalls = arena.memory.growCalls + 1 ∨
      (arena.serve size align overflow).2.memory.growCalls = arena.memory.growCalls + 2 := by
  cases hattempt : arena.attempt size align overflow with
  | done result after =>
    rw [serve_of_done hattempt]
    exact .inl ((growCalls_of_done hattempt).1 hshort)
  | again after =>
    obtain ⟨hsound, hsettled, -⟩ := settled_of_again h hattempt
    have hfirst := growCalls_of_again hattempt
    rw [serve_of_again hattempt]
    by_cases hagain : after.Short size align
    · rw [growCalls_serve_of_settled hsound hsettled hagain, hfirst]
      exact .inr rfl
    · rw [growCalls_serve_of_not_short hagain, hfirst]
      exact .inl rfl

/-- **How often a request asks a paged memory for pages.** -/
theorem exists_growCalls_allocate (h : arena.Sound) (size align : ℕ) :
    ∃ asked ≤ 2,
      (arena.allocate size align).2.memory.growCalls = arena.memory.growCalls + asked ∧
      (asked = 0 ↔ size = 0 ∨ ¬arena.Short size align) := by
  by_cases hsize : size = 0
  · subst hsize
    exact ⟨0, by omega, rfl, fun _ => .inl rfl, fun _ => rfl⟩
  · rw [allocate_of_ne_zero hsize]
    by_cases hshort : arena.Short size align
    · rcases growCalls_serve_of_short h hshort (.addressOverflow arena.mark size) with
        hcalls | hcalls
      · exact ⟨1, by omega, hcalls, by simp [hsize, hshort]⟩
      · exact ⟨2, le_rfl, hcalls, by simp [hsize, hshort]⟩
    · exact ⟨0, by omega, growCalls_serve_of_not_short hshort _, by simp [hshort]⟩

end Paged
end Arena

/-! ### Memory without end -/

/-- A memory that grants everything, counted in pages. -/
structure EndlessMemory where
  pages : ℕ
  deriving DecidableEq, Repr

namespace EndlessMemory

instance : LinearMemory EndlessMemory where
  heapBase _ := 0
  size memory := memory.pages * pageSize
  grow memory pages := (some memory.pages, ⟨memory.pages + pages⟩)

/-- An endless memory grants nothing below the limit, as long as others take no pages away. -/
theorem grantsAbove {others : List (EndlessMemory → EndlessMemory)}
    (hothers : ∀ act ∈ others, ∀ memory : EndlessMemory, memory.pages ≤ (act memory).pages)
    {arena : Arena EndlessMemory} (h : arena.limit ≤ arena.memory.pages * pageSize)
    (size align : ℕ) : arena.GrantsAbove size align others := by
  induction others generalizing arena with
  | nil => trivial
  | cons act others ih =>
    obtain ⟨hact, hothers⟩ := List.forall_mem_cons.mp hothers
    have hpages : arena.memory.pages ≤ (act arena.memory).pages := hact arena.memory
    have hreach : arena.limit ≤ (act arena.memory).pages * pageSize :=
      h.trans (Nat.mul_le_mul_right _ hpages)
    refine ⟨fun prev hanswer => ?_, fun overflow after hattempt => ?_⟩
    · obtain ⟨region, -, hgrow⟩ := Option.bind_eq_some_iff.mp hanswer
      split at hgrow
      · cases hgrow
      · cases hgrow
        exact hreach
    · have hout := Arena.attempt_outcome (arena.disturbed act) size align overflow
      rw [hattempt] at hout
      cases hout with
      | granted htarget hshort hpages hgrow hrange =>
        refine ih hothers ?_
        cases hgrow
        exact (Nat.add_mul _ _ _).ge

end EndlessMemory

/-! ### Every request ends -/

/-- **Every request ends, and asks a paged memory at most twice.**

Over any memory, and with others at it before every try, a request is over after so many tries as
the limit leaves room for, provided that no grant starts below the limit.  Where `allocate` is
defined, that is how it ends.  Over a paged memory that others may have grown before, it asks for
pages at most twice, and not at all just if it asks for nothing, leaves the address space or ends
below the limit. -/
theorem request_ends :
    (∀ (M : Type) [LinearMemory M] (arena : Arena M) (size align : ℕ) (others : List (M → M)),
      arena.GrantsAbove size align others →
      (addressSpace - arena.limit) / pageSize < others.length →
      ∃ out, arena.allocateAmid size align others = some out) ∧
    (∀ (M : Type) [FiniteMemory M] (arena : Arena M) (size align tries : ℕ)
      (out : Except AllocError Region × Arena M),
      arena.allocateAmid size align (List.replicate tries id) = some out →
      arena.allocate size align = out) ∧
    ∀ (initialPages maxPages heapBase size align : ℕ) (events : List Event),
      align.isPowerOfTwo → align < addressSpace →
      let arena :=
        ((History.start (PagedMemory.ofPages initialPages maxPages heapBase)).run events).arena
      ∃ asked ≤ 2,
        (arena.allocate size align).2.memory.growCalls = arena.memory.growCalls + asked ∧
        (asked = 0 ↔ size = 0 ∨ addressSpace ≤ arena.targetStop size align ∨
          arena.targetStop size align ≤ arena.limit) := by
  refine ⟨?_, ?_, ?_⟩
  · intro M _ arena size align others habove hlength
    exact Arena.exists_allocateAmid habove hlength
  · intro M _ arena size align tries out hout
    exact Arena.allocate_eq_of_allocateAmid hout
  · intro initialPages maxPages heapBase size align events hpow halign arena
    have hsound : arena.Sound :=
      (History.sound_run_start initialPages maxPages heapBase events).1
    rw [← Arena.not_short_iff hpow halign]
    exact Arena.exists_growCalls_allocate hsound size align

/-- Others take a page of an endless memory before every try, and one of three pages of a small one
before the request; a memory in between grants one page to a request that nobody interferes with. -/
theorem request_ends_amid_growth :
    let endless : Arena EndlessMemory := .ofMemory ⟨1⟩
    let others := List.replicate 0x1000000000000 fun memory : EndlessMemory =>
      (⟨memory.pages + 1⟩ : EndlessMemory)
    let scripted : Arena ScriptedMemory := .ofMemory ⟨8, 65536, [some 1], []⟩
    let served : Except AllocError Region × Arena ScriptedMemory :=
      (.ok ⟨16, 70000⟩, ⟨⟨8, 65536, [], [1]⟩, 70016, 131072⟩)
    let small := ((History.start (PagedMemory.ofPages 1 3 0)).run [.growth 1]).arena
    endless.GrantsAbove 100000 8 others ∧
      (addressSpace - endless.limit) / pageSize < others.length ∧
      (∃ out, endless.allocateAmid 100000 8 others = some out) ∧
      scripted.allocateAmid 70000 16 (List.replicate 2 id) = some served ∧
      scripted.allocate 70000 16 = served ∧
      (8).isPowerOfTwo ∧ 8 < addressSpace ∧
      ∃ asked ≤ 2,
        (small.allocate 131072 8).2.memory.growCalls = small.memory.growCalls + asked ∧
        (asked = 0 ↔ 131072 = 0 ∨ addressSpace ≤ small.targetStop 131072 8 ∨
          small.targetStop 131072 8 ≤ small.limit) := by
  intro endless others scripted served small
  have habove : endless.GrantsAbove 100000 8 others := by
    refine EndlessMemory.grantsAbove (fun act hact memory => ?_) le_rfl 100000 8
    rw [List.eq_of_mem_replicate hact]
    exact Nat.le_succ _
  have hlength : (addressSpace - endless.limit) / pageSize < others.length := by
    have hlimit : endless.limit = 65536 := rfl
    rw [List.length_replicate, hlimit]
    decide
  have hserved : (⟨⟨8, 65536, [some 1], []⟩, 8, 65536⟩ : Arena ScriptedMemory).allocateAmid
      70000 16 (List.replicate 2 id) =
        some (.ok ⟨16, 70000⟩, ⟨⟨8, 65536, [], [1]⟩, 70016, 131072⟩) := rfl
  have hpow : (8).isPowerOfTwo := ⟨3, rfl⟩
  have hspace : 8 < addressSpace := by decide
  exact ⟨habove, hlength, request_ends.1 EndlessMemory endless 100000 8 others habove hlength,
    hserved, request_ends.2.1 ScriptedMemory scripted 70000 16 2 served hserved, hpow, hspace,
    request_ends.2.2 1 3 0 131072 8 [.growth 1] hpow hspace⟩

end JobSandbox
