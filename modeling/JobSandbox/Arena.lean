import JobSandbox.Fault
import JobSandbox.Memory

/-!
# An arena

Memory is handed out from the bottom up and never given back.  An arena keeps the address up to
which it has handed out memory, its mark, and the address up to which memory is its own, its limit.
A request that does not fit below the limit makes the memory grow by as many pages as are missing.

Others may grow the same memory.  A grant then starts above the limit; the pages in between belong
to someone else, so the mark moves up to the grant and the request is tried again from there.

## Main definitions

* `Region` — a range that was handed out.
* `Arena.attempt` — one try to serve a request: it ends, or memory was granted for another try.
* `Arena.allocate` — a request until it ends.
-/

namespace JobSandbox

/-! ### Regions -/

/-- A range of memory that was handed out. -/
structure Region where
  offset : Nat
  length : Nat
  deriving DecidableEq, Repr

namespace Region

/-- The first address behind the region. -/
def stop (region : Region) : Nat := region.offset + region.length

def isEmpty (region : Region) : Bool := region.length == 0

/-- The first bytes of a region, as many as it has. -/
def front (region : Region) (length : Nat) : Region :=
  ⟨region.offset, min length region.length⟩

end Region

/-! ### The arena -/

/-- An allocator at the upper end of what it has handed out. -/
structure Arena (M : Type) where
  memory : M
  /-- The high-water mark: everything handed out lies below. -/
  mark : Nat
  /-- The arena owns no memory from here on. -/
  limit : Nat

namespace Arena

variable {M : Type}

/-- An arena over a memory nothing was handed out of. -/
def ofMemory [LinearMemory M] (memory : M) : Arena M where
  memory := memory
  mark := LinearMemory.heapBase memory
  limit := LinearMemory.size memory

/-- How many bytes can be handed out before the memory has to grow. -/
def remaining (arena : Arena M) : Nat := arena.limit - arena.mark

/-- What a try to serve a request comes to. -/
inductive Attempt (M : Type) where
  /-- The request is served, or refused for good. -/
  | done (result : Except AllocError Region) (arena : Arena M)
  /-- Memory was granted, and the request has to be tried again. -/
  | again (arena : Arena M)

/-- The arena once its memory has answered a request for pages. -/
def afterGrow [LinearMemory M] (arena : Arena M) (pages : Nat) : Arena M :=
  { arena with memory := (LinearMemory.grow arena.memory pages).2 }

/-- The arena with the pages from `start` to `stop` for its own. -/
def granted (arena : Arena M) (start stop : Nat) : Arena M :=
  { arena with
    mark := if arena.limit < start then max arena.mark start else arena.mark
    limit := stop }

/-- The addresses of a number of pages behind `prev` others, if they are addresses. -/
def grantRange? (prev pages : Nat) : Option (Nat × Nat) := do
  let start ← Address.mul? prev Contract.pageSize
  let length ← Address.mul? pages Contract.pageSize
  let stop ← Address.add? start length
  pure (start, stop)

/-- The arena after a grant: with the granted pages, or an overflow if they are out of reach. -/
def settle (arena : Arena M) (overflow : AllocError) : Option (Nat × Nat) → Attempt M
  | none => .done (.error overflow) arena
  | some (start, stop) => .again (arena.granted start stop)

/-- Asks the memory for the pages a request is short of. -/
def extend [LinearMemory M] (arena : Arena M) (size pages : Nat) (overflow : AllocError) :
    Attempt M :=
  match (LinearMemory.grow arena.memory pages).1 with
  | none => .done (.error (.outOfMemory size pages)) (arena.afterGrow pages)
  | some prev => (arena.afterGrow pages).settle overflow (grantRange? prev pages)

/-- One try to serve a request for `size` bytes. -/
def attempt [LinearMemory M] (arena : Arena M) (size align : Nat) (overflow : AllocError) :
    Attempt M :=
  match Address.alignUp? arena.mark align with
  | none => .done (.error overflow) arena
  | some start =>
    match Address.add? start size with
    | none => .done (.error overflow) arena
    | some stop =>
      if stop ≤ arena.limit then .done (.ok ⟨start, size⟩) { arena with mark := stop }
      else arena.extend size (Address.pagesFor (stop - arena.limit)) overflow

/-! ### What another try starts from -/

theorem settle_eq_again {arena arena' : Arena M} {overflow : AllocError}
    {range : Option (Nat × Nat)} (h : arena.settle overflow range = .again arena') :
    ∃ start stop, range = some (start, stop) ∧ arena' = arena.granted start stop := by
  cases range with
  | none => cases h
  | some range =>
    cases h
    exact ⟨range.1, range.2, rfl, rfl⟩

theorem extend_eq_again [LinearMemory M] {arena arena' : Arena M} {size pages : Nat}
    {overflow : AllocError} (h : arena.extend size pages overflow = .again arena') :
    ∃ prev start stop : Nat,
      (LinearMemory.grow arena.memory pages).1 = some prev ∧
      grantRange? prev pages = some (start, stop) ∧
      arena' = (arena.afterGrow pages).granted start stop := by
  unfold extend at h
  cases hgrow : (LinearMemory.grow arena.memory pages).1 with
  | none =>
    rw [hgrow] at h
    cases h
  | some prev =>
    rw [hgrow] at h
    obtain ⟨start, stop, hrange, harena⟩ := settle_eq_again h
    exact ⟨prev, start, stop, rfl, hrange, harena⟩

theorem attempt_eq_again [LinearMemory M] {arena arena' : Arena M} {size align : Nat}
    {overflow : AllocError} (h : arena.attempt size align overflow = .again arena') :
    ∃ stop : Nat, arena.limit < stop ∧
      arena.extend size (Address.pagesFor (stop - arena.limit)) overflow = .again arena' := by
  unfold attempt at h
  rcases hstart : Address.alignUp? arena.mark align with _ | start <;> rw [hstart] at h
  · cases h
  dsimp only at h
  rcases hadd : Address.add? start size with _ | stop <;> rw [hadd] at h
  · cases h
  dsimp only at h
  by_cases hstop : stop ≤ arena.limit
  · rw [if_pos hstop] at h
    cases h
  · rw [if_neg hstop] at h
    exact ⟨stop, by omega, h⟩

/-- A request is tried again only after a grant of at least one page. -/
theorem budget_of_attempt_again [FiniteMemory M] {arena arena' : Arena M} {size align : Nat}
    {overflow : AllocError} (h : arena.attempt size align overflow = .again arena') :
    FiniteMemory.budget arena'.memory < FiniteMemory.budget arena.memory := by
  obtain ⟨stop, hstop, h⟩ := attempt_eq_again h
  obtain ⟨prev, start, stop', hgrow, -, rfl⟩ := extend_eq_again h
  exact FiniteMemory.budget_lt _ _ prev (Address.pagesFor_pos (by omega)) hgrow

/-! ### A request until it ends -/

/-- Tries to serve a request until that ends. -/
def serve [FiniteMemory M] (arena : Arena M) (size align : Nat) (overflow : AllocError) :
    Except AllocError Region × Arena M :=
  match _h : arena.attempt size align overflow with
  | .done result arena => (result, arena)
  | .again arena' => arena'.serve size align overflow
termination_by FiniteMemory.budget arena.memory
decreasing_by exact budget_of_attempt_again _h

/-- Hands out `size` bytes at a multiple of `align`, a power of two.  No bytes at all are handed out
at the mark, wherever that is. -/
def allocate [FiniteMemory M] (arena : Arena M) (size align : Nat) :
    Except AllocError Region × Arena M :=
  if size = 0 then (.ok ⟨arena.mark, 0⟩, arena)
  else arena.serve size align (.addressOverflow arena.mark size)

@[simp] theorem allocate_zero [FiniteMemory M] (arena : Arena M) (align : Nat) :
    arena.allocate 0 align = (.ok ⟨arena.mark, 0⟩, arena) := rfl

/-! ### The bytes of a region -/

/-- The bytes of a region. -/
def read? (arena : Arena PagedMemory) (region : Region) : Option Bytes :=
  arena.memory.read? region.offset region.length

/-- The arena with `bytes` at the start of a region that has room for them; the whole region has to
lie inside the memory. -/
def write? (arena : Arena PagedMemory) (region : Region) (bytes : Bytes) :
    Option (Arena PagedMemory) :=
  if arena.memory.InRange region.offset region.length then
    (arena.memory.write? region.offset (bytes.take region.length)).map
      fun memory => { arena with memory }
  else none

end Arena
end JobSandbox
