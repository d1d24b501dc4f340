import JobSandbox.Proofs.Arena.Paged

/-!
# The history of an arena

An arena shares its memory with others.  What happens to it is a sequence of events: somebody asks
the arena for a region, or somebody else makes the memory grow.  A history is an arena after some
events, with all regions that were handed out in the course of them.

## Main definitions

* `SharedMemory` — a memory that others can make grow.
* `Event`, `History.next`, `History.run` — what can happen, and what comes of it.

## Main results

* `regions_prefix_run` — what was handed out stays handed out.
* `advanced_run` — over a paged memory, events do no more than advance the arena.
-/

namespace JobSandbox

/-- A memory that others than its arena can make grow. -/
class SharedMemory (M : Type) extends FiniteMemory M where
  /-- The memory after somebody else has asked for pages. -/
  growForOthers : M → ℕ → M

instance : SharedMemory PagedMemory where
  growForOthers memory pages := (memory.grow pages).2

/-- What can happen to an arena. -/
inductive Event where
  /-- The arena is asked for a region. -/
  | request (size align : ℕ)
  /-- Somebody else asks the memory for pages. -/
  | growth (pages : ℕ)
  deriving DecidableEq, Repr

/-- An arena, and all it has handed out. -/
structure History (M : Type) where
  arena : Arena M
  /-- The regions, in the order in which they were handed out. -/
  regions : List Region

namespace History

variable {M : Type} [SharedMemory M]

/-- A history in which nothing has happened yet. -/
def start (memory : M) : History M := ⟨.ofMemory memory, []⟩

/-- The history after one more event. -/
def next (history : History M) : Event → History M
  | .request size align =>
    match history.arena.allocate size align with
    | (.ok region, arena) => ⟨arena, history.regions ++ [region]⟩
    | (.error _, arena) => { history with arena }
  | .growth pages =>
    { history with
      arena.memory := SharedMemory.growForOthers history.arena.memory pages }

/-- The history after more events. -/
def run (history : History M) (events : List Event) : History M := events.foldl next history

@[simp] theorem run_nil (history : History M) : history.run [] = history := rfl

@[simp] theorem run_cons (history : History M) (event : Event) (events : List Event) :
    history.run (event :: events) = (history.next event).run events := rfl

theorem run_append (history : History M) (earlier later : List Event) :
    history.run (earlier ++ later) = (history.run earlier).run later :=
  List.foldl_append

/-- **What every event keeps, all events keep.** -/
theorem run_induction {P : History M → Prop} (hnext : ∀ history event, P history →
    P (history.next event)) {history : History M} (h : P history) (events : List Event) :
    P (history.run events) := by
  induction events generalizing history with
  | nil => exact h
  | cons event events ih => exact ih (hnext history event h)

/-! ### Requests -/

theorem arena_next_request (history : History M) (size align : ℕ) :
    (history.next (.request size align)).arena = (history.arena.allocate size align).2 := by
  rw [next]
  split <;> next hout => rw [hout]

theorem regions_next_request_of_ok {history : History M} {size align : ℕ} {region : Region}
    (h : (history.arena.allocate size align).1 = .ok region) :
    (history.next (.request size align)).regions = history.regions ++ [region] := by
  rw [next]
  split
  · next hout =>
    rw [hout] at h
    cases h
    rfl
  · next hout =>
    rw [hout] at h
    cases h

theorem regions_next_request_of_error {history : History M} {size align : ℕ} {error : AllocError}
    (h : (history.arena.allocate size align).1 = .error error) :
    (history.next (.request size align)).regions = history.regions := by
  rw [next]
  split
  · next hout =>
    rw [hout] at h
    cases h
  · rfl

theorem regions_prefix_next (history : History M) (event : Event) :
    history.regions <+: (history.next event).regions := by
  cases event with
  | request size align =>
    cases h : (history.arena.allocate size align).1 with
    | ok region => exact regions_next_request_of_ok h ▸ List.prefix_append _ _
    | error error => exact regions_next_request_of_error h ▸ List.prefix_rfl
  | growth pages => exact List.prefix_rfl

/-- **What was handed out stays handed out.** -/
theorem regions_prefix_run (history : History M) (events : List Event) :
    history.regions <+: (history.run events).regions :=
  run_induction (P := fun h => history.regions <+: h.regions)
    (fun h event hearlier => hearlier.trans (regions_prefix_next h event)) List.prefix_rfl events

/-! ### Histories over a paged memory -/

section Paged

variable {history : History PagedMemory}

theorem advanced_next (h : history.arena.Sound) (event : Event) :
    history.arena.Advanced (history.next event).arena := by
  cases event with
  | request size align =>
    rw [arena_next_request]
    exact Arena.advanced_allocate h size align
  | growth pages => exact .afterGrow h pages

/-- **Events advance an arena.** -/
theorem advanced_run (h : history.arena.Sound) (events : List Event) :
    history.arena.Advanced (history.run events).arena :=
  run_induction (P := fun later => history.arena.Advanced later.arena)
    (fun _ event hlater => hlater.trans (advanced_next hlater.sound event)) (.refl h) events

/-- An arena over a fresh memory stays sound, and its memory within the same limit. -/
theorem sound_run_start (initialPages maxPages heapBase : ℕ) (events : List Event) :
    ((start (PagedMemory.ofPages initialPages maxPages heapBase)).run events).arena.Sound ∧
      ((start (PagedMemory.ofPages initialPages maxPages heapBase)).run
        events).arena.memory.capacity = maxPages * Contract.pageSize := by
  have hstart : (start (PagedMemory.ofPages initialPages maxPages heapBase)).arena.Sound :=
    Arena.sound_ofMemory (PagedMemory.wellFormed_ofPages initialPages maxPages heapBase)
  have hrun := advanced_run hstart events
  exact ⟨hrun.sound, hrun.capacity_eq⟩

end Paged
end History
end JobSandbox
