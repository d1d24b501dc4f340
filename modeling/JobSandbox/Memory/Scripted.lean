import JobSandbox.Memory

/-!
# Memory that follows a script

A memory that has no bytes and answers requests for growth from a list, whatever they ask for.  The
answers may contradict each other and the size it started with.  It refuses once the list is used
up.  It shows what an allocator makes of a memory it cannot trust.
-/

namespace JobSandbox

/-- A memory whose answers are fixed in advance. -/
structure ScriptedMemory where
  heapBase : Nat
  size : Nat
  /-- The answers still to be given. -/
  answers : List (Option Nat)
  /-- The page counts asked for so far. -/
  asked : List Nat
  deriving DecidableEq, Repr

namespace ScriptedMemory

/-- Gives the next answer. -/
def grow (memory : ScriptedMemory) (pages : Nat) : Option Nat × ScriptedMemory :=
  (memory.answers.headD none,
    { memory with answers := memory.answers.tail, asked := memory.asked ++ [pages] })

/-- Every grant uses up an answer. -/
instance : FiniteMemory ScriptedMemory where
  heapBase := heapBase
  size := size
  grow := grow
  budget memory := memory.answers.length
  budget_lt memory pages prev _ h := by
    cases hs : memory.answers with
    | nil => simp [grow, hs] at h
    | cons answer rest => simp [grow, hs]

@[simp] theorem asked_grow (memory : ScriptedMemory) (pages : Nat) :
    (memory.grow pages).2.asked = memory.asked ++ [pages] := rfl

end ScriptedMemory
end JobSandbox
