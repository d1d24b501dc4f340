import JobSandbox.Address
import JobSandbox.Bytes

/-!
# Linear memory

The memory of a job is one stretch of bytes that starts at address zero and grows at its end, by
whole pages.  What an allocator needs of it is little: where its heap starts, how long it is, and
what happens when it is asked for more pages.  `LinearMemory` is that view.  A memory that can grant
only finitely many requests, whatever it answers, is a `FiniteMemory`; an allocation over it ends.

## Main definitions

* `LinearMemory`, `FiniteMemory` — memory as its allocator sees it.
* `PagedMemory` — bytes with a limit on the number of pages; others may grow it too.
* `PagedMemory.read?`, `PagedMemory.write?` — access to a range, which has to lie inside.
-/

namespace JobSandbox

/-! ### What an allocator sees -/

/-- A memory that can be asked to grow. -/
class LinearMemory (M : Type) where
  /-- The first address of the heap; it may lie past the end of the memory. -/
  heapBase : M → Nat
  /-- The number of bytes. -/
  size : M → Nat
  /-- Asks for more pages.  A grant is answered by the number of pages before it. -/
  grow : M → Nat → Option Nat × M

/-- A memory that grants only finitely many requests for at least one page. -/
class FiniteMemory (M : Type) extends LinearMemory M where
  /-- A bound on the number of grants still to come. -/
  budget : M → Nat
  budget_lt : ∀ (m : M) (pages prev : Nat), 0 < pages → (grow m pages).1 = some prev →
    budget (grow m pages).2 < budget m

/-! ### Paged memory -/

/-- A page of zero bytes. -/
def zeroPage : ByteArray := (List.replicate Contract.pageSize 0).toByteArray

/-- Bytes with a number of zero pages behind them. -/
def appendPages (bytes : ByteArray) : (pages : Nat) → ByteArray
  | 0 => bytes
  | pages + 1 => appendPages (bytes ++ zeroPage) pages

/-- A memory of whole pages. -/
structure PagedMemory where
  content : ByteArray
  heapBase : Nat
  maxPages : Nat
  /-- How often growth was asked for, with or without success. -/
  growCalls : Nat

namespace PagedMemory

def standardHeapBase : Nat := 1024

def standardMaxPages : Nat := 256

/-- A fresh memory: zero pages, no more than the limit allows. -/
def ofPages (initialPages maxPages heapBase : Nat) : PagedMemory where
  content := appendPages ByteArray.empty (min initialPages maxPages)
  heapBase := heapBase
  maxPages := maxPages
  growCalls := 0

/-- A fresh memory of one page. -/
def standard : PagedMemory := ofPages 1 standardMaxPages standardHeapBase

def size (memory : PagedMemory) : Nat := memory.content.size

def pages (memory : PagedMemory) : Nat := memory.size / Contract.pageSize

/-- Adds zero pages at the end, unless that passes the limit.  The answer is the number of pages
before. -/
def grow (memory : PagedMemory) (pages : Nat) : Option Nat × PagedMemory :=
  let memory := { memory with growCalls := memory.growCalls + 1 }
  match Address.add? memory.pages pages with
  | none => (none, memory)
  | some next =>
    if next ≤ memory.maxPages then
      (some memory.pages, { memory with content := appendPages memory.content pages })
    else (none, memory)

/-! ### Access -/

/-- Whether a range lies inside the memory.  An empty one has to start inside, or right at the
end. -/
def InRange (memory : PagedMemory) (offset length : Nat) : Prop := offset + length ≤ memory.size

instance (memory : PagedMemory) (offset length : Nat) : Decidable (memory.InRange offset length) :=
  inferInstanceAs (Decidable (_ ≤ _))

/-- The bytes of a range. -/
def read? (memory : PagedMemory) (offset length : Nat) : Option Bytes :=
  if memory.InRange offset length then
    some (memory.content.extract offset (offset + length)).data.toList
  else none

/-- The memory with `bytes` from `offset` on. -/
def write? (memory : PagedMemory) (offset : Nat) (bytes : Bytes) : Option PagedMemory :=
  if memory.InRange offset bytes.length then
    let content := memory.content
    some { memory with
      content := content.extract 0 offset ++ bytes.toByteArray ++
        content.extract (offset + bytes.length) content.size }
  else none

/-! ### Sizes -/

theorem size_zeroPage : zeroPage.size = Contract.pageSize := by
  simp only [zeroPage, List.size_toByteArray, List.length_replicate]

theorem size_appendPages (bytes : ByteArray) (pages : Nat) :
    (appendPages bytes pages).size = bytes.size + pages * Contract.pageSize := by
  induction pages generalizing bytes with
  | zero => simp [appendPages]
  | succ pages ih =>
    rw [appendPages, ih, ByteArray.size_append, size_zeroPage]
    simp only [Contract.pageSize]
    omega

theorem size_ofPages (initialPages maxPages heapBase : Nat) :
    (ofPages initialPages maxPages heapBase).size =
      min initialPages maxPages * Contract.pageSize := by
  simp only [size, ofPages, size_appendPages, ByteArray.size_empty, Nat.zero_add]

@[simp] theorem growCalls_grow (memory : PagedMemory) (pages : Nat) :
    (memory.grow pages).2.growCalls = memory.growCalls + 1 := by
  unfold grow
  dsimp only
  split
  · rfl
  · split <;> rfl

@[simp] theorem maxPages_grow (memory : PagedMemory) (pages : Nat) :
    (memory.grow pages).2.maxPages = memory.maxPages := by
  unfold grow
  dsimp only
  split
  · rfl
  · split <;> rfl

/-- A grant is answered by the pages before it, and adds what was asked for. -/
theorem grow_eq_some {memory : PagedMemory} {pages prev : Nat}
    (h : (memory.grow pages).1 = some prev) :
    prev = memory.pages ∧ memory.pages + pages ≤ memory.maxPages ∧
      (memory.grow pages).2.size = memory.size + pages * Contract.pageSize := by
  unfold grow at h ⊢
  dsimp only at h ⊢
  split at h
  · cases h
  · next next hnext =>
    have hsum := (Address.add?_eq_some_iff.mp hnext).1
    split at h
    · next hle =>
      simp only [hle, if_true]
      refine ⟨(Option.some.inj h).symm, ?_, ?_⟩
      · subst hsum
        exact hle
      · simp only [size, size_appendPages]
    · cases h

/-- Every grant takes pages away from the limit. -/
instance : FiniteMemory PagedMemory where
  heapBase := heapBase
  size := size
  grow := grow
  budget memory := memory.maxPages - memory.pages
  budget_lt memory pages prev hpos h := by
    obtain ⟨-, hle, hsize⟩ := grow_eq_some h
    have hpages : (memory.grow pages).2.pages = memory.pages + pages := by
      unfold PagedMemory.pages
      rw [hsize]
      simp only [Contract.pageSize]
      omega
    simp only [maxPages_grow, hpages]
    omega

/-! ### Reading and writing -/

theorem length_of_read? {memory : PagedMemory} {offset length : Nat} {bytes : Bytes}
    (h : memory.read? offset length = some bytes) : bytes.length = length := by
  unfold read? at h
  split at h
  · next hin =>
    cases h
    unfold InRange size at hin
    rw [Array.length_toList, ByteArray.size_data, ByteArray.size_extract]
    omega
  · cases h

theorem size_of_write? {memory memory' : PagedMemory} {offset : Nat} {bytes : Bytes}
    (h : memory.write? offset bytes = some memory') : memory'.size = memory.size := by
  unfold write? at h
  split at h
  · next hin =>
    cases h
    unfold InRange size at hin
    simp only [size, ByteArray.size_append, ByteArray.size_extract, List.size_toByteArray]
    omega
  · cases h

end PagedMemory
end JobSandbox
