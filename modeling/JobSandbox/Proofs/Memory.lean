import JobSandbox.Memory
import JobSandbox.Proofs.Address
import Mathlib.Algebra.Order.Group.Nat
import Mathlib.Data.List.Basic

/-!
# Paged memory

What growing, reading and writing do to a paged memory, in terms of its size and of the list of its
bytes.  A memory is well formed when it is a whole number of pages and no more than it may be; every
memory that starts fresh stays so.

## Main definitions

* `PagedMemory.capacity`, `PagedMemory.WellFormed` — the size a memory may reach, and that it is
  within it.
* `PagedMemory.bytes` — the bytes as a list.
* `PagedMemory.GrownFrom` — the same bytes, with zeros behind them.

## Main results

* `grow_answer`, `size_grow` — growth succeeds exactly up to the capacity.
* `getElem?_bytes_write` — a write changes the range it is told and nothing else.
* `read?_eq_some_iff`, `read?_eq_of_getElem?_eq` — a read sees its range and nothing else.
-/

namespace JobSandbox
namespace PagedMemory

variable {memory memory' : PagedMemory}

/-! ### Sizes -/

/-- The number of bytes that the memory may have. -/
def capacity (memory : PagedMemory) : ℕ := memory.maxPages * Contract.pageSize

/-- A whole number of pages, within the limit. -/
structure WellFormed (memory : PagedMemory) : Prop where
  pages_mul : memory.pages * Contract.pageSize = memory.size
  pages_le : memory.pages ≤ memory.maxPages

theorem WellFormed.size_le (h : memory.WellFormed) : memory.size ≤ memory.capacity := by
  rw [← h.pages_mul, capacity]
  exact Nat.mul_le_mul_right _ h.pages_le

theorem pages_eq_of_size {k : ℕ} (h : memory.size = k * Contract.pageSize) : memory.pages = k := by
  rw [pages, h]
  exact Nat.mul_div_cancel k (by decide)

theorem pages_ofPages (initialPages maxPages heapBase : ℕ) :
    (ofPages initialPages maxPages heapBase).pages = min initialPages maxPages :=
  pages_eq_of_size (size_ofPages _ _ _)

theorem wellFormed_ofPages (initialPages maxPages heapBase : ℕ) :
    (ofPages initialPages maxPages heapBase).WellFormed where
  pages_mul := by rw [pages_ofPages, size_ofPages]
  pages_le := by
    rw [pages_ofPages]
    exact Nat.min_le_right _ _

/-! ### Growing -/

/-- Growth in one equation: the answer and the memory behind it. -/
theorem grow_eq (memory : PagedMemory) (pages : ℕ) :
    memory.grow pages =
      if memory.pages + pages < Address.addressSpace ∧ memory.pages + pages ≤ memory.maxPages then
        (some memory.pages,
          { memory with
            growCalls := memory.growCalls + 1
            content := appendPages memory.content pages })
      else (none, { memory with growCalls := memory.growCalls + 1 }) := by
  have hpages : ({ memory with growCalls := memory.growCalls + 1 } : PagedMemory).pages =
    memory.pages := rfl
  simp only [grow, hpages, Address.add?]
  by_cases hspace : memory.pages + pages < Address.addressSpace
  · by_cases hmax : memory.pages + pages ≤ memory.maxPages
    · rw [if_pos hspace, if_pos ⟨hspace, hmax⟩]
      exact if_pos hmax
    · rw [if_pos hspace, if_neg fun h => hmax h.2]
      exact if_neg hmax
  · rw [if_neg hspace, if_neg fun h => hspace h.1]

/-- A memory that refuses to grow only counts the request. -/
theorem grow_of_refused {pages : ℕ} (h : (memory.grow pages).1 = none) :
    (memory.grow pages).2 = { memory with growCalls := memory.growCalls + 1 } := by
  rw [grow_eq] at h ⊢
  split at h
  · cases h
  · next hrefused => rw [if_neg hrefused]

/-- A memory that grows gets zero pages at its end. -/
theorem grow_of_granted {pages prev : ℕ} (h : (memory.grow pages).1 = some prev) :
    (memory.grow pages).2 =
      { memory with
        growCalls := memory.growCalls + 1
        content := appendPages memory.content pages } := by
  rw [grow_eq] at h ⊢
  split at h
  · next hgranted => rw [if_pos hgranted]
  · cases h

@[simp] theorem capacity_grow (memory : PagedMemory) (pages : ℕ) :
    (memory.grow pages).2.capacity = memory.capacity := by
  rw [capacity, capacity, maxPages_grow]

@[simp] theorem heapBase_grow (memory : PagedMemory) (pages : ℕ) :
    (memory.grow pages).2.heapBase = memory.heapBase := by
  rw [grow_eq]
  split <;> rfl

theorem size_grow_of_refused {pages : ℕ} (h : (memory.grow pages).1 = none) :
    (memory.grow pages).2.size = memory.size := by
  rw [grow_of_refused h]
  rfl

theorem size_grow_of_granted {pages prev : ℕ} (h : (memory.grow pages).1 = some prev) :
    (memory.grow pages).2.size = memory.size + pages * Contract.pageSize :=
  (grow_eq_some h).2.2

theorem size_le_grow (memory : PagedMemory) (pages : ℕ) :
    memory.size ≤ (memory.grow pages).2.size := by
  cases h : (memory.grow pages).1 with
  | none => rw [size_grow_of_refused h]
  | some prev =>
    rw [size_grow_of_granted h]
    exact Nat.le_add_right _ _

theorem WellFormed.pages_grow_of_granted (h : memory.WellFormed) {pages prev : ℕ}
    (hgrow : (memory.grow pages).1 = some prev) :
    (memory.grow pages).2.pages = memory.pages + pages := by
  apply pages_eq_of_size
  rw [size_grow_of_granted hgrow, Nat.add_mul, h.pages_mul]

theorem pages_grow_of_refused {pages : ℕ} (h : (memory.grow pages).1 = none) :
    (memory.grow pages).2.pages = memory.pages := by
  rw [grow_of_refused h]
  rfl

theorem WellFormed.grow (h : memory.WellFormed) (pages : ℕ) : (memory.grow pages).2.WellFormed := by
  cases hgrow : (memory.grow pages).1 with
  | none =>
    rw [grow_of_refused hgrow]
    exact ⟨h.pages_mul, h.pages_le⟩
  | some prev =>
    have hpages := h.pages_grow_of_granted hgrow
    refine ⟨?_, ?_⟩
    · rw [hpages, size_grow_of_granted hgrow, Nat.add_mul, h.pages_mul]
    · rw [hpages, maxPages_grow]
      exact (grow_eq_some hgrow).2.1

/-- **A memory grows up to its capacity**, as far as the capacity is an address. -/
theorem grow_answer (h : memory.WellFormed) (hcap : memory.capacity < Address.addressSpace)
    (pages : ℕ) :
    (memory.grow pages).1 =
      if memory.size + pages * Contract.pageSize ≤ memory.capacity then some memory.pages
      else none := by
  have hiff : memory.size + pages * Contract.pageSize ≤ memory.capacity ↔
      memory.pages + pages ≤ memory.maxPages := by
    rw [← h.pages_mul, ← Nat.add_mul, capacity]
    exact Nat.mul_le_mul_right_iff (by decide)
  have hmax : memory.maxPages ≤ memory.capacity := Nat.le_mul_of_pos_right _ (by decide)
  rw [grow_eq]
  by_cases hle : memory.pages + pages ≤ memory.maxPages
  · rw [if_pos (hiff.mpr hle), if_pos ⟨by omega, hle⟩]
  · rw [if_neg fun hsize => hle (hiff.mp hsize), if_neg fun hgranted => hle hgranted.2]

/-! ### Bytes -/

/-- The bytes of the memory, from address zero on. -/
def bytes (memory : PagedMemory) : Bytes := memory.content.data.toList

@[simp] theorem length_bytes (memory : PagedMemory) : memory.bytes.length = memory.size := by
  rw [bytes, Array.length_toList, ByteArray.size_data, size]

theorem toList_appendPages (content : ByteArray) (pages : ℕ) :
    (appendPages content pages).data.toList =
      content.data.toList ++ List.replicate (pages * Contract.pageSize) 0 := by
  induction pages generalizing content with
  | zero => simp [appendPages]
  | succ pages ih =>
    rw [appendPages, ih, ByteArray.toList_data_append, List.append_assoc, zeroPage,
      List.toList_data_toByteArray, List.replicate_append_replicate, Nat.add_mul, Nat.one_mul,
      Nat.add_comm]

theorem bytes_ofPages (initialPages maxPages heapBase : ℕ) :
    (ofPages initialPages maxPages heapBase).bytes =
      List.replicate (min initialPages maxPages * Contract.pageSize) 0 := by
  rw [bytes, ofPages, toList_appendPages]
  exact List.nil_append _

/-- The bytes of `old` with zeros behind them. -/
def GrownFrom (old memory : PagedMemory) : Prop :=
  ∃ n, memory.bytes = old.bytes ++ List.replicate n 0

namespace GrownFrom

theorem refl (memory : PagedMemory) : GrownFrom memory memory := ⟨0, by simp⟩

theorem trans {a b c : PagedMemory} (hab : GrownFrom a b) (hbc : GrownFrom b c) :
    GrownFrom a c := by
  obtain ⟨m, hm⟩ := hab
  obtain ⟨n, hn⟩ := hbc
  exact ⟨m + n, by rw [hn, hm, List.append_assoc, List.replicate_append_replicate]⟩

theorem size_le (h : GrownFrom memory memory') : memory.size ≤ memory'.size := by
  obtain ⟨n, hn⟩ := h
  rw [← length_bytes, ← length_bytes, hn, List.length_append]
  exact Nat.le_add_right _ _

/-- Addresses of the old memory keep their bytes. -/
theorem getElem?_bytes (h : GrownFrom memory memory') {a : ℕ} (ha : a < memory.size) :
    memory'.bytes[a]? = memory.bytes[a]? := by
  obtain ⟨n, hn⟩ := h
  rw [hn, List.getElem?_append_left (by rwa [length_bytes])]

/-- Addresses behind the old memory hold zeros. -/
theorem getElem?_bytes_of_le (h : GrownFrom memory memory') {a : ℕ} (hle : memory.size ≤ a)
    (ha : a < memory'.size) : memory'.bytes[a]? = some 0 := by
  obtain ⟨n, hn⟩ := h
  have hlength := congrArg List.length hn
  rw [length_bytes, List.length_append, length_bytes, List.length_replicate] at hlength
  rw [hn, List.getElem?_append_right (by rwa [length_bytes]), length_bytes,
    List.getElem?_replicate_of_lt (by omega)]

end GrownFrom

/-- A memory that started fresh and was never written to is zero. -/
theorem GrownFrom.zero {initialPages maxPages heapBase : ℕ}
    (h : GrownFrom (ofPages initialPages maxPages heapBase) memory) {a : ℕ} (ha : a < memory.size) :
    memory.bytes[a]? = some 0 := by
  rcases Nat.lt_or_ge a (ofPages initialPages maxPages heapBase).size with hlt | hge
  · rw [h.getElem?_bytes hlt, bytes_ofPages, List.getElem?_replicate_of_lt]
    rwa [size_ofPages] at hlt
  · exact h.getElem?_bytes_of_le hge ha

theorem grownFrom_grow (memory : PagedMemory) (pages : ℕ) :
    GrownFrom memory (memory.grow pages).2 := by
  cases h : (memory.grow pages).1 with
  | none => exact ⟨0, by rw [grow_of_refused h]; simp [bytes]⟩
  | some prev => exact ⟨_, by rw [grow_of_granted h]; exact toList_appendPages _ _⟩

/-! ### Reading and writing -/

theorem read?_eq (memory : PagedMemory) (offset length : ℕ) :
    memory.read? offset length =
      if offset + length ≤ memory.size then some ((memory.bytes.drop offset).take length)
      else none := by
  rw [read?]
  refine if_congr Iff.rfl ?_ rfl
  rw [ByteArray.data_extract, Array.toList_extract, List.extract_eq_take_drop,
    Nat.add_sub_cancel_left]
  rfl

theorem read?_isSome_iff {offset length : ℕ} :
    (memory.read? offset length).isSome ↔ offset + length ≤ memory.size := by
  rw [read?_eq]
  split <;> simp_all

/-- What a read returns, byte by byte. -/
theorem read?_eq_some_iff {offset length : ℕ} {bytes : Bytes} :
    memory.read? offset length = some bytes ↔
      offset + length ≤ memory.size ∧ bytes.length = length ∧
        ∀ i < length, memory.bytes[offset + i]? = bytes[i]? := by
  rw [read?_eq]
  by_cases hin : offset + length ≤ memory.size
  · have hlength : ((memory.bytes.drop offset).take length).length = length := by
      rw [List.length_take, List.length_drop, length_bytes]
      omega
    rw [if_pos hin, Option.some.injEq]
    constructor
    · rintro rfl
      refine ⟨hin, hlength, fun i hi => ?_⟩
      rw [List.getElem?_take_of_lt hi, List.getElem?_drop]
    · rintro ⟨-, hbytes, h⟩
      apply List.ext_getElem?
      intro i
      rcases Nat.lt_or_ge i length with hi | hi
      · rw [List.getElem?_take_of_lt hi, List.getElem?_drop, h i hi]
      · rw [List.getElem?_eq_none (by omega), List.getElem?_eq_none (by omega)]
  · rw [if_neg hin]
    constructor
    · intro h
      cases h
    · rintro ⟨hle, -⟩
      exact absurd hle hin

/-- Two memories that agree on a range are read alike there. -/
theorem read?_eq_of_getElem?_eq {offset length : ℕ} (hsize : memory.size ≤ memory'.size)
    (hin : offset + length ≤ memory.size)
    (h : ∀ a, offset ≤ a → a < offset + length → memory'.bytes[a]? = memory.bytes[a]?) :
    memory'.read? offset length = memory.read? offset length := by
  obtain ⟨bytes, hread⟩ := Option.isSome_iff_exists.mp (read?_isSome_iff.mpr hin)
  obtain ⟨-, hlength, hbytes⟩ := read?_eq_some_iff.mp hread
  rw [hread, read?_eq_some_iff]
  refine ⟨hin.trans hsize, hlength, fun i hi => ?_⟩
  rw [h _ (by omega) (by omega), hbytes i hi]

/-- Growth does not show in what was there before. -/
theorem GrownFrom.read?_eq (h : GrownFrom memory memory') {offset length : ℕ}
    (hin : offset + length ≤ memory.size) :
    memory'.read? offset length = memory.read? offset length :=
  read?_eq_of_getElem?_eq h.size_le hin fun a _ ha => h.getElem?_bytes (by omega)

theorem write?_isSome_iff {offset : ℕ} {bytes : Bytes} :
    (memory.write? offset bytes).isSome ↔ offset + bytes.length ≤ memory.size := by
  rw [write?]
  split <;> simp_all [InRange]

theorem bytes_of_write? {offset : ℕ} {bytes : Bytes}
    (h : memory.write? offset bytes = some memory') :
    memory'.bytes =
      memory.bytes.take offset ++ bytes ++ memory.bytes.drop (offset + bytes.length) := by
  unfold write? at h
  split at h
  · cases h
    simp [PagedMemory.bytes, List.extract_eq_take_drop]
  · cases h

theorem maxPages_of_write? {offset : ℕ} {bytes : Bytes}
    (h : memory.write? offset bytes = some memory') : memory'.maxPages = memory.maxPages := by
  unfold write? at h
  split at h
  · cases h
    rfl
  · cases h

theorem heapBase_of_write? {offset : ℕ} {bytes : Bytes}
    (h : memory.write? offset bytes = some memory') : memory'.heapBase = memory.heapBase := by
  unfold write? at h
  split at h
  · cases h
    rfl
  · cases h

theorem growCalls_of_write? {offset : ℕ} {bytes : Bytes}
    (h : memory.write? offset bytes = some memory') : memory'.growCalls = memory.growCalls := by
  unfold write? at h
  split at h
  · cases h
    rfl
  · cases h

theorem WellFormed.of_write? (h : memory.WellFormed) {offset : ℕ} {bytes : Bytes}
    (hwrite : memory.write? offset bytes = some memory') : memory'.WellFormed := by
  have hsize := size_of_write? hwrite
  have hpages : memory'.pages = memory.pages := congrArg (· / Contract.pageSize) hsize
  refine ⟨?_, ?_⟩
  · rw [hpages, hsize, h.pages_mul]
  · rw [hpages, maxPages_of_write? hwrite]
    exact h.pages_le

/-- **A write puts its bytes into its range and leaves all others alone.** -/
theorem getElem?_bytes_of_write? {offset : ℕ} {bytes : Bytes}
    (h : memory.write? offset bytes = some memory') (a : ℕ) :
    memory'.bytes[a]? =
      if offset ≤ a ∧ a < offset + bytes.length then bytes[a - offset]? else memory.bytes[a]? := by
  have hin : offset + bytes.length ≤ memory.bytes.length := by
    rw [length_bytes, ← write?_isSome_iff, h]
    rfl
  have htake : (memory.bytes.take offset).length = offset := by
    rw [List.length_take]
    omega
  rw [bytes_of_write? h]
  rcases Nat.lt_or_ge a offset with ha | ha
  · rw [List.append_assoc, List.getElem?_append_left (by omega), List.getElem?_take_of_lt ha,
      if_neg (by omega)]
  · rcases Nat.lt_or_ge a (offset + bytes.length) with hb | hb
    · rw [List.append_assoc, List.getElem?_append_right (by omega), htake,
        List.getElem?_append_left (by omega), if_pos ⟨ha, hb⟩]
    · rw [List.getElem?_append_right (by rw [List.length_append]; omega), List.length_append,
        htake, List.getElem?_drop, if_neg (by omega)]
      congr 1
      omega

end PagedMemory
end JobSandbox
