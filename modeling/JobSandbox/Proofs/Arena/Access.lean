import JobSandbox.Proofs.Arena.Paged

/-!
# Reading and writing regions

What a write through a region does to the arena, and to what can be read of it: through the same
region, the bytes written over those that were there; through a region that lies apart, nothing.

## Main definitions

* `Bytes.overwrite` — a buffer with other bytes over its front.

## Main results

* `read?_of_write?`, `read?_of_write?_of_apart` — a read after a write.
-/

namespace JobSandbox

/-! ### Buffers -/

/-- A buffer with other bytes over its front, as far as it reaches. -/
def Bytes.overwrite (buffer bytes : Bytes) : Bytes :=
  bytes.take buffer.length ++ buffer.drop bytes.length

theorem Bytes.length_overwrite (buffer bytes : Bytes) :
    (buffer.overwrite bytes).length = buffer.length := by
  rw [overwrite, List.length_append, List.length_take, List.length_drop]
  omega

theorem Bytes.getElem?_overwrite (buffer bytes : Bytes) {i : ℕ} (hi : i < buffer.length) :
    (buffer.overwrite bytes)[i]? = if i < bytes.length then bytes[i]? else buffer[i]? := by
  have htake : (bytes.take buffer.length).length = min buffer.length bytes.length :=
    List.length_take
  rw [overwrite]
  by_cases hlt : i < bytes.length
  · rw [if_pos hlt, List.getElem?_append_left (by omega), List.getElem?_take_of_lt hi]
  · rw [if_neg hlt, List.getElem?_append_right (by omega), List.getElem?_drop]
    congr 1
    omega

/-- The front of a buffer is what was put over it. -/
theorem Bytes.take_overwrite (buffer bytes : Bytes) :
    (buffer.overwrite bytes).take (min buffer.length bytes.length) =
      bytes.take (min buffer.length bytes.length) := by
  have htake : (bytes.take buffer.length).length = min buffer.length bytes.length :=
    List.length_take
  rw [overwrite, List.take_append_of_le_length htake.ge, List.take_take, Nat.min_right_comm,
    Nat.min_self]

/-- Bytes of the same length take the place of a whole buffer. -/
theorem Bytes.overwrite_of_length_eq {buffer bytes : Bytes} (h : bytes.length = buffer.length) :
    buffer.overwrite bytes = bytes := by
  rw [overwrite, h, List.drop_length, List.append_nil, ← h, List.take_length]

/-! ### Regions -/

namespace Arena

variable {arena after : Arena PagedMemory} {region other : Region} {bytes content : Bytes}

theorem read?_isSome_iff : (arena.read? region).isSome ↔ region.stop ≤ arena.memory.size :=
  PagedMemory.read?_isSome_iff

theorem write?_eq_some_iff :
    arena.write? region bytes = some after ↔
      region.stop ≤ arena.memory.size ∧ ∃ memory,
        arena.memory.write? region.offset (bytes.take region.length) = some memory ∧
          { arena with memory } = after := by
  unfold write?
  by_cases hin : arena.memory.InRange region.offset region.length
  · rw [if_pos hin, Option.map_eq_some_iff]
    exact ⟨fun h => ⟨hin, h⟩, fun h => h.2⟩
  · rw [if_neg hin]
    constructor
    · intro h
      cases h
    · rintro ⟨hle, -⟩
      exact absurd hle hin

/-- A region can be written as soon as it can be read. -/
theorem write?_isSome_iff :
    (arena.write? region bytes).isSome ↔ region.stop ≤ arena.memory.size := by
  rw [Option.isSome_iff_exists]
  simp only [write?_eq_some_iff]
  constructor
  · rintro ⟨after, hle, -⟩
    exact hle
  · intro hle
    have hdef : region.stop = region.offset + region.length := rfl
    have hroom : region.offset + (bytes.take region.length).length ≤ arena.memory.size := by
      rw [List.length_take]
      omega
    obtain ⟨memory, hmemory⟩ :=
      Option.isSome_iff_exists.mp (PagedMemory.write?_isSome_iff.mpr hroom)
    exact ⟨_, hle, memory, hmemory, rfl⟩

/-- A write changes the bytes of the memory, and nothing else of an arena. -/
theorem of_write? (h : arena.write? region bytes = some after) :
    after.mark = arena.mark ∧ after.limit = arena.limit ∧
      after.memory.size = arena.memory.size ∧ (arena.Sound → after.Sound) := by
  obtain ⟨-, memory, hmemory, rfl⟩ := write?_eq_some_iff.mp h
  have hsize : memory.size = arena.memory.size := PagedMemory.size_of_write? hmemory
  exact ⟨rfl, rfl, hsize, fun hsound => ⟨hsound.wellFormed.of_write? hmemory,
    hsound.limit_le.trans hsize.ge⟩⟩

/-- A write does not ask the memory to grow. -/
theorem growCalls_of_write? (h : arena.write? region bytes = some after) :
    after.memory.growCalls = arena.memory.growCalls := by
  obtain ⟨-, memory, hmemory, rfl⟩ := write?_eq_some_iff.mp h
  exact PagedMemory.growCalls_of_write? hmemory

/-- A write does not move the heap. -/
theorem heapBase_of_write? (h : arena.write? region bytes = some after) :
    after.memory.heapBase = arena.memory.heapBase := by
  obtain ⟨-, memory, hmemory, rfl⟩ := write?_eq_some_iff.mp h
  exact PagedMemory.heapBase_of_write? hmemory

/-- The bytes behind a write. -/
theorem getElem?_bytes_of_write? (h : arena.write? region bytes = some after) (a : ℕ) :
    after.memory.bytes[a]? =
      if region.offset ≤ a ∧ a < region.offset + min region.length bytes.length then
        bytes[a - region.offset]?
      else arena.memory.bytes[a]? := by
  obtain ⟨-, memory, hmemory, rfl⟩ := write?_eq_some_iff.mp h
  have hbytes := PagedMemory.getElem?_bytes_of_write? hmemory a
  rw [List.length_take] at hbytes
  rw [hbytes]
  split
  · rw [List.getElem?_take_of_lt (by omega)]
  · rfl

/-- **A write shows in its own region**, in front of what is left of the bytes from before. -/
theorem read?_of_write? (h : arena.write? region bytes = some after)
    (hread : arena.read? region = some content) :
    after.read? region = some (content.overwrite bytes) := by
  obtain ⟨hin, hlength, hbytes⟩ := PagedMemory.read?_eq_some_iff.mp hread
  obtain ⟨-, -, hsize, -⟩ := of_write? h
  refine PagedMemory.read?_eq_some_iff.mpr ⟨hsize.symm ▸ hin, ?_, fun i hi => ?_⟩
  · rw [Bytes.length_overwrite, hlength]
  · rw [getElem?_bytes_of_write? h, Bytes.getElem?_overwrite _ _ (by omega),
      Nat.add_sub_cancel_left, hbytes i hi]
    exact if_congr (by omega) rfl rfl

/-- **A write does not show in a region that lies apart.** -/
theorem read?_of_write?_of_apart (h : arena.write? region bytes = some after)
    (hapart : region.stop ≤ other.offset ∨ other.stop ≤ region.offset) :
    after.read? other = arena.read? other := by
  obtain ⟨-, -, hsize, -⟩ := of_write? h
  by_cases hin : other.stop ≤ arena.memory.size
  · refine PagedMemory.read?_eq_of_getElem?_eq hsize.ge hin fun a hle hlt => ?_
    have hdef : region.stop = region.offset + region.length := rfl
    have hdef' : other.stop = other.offset + other.length := rfl
    rw [getElem?_bytes_of_write? h, if_neg (by omega)]
  · have hnone : arena.read? other = none := if_neg hin
    rw [hnone]
    exact if_neg fun hle => hin (hsize ▸ hle)

end Arena
end JobSandbox
