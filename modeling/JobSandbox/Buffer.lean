import JobSandbox.Bytes
import JobSandbox.Fault

/-!
# Copying and filling

The two block operations on a caller's buffer.  Both take the number of bytes to write and refuse,
before touching the buffer, a number that some operand does not have.

## Main definitions

* `copyInto` — the first bytes of a source over the first bytes of a buffer.
* `fillWith` — one byte over the first bytes of a buffer.
-/

namespace JobSandbox

/-- `buffer` with its first `n` bytes replaced by those of `source`. -/
def copyInto (buffer source : Bytes) (n : Nat) : Except ArgumentError Bytes :=
  if n ≤ min buffer.length source.length then .ok (source.take n ++ buffer.drop n)
  else .error (.outOfBounds n (min buffer.length source.length))

/-- `buffer` with its first `n` bytes set to the lowest byte of `value`. -/
def fillWith (buffer : Bytes) (value : Int32) (n : Nat) : Except ArgumentError Bytes :=
  if n ≤ buffer.length then
    .ok (List.replicate n value.toUInt32.toUInt8 ++ buffer.drop n)
  else .error (.outOfBounds n buffer.length)

/-- Copying keeps the length of the buffer. -/
theorem length_of_copyInto {buffer source result : Bytes} {n : Nat}
    (h : copyInto buffer source n = .ok result) : result.length = buffer.length := by
  unfold copyInto at h
  split at h
  · cases h
    simp
    omega
  · cases h

/-- Filling keeps the length of the buffer. -/
theorem length_of_fillWith {buffer result : Bytes} {value : Int32} {n : Nat}
    (h : fillWith buffer value n = .ok result) : result.length = buffer.length := by
  unfold fillWith at h
  split at h
  · cases h
    simp
    omega
  · cases h

end JobSandbox
