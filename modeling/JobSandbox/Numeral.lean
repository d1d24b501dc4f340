import JobSandbox.Bytes
import JobSandbox.Fault

/-!
# Integers as text

A 32-bit integer is written into a caller's buffer in any radix from 2 to 36: a minus sign for
negative values, digits in lower case without leading zeros, and a zero byte at the end.

Division yields the digits least significant first, so they fill the buffer in that order and are
turned round once the terminator has found a slot too.  The buffer may be too short for the digits,
for the sign or for the terminator; in each case the call reports the first slot it lacked, and
leaves what it had written so far, still back to front.

## Main definitions

* `putDigits`, `putByte` — filling the free slots of a buffer one by one.
* `writeInteger` — the whole numeral into a buffer.
* `Numeral` — a numeral in a buffer of its own, wide enough for every value and radix.
-/

namespace JobSandbox

/-- The byte for a digit: `0` to `9`, then `a` to `z`. -/
def digitByte (d : Nat) : UInt8 :=
  if d < 10 then UInt8.ofNat (48 + d) else UInt8.ofNat (87 + d)

/-- The byte that marks a negative numeral. -/
def minusByte : UInt8 := 45

/-! ### Filling a buffer -/

/-- A buffer that is being filled from the front. -/
structure Slots where
  /-- What has been written, the latest byte first. -/
  written : Bytes
  /-- The slots behind it, with what they held before. -/
  free : Bytes
  deriving DecidableEq, Repr

namespace Slots

/-- All slots of a buffer, before anything is written. -/
def ofBuffer (buffer : Bytes) : Slots := ⟨[], buffer⟩

/-- The buffer as it stands. -/
def buffer (slots : Slots) : Bytes := slots.written.reverse ++ slots.free

/-- The error of a write that finds no free slot. -/
def full (slots : Slots) : ArgumentError :=
  .outOfBounds (slots.written.length + 1) slots.written.length

end Slots

/-- Writes one byte into the next free slot, if there is one. -/
def putByte (b : UInt8) : Slots → Except Slots Slots
  | ⟨written, []⟩ => .error ⟨written, []⟩
  | ⟨written, _ :: free⟩ => .ok ⟨b :: written, free⟩

/-- Writes the digits of `n`, least significant first, one per free slot; zero has one digit. -/
def putDigits (base : Nat) : (n : Nat) → (written free : Bytes) → Except Slots Slots
  | _, written, [] => .error ⟨written, []⟩
  | n, written, _ :: free =>
    let written := digitByte (n % base) :: written
    if n / base = 0 then .ok ⟨written, free⟩ else putDigits base (n / base) written free

/-! ### The numeral in a buffer -/

/-- A radix in which integers are written. -/
def IsRadix (base : Nat) : Prop := Contract.minRadix ≤ base ∧ base ≤ Contract.maxRadix

instance (base : Nat) : Decidable (IsRadix base) := inferInstanceAs (Decidable (_ ∧ _))

/-- Digits, sign and terminator into the slots of a buffer. -/
def putInteger (value : Int32) (base : Nat) (buffer : Bytes) : Except Slots Slots := do
  let slots ← putDigits base value.toInt.natAbs [] buffer
  let slots ← if value.toInt < 0 then putByte minusByte slots else .ok slots
  putByte 0 slots

/-- Writes an integer into a buffer.  The answer is the length of the numeral without its
terminator, or the cause of failure, together with the buffer afterwards.  A refused radix leaves
an empty text if there is room for one. -/
def writeInteger (value : Int32) (base : Nat) (buffer : Bytes) :
    Except ArgumentError Nat × Bytes :=
  if IsRadix base then
    match putInteger value base buffer with
    | .error slots => (.error slots.full, slots.buffer)
    | .ok slots =>
      -- The latest byte is the terminator; behind it the numeral reads front to back.
      let text := slots.written.tail
      (.ok text.length, text ++ 0 :: slots.free)
  else (.error (.invalidBase base), match buffer with
    | [] => []
    | _ :: rest => 0 :: rest)

/-! ### A numeral by itself -/

/-- A numeral and its terminator, in a buffer of fixed size. -/
structure Numeral where
  buffer : Bytes
  length : Nat
  deriving DecidableEq, Repr

namespace Numeral

def blank : Bytes := List.replicate Contract.integerTextRoom 0

/-- No text at all. -/
def empty : Numeral := ⟨blank, 0⟩

/-- The numeral of `value`, or the reason there is none in this radix. -/
def ofInt32? (value : Int32) (base : Nat) : Except ArgumentError Numeral :=
  match writeInteger value base blank with
  | (.ok length, buffer) => .ok ⟨buffer, length⟩
  | (.error e, _) => .error e

/-- The numeral of `value`, empty in a radix that is refused. -/
def ofInt32 (value : Int32) (base : Nat) : Numeral :=
  match ofInt32? value base with
  | .ok numeral => numeral
  | .error _ => empty

def bytes (numeral : Numeral) : Bytes := numeral.buffer.take numeral.length

def bytesWithNul (numeral : Numeral) : Bytes := numeral.buffer.take (numeral.length + 1)

def isEmpty (numeral : Numeral) : Bool := numeral.length == 0

/-- The numeral as a text: its bytes are all ASCII. -/
def text (numeral : Numeral) : String :=
  String.ofList (numeral.bytes.map fun b => Char.ofNat b.toNat)

@[simp] theorem isEmpty_empty : empty.isEmpty = true := rfl

@[simp] theorem bytes_empty : empty.bytes = [] := rfl

theorem ofInt32_eq_of_ofInt32? {value : Int32} {base : Nat} {numeral : Numeral}
    (h : ofInt32? value base = .ok numeral) : ofInt32 value base = numeral := by
  simp [ofInt32, h]

end Numeral
end JobSandbox
