import JobSandbox.Bytes
import JobSandbox.Text.Blank
import JobSandbox.Text.Quoted

/-!
# Hexadecimal text

Bytes are written as two lower-case digits each.  A text is read with either case, with white space
around it and with one `0x` in front; its length is counted in bytes, and digits are looked at byte
by byte, so a character outside ASCII shows in an error as its first byte.

## Main definitions

* `Hex.ofBytes` — the text of a byte string.
* `Hex.parse` — the bytes of a text, or what is wrong with it.
-/

namespace JobSandbox
namespace Hex

/-- The digit for a number below sixteen. -/
def digitChar (d : Nat) : Char := Nat.digitChar d

/-- The two digits of a byte. -/
def pair (b : UInt8) : List Char := [digitChar (b.toNat / 16), digitChar (b.toNat % 16)]

/-- The digits of a byte string. -/
def chars (bytes : Bytes) : List Char := bytes.flatMap pair

def ofBytes (bytes : Bytes) : String := String.ofList (chars bytes)

@[simp] theorem chars_nil : chars [] = [] := rfl

@[simp] theorem chars_cons (b : UInt8) (bs : Bytes) : chars (b :: bs) = pair b ++ chars bs := rfl

/-! ### Reading -/

/-- What is wrong with a text that is not hexadecimal. -/
inductive ParseError where
  /-- Digits come in pairs. -/
  | oddLength (length : Nat)
  /-- A byte that is no digit. -/
  | badDigit (byte : UInt8)
  deriving DecidableEq, Repr

namespace ParseError

def message : ParseError → String
  | oddLength length => s!"hex input has an odd number of digits ({length})"
  | badDigit byte => "invalid hex digit " ++ quoteChar (Char.ofNat byte.toNat)

end ParseError

/-- The value of the digit with a code, in either case. -/
def valueOfCode? (n : Nat) : Option Nat :=
  if 48 ≤ n ∧ n ≤ 57 then some (n - 48)
  else if 97 ≤ n ∧ n ≤ 102 then some (n - 87)
  else if 65 ≤ n ∧ n ≤ 70 then some (n - 55)
  else none

/-- The value of a digit. -/
def digitValue (b : UInt8) : Except ParseError Nat :=
  match valueOfCode? b.toNat with
  | some value => .ok value
  | none => .error (.badDigit b)

/-- The bytes of pairs of digits; `done` holds those in front, the latest first.  A digit without a
partner does not occur, since the length has been checked. -/
def parsePairs : (done : Bytes) → Bytes → Except ParseError Bytes
  | done, high :: low :: rest => do
    let h ← digitValue high
    let l ← digitValue low
    parsePairs (UInt8.ofNat (16 * h + l) :: done) rest
  | done, _ => .ok done.reverse

/-- The digits of a text: without white space around them, and without the marker. -/
def digitsOf (text : String) : List Char :=
  match trimChars text.toList with
  | '0' :: 'x' :: rest => rest
  | cs => cs

/-- The bytes that a text stands for. -/
def parse (text : String) : Except ParseError Bytes :=
  let digits := Bytes.ofChars (digitsOf text)
  if digits.length % 2 = 0 then parsePairs [] digits else .error (.oddLength digits.length)

end Hex
end JobSandbox
