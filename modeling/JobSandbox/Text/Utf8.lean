import JobSandbox.Bytes

/-!
# Reading UTF-8

A byte string is scanned once, from the front.  The first byte of a character says how many bytes
follow and what the next one may be; those bounds leave out overlong forms, surrogates and code
points past the last.  Where a byte does not fit, everything since the last character is one invalid
stretch, and the byte is looked at again as a first byte.

## Main definitions

* `Utf8.scan` — the characters of a byte string, with a gap for each invalid stretch.
* `Utf8.decode?` — the text of a byte string that has no gap.
* `Utf8.lossy` — the text with a replacement character for each gap.
-/

namespace JobSandbox
namespace Utf8

/-- What is read so far of a character of several bytes. -/
structure Pending where
  /-- How many bytes are still to come. -/
  owed : Nat
  /-- The bounds of the next byte. -/
  low : Nat
  high : Nat
  /-- The bits read so far. -/
  bits : Nat
  deriving DecidableEq, Repr

/-- What a first byte announces: a whole character, more bytes, or nothing valid. -/
inductive Lead where
  | whole (c : Char)
  | more (pending : Pending)
  | invalid
  deriving DecidableEq

/-- The reading of a first byte. -/
def lead (b : Nat) : Lead :=
  if b ≤ 0x7f then .whole (Char.ofNat b)
  else if b < 0xc2 then .invalid
  else if b ≤ 0xdf then .more ⟨1, 0x80, 0xbf, b - 0xc0⟩
  else if b = 0xe0 then .more ⟨2, 0xa0, 0xbf, 0⟩
  else if b = 0xed then .more ⟨2, 0x80, 0x9f, 0xd⟩
  else if b ≤ 0xef then .more ⟨2, 0x80, 0xbf, b - 0xe0⟩
  else if b = 0xf0 then .more ⟨3, 0x90, 0xbf, 0⟩
  else if b ≤ 0xf3 then .more ⟨3, 0x80, 0xbf, b - 0xf0⟩
  else if b = 0xf4 then .more ⟨3, 0x80, 0x8f, 4⟩
  else .invalid

/-- The state of a scan: what was found, the latest first, and the character under way. -/
structure State where
  found : List (Option Char)
  pending : Option Pending
  deriving DecidableEq

/-- A first byte after `found`. -/
def start (found : List (Option Char)) (b : UInt8) : State :=
  match lead b.toNat with
  | .whole c => ⟨some c :: found, none⟩
  | .more pending => ⟨found, some pending⟩
  | .invalid => ⟨none :: found, none⟩

/-- One more byte. -/
def step (state : State) (b : UInt8) : State :=
  match state.pending with
  | none => start state.found b
  | some p =>
    if p.low ≤ b.toNat ∧ b.toNat ≤ p.high then
      let bits := 64 * p.bits + (b.toNat - 0x80)
      if p.owed = 1 then ⟨some (Char.ofNat bits) :: state.found, none⟩
      else ⟨state.found, some ⟨p.owed - 1, 0x80, 0xbf, bits⟩⟩
    else start (none :: state.found) b

/-- What was found once no byte is left: a character under way is an invalid stretch. -/
def finish (state : State) : List (Option Char) :=
  match state.pending with
  | none => state.found.reverse
  | some _ => (none :: state.found).reverse

/-- The characters of a byte string, with `none` for each invalid stretch. -/
def scan (bytes : Bytes) : List (Option Char) := finish (bytes.foldl step ⟨[], none⟩)

/-- The text of a byte string that is UTF-8 throughout. -/
def decode? (bytes : Bytes) : Option String := ((scan bytes).mapM id).map String.ofList

/-- The character that stands for an invalid stretch. -/
def replacement : Char := Char.ofNat 0xfffd

/-- The text of a byte string, each invalid stretch replaced by one character. -/
def lossy (bytes : Bytes) : String :=
  String.ofList ((scan bytes).map fun c => c.getD replacement)

@[simp] theorem scan_nil : scan [] = [] := rfl

@[simp] theorem lossy_nil : lossy [] = "" := rfl

end Utf8
end JobSandbox
