import JobSandbox.Bytes

/-!
# Log lines of bounded size

A formatted message reaches the log through a buffer of 256 bytes, part by part.  Of a part that
does not fit, the longest front of whole characters that does is kept and the line is marked as
truncated.  A later part is still tried against the room that is left.

## Main definitions

* `fitting` — the longest front of a text within a number of bytes.
* `Line.write` — one more part on a line.
* `Line.ofParts` — the line of a whole message.
-/

namespace JobSandbox

/-- The longest front of `cs` whose UTF-8 form has at most `room` bytes. -/
def fitting : (room : Nat) → List Char → List Char
  | _, [] => []
  | room, c :: cs => if c.utf8Size ≤ room then c :: fitting (room - c.utf8Size) cs else []

/-- A line under construction. -/
structure Line where
  bytes : Bytes := []
  truncated : Bool := false
  deriving DecidableEq, Repr

namespace Line

def capacity : Nat := 256

/-- A line with nothing on it. -/
def blank : Line := {}

def room (line : Line) : Nat := capacity - line.bytes.length

/-- The line with as much of `part` on it as there is room for. -/
def write (line : Line) (part : String) : Line :=
  let kept := fitting line.room part.toList
  { bytes := line.bytes ++ Bytes.ofChars kept
    truncated := line.truncated || kept.length < part.toList.length }

/-- The line of a message that is written in parts. -/
def ofParts (parts : List String) : Line := parts.foldl write blank

/-- The line of a message that is written at once. -/
def ofText (text : String) : Line := blank.write text

@[simp] theorem ofParts_nil : ofParts [] = blank := rfl

theorem ofParts_append_singleton (parts : List String) (part : String) :
    ofParts (parts ++ [part]) = (ofParts parts).write part := by
  simp [ofParts]

@[simp] theorem ofParts_singleton (text : String) : ofParts [text] = ofText text := rfl

end Line

/-! ### The front that fits -/

@[simp] theorem fitting_nil (room : Nat) : fitting room [] = [] := by
  simp [fitting]

theorem fitting_isPrefix (room : Nat) (cs : List Char) : (fitting room cs).IsPrefix cs := by
  induction cs generalizing room with
  | nil => simp
  | cons c cs ih =>
    unfold fitting
    split
    · exact (List.prefix_cons_inj c).mpr (ih _)
    · exact List.nil_prefix

theorem length_ofChars_fitting_le (room : Nat) (cs : List Char) :
    (Bytes.ofChars (fitting room cs)).length ≤ room := by
  induction cs generalizing room with
  | nil => simp
  | cons c cs ih =>
    unfold fitting
    split
    · next h =>
      have := ih (room - c.utf8Size)
      rw [Bytes.ofChars_cons, List.length_append, String.length_utf8EncodeChar]
      omega
    · simp

/-- A line never outgrows its buffer. -/
theorem Line.length_write_le (line : Line) (part : String)
    (h : line.bytes.length ≤ Line.capacity) : (line.write part).bytes.length ≤ Line.capacity := by
  have := length_ofChars_fitting_le line.room part.toList
  simp only [Line.write, List.length_append]
  unfold Line.room at *
  omega

end JobSandbox
