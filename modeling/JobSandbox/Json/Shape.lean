import JobSandbox.Json.Document
import JobSandbox.Text.Base64

/-!
# Values in documents

A document is taken for a value of some shape.  That fails in two ways: the text is no JSON, or it
is JSON of another shape.  A text can suffer from both, and then the fault further to the front
counts.  So a document is looked at in the order of its text, and no further than its shape goes: a
list where a number should be is of the wrong shape whatever it holds.

Records are read from objects, whose fields may come in any order, or from arrays, which hold the
fields in theirs.  Where a record has several forms, a field tells which; it need not come first, so
the other fields are kept until it is found, and only values that can be kept will do.

## Main definitions

* `ReadError` — the two ways to fail.
* `Document.nat`, `Document.text`, `Document.list`, … — documents as plain values.
* `Field`, `Record`, `Record.read` — documents as records.
* `Document.tagged` — documents as one of several records.
* `Document.readText` — a whole text as a value.
-/

namespace JobSandbox

/-- Why a text does not hold a value. -/
inductive ReadError where
  /-- It is not one JSON value. -/
  | malformed
  /-- It is JSON of another shape. -/
  | mismatched
  deriving DecidableEq, Repr

namespace Document

/-! ### Plain values -/

/-- What is wrong with a document that is not even of the right kind.  Scalars are read before they
are refused, containers are not. -/
def mismatch : Document → ReadError
  | broken => .malformed
  | string none => .malformed
  | number text => if text.value?.isSome then .mismatched else .malformed
  | _ => .mismatched

/-- The value of a number that has to be of some type. -/
def numeric {α : Type} (convert : Numeric → Option α) : Document → Except ReadError α
  | number text =>
    match text.value? with
    | none => .error .malformed
    | some value =>
      match convert value with
      | some result => .ok result
      | none => .error .mismatched
  | document => .error document.mismatch

/-- A natural number below a bound. -/
def nat (bound : Nat) : Document → Except ReadError Nat :=
  numeric fun
    | .natural n => if n < bound then some n else none
    | _ => none

def uint32 (document : Document) : Except ReadError UInt32 :=
  UInt32.ofNat <$> document.nat UInt32.size

def int32 : Document → Except ReadError Int32 :=
  numeric fun
    | .natural n => if n < 0x80000000 then some (Int32.ofNat n) else none
    | .negative n => if n ≤ 0x80000000 then some (-Int32.ofNat n) else none
    | .real _ => none

/-- Any number, rounded to single precision. -/
def single : Document → Except ReadError Single :=
  numeric fun
    | .natural n => some ⟨n.toUInt64.toFloat32.toBits⟩
    | .negative n => some ⟨(-n.toUInt64.toFloat32).toBits⟩
    | .real x => some ⟨x.toFloat32.toBits⟩

def boolean : Document → Except ReadError Bool
  | bool value => .ok value
  | document => .error document.mismatch

def text : Document → Except ReadError String
  | string (some value) => .ok value
  | document => .error document.mismatch

/-- Bytes that are written in base 64. -/
def base64 (document : Document) : Except ReadError Bytes := do
  match Base64.decode? (← document.text).toList with
  | some bytes => .ok bytes
  | none => .error .mismatched

/-- A value that may be absent. -/
def optional {α : Type} (read : Document → Except ReadError α) :
    Document → Except ReadError (Option α)
  | null => .ok none
  | document => some <$> read document

def list {α : Type} (read : Document → Except ReadError α) : Document → Except ReadError (List α)
  | array items closed => do
    let values ← items.mapM read
    if closed then .ok values else .error .malformed
  | document => .error document.mismatch

end Document

/-! ### Records -/

/-- A field of the records of type `ρ`. -/
structure Field (ρ : Type) where
  name : String
  /-- Whether an object may lack it. -/
  optional : Bool
  /-- Reads its value into a record. -/
  read : Document → ρ → Except ReadError ρ

namespace Field

variable {ρ α : Type}

def required (name : String) (read : Document → Except ReadError α) (put : α → ρ → ρ) : Field ρ :=
  ⟨name, false, fun document record => (put · record) <$> read document⟩

def omissible (name : String) (read : Document → Except ReadError α) (put : α → ρ → ρ) : Field ρ :=
  ⟨name, true, fun document record => (put · record) <$> read document⟩

end Field

/-- How records of type `ρ` are read. -/
structure Record (ρ : Type) where
  /-- A record before any field is read. -/
  blank : ρ
  fields : List (Field ρ)
  /-- Whether an array may hold fewer items than there are fields. -/
  mayEndEarly : Bool := false

namespace Record

variable {ρ : Type}

/-- Reads the fields of an object in the order in which they come.  `seen` are the names so far.  A
field that is not known is skipped, and one that is known may come only once. -/
def readFields (shape : Record ρ) : (seen : List String) → ρ →
    List (Option String × Document) → Except ReadError (List String × ρ)
  | seen, record, [] => .ok (seen, record)
  | _, _, (none, _) :: _ => .error .malformed
  | seen, record, (some name, value) :: rest =>
    match shape.fields.find? (·.name == name) with
    | some field =>
      if seen.contains name then .error .mismatched
      else do
        let record ← field.read value record
        shape.readFields (name :: seen) record rest
    | none =>
      if value.isComplete then shape.readFields seen record rest else .error .malformed

/-- Reads the items of an array, one for each field.  `surplus` is the fault of an array that goes
on. -/
def readItems (shape : Record ρ) (surplus : ReadError) (closed : Bool) :
    List (Field ρ) → ρ → List Document → Except ReadError ρ
  | [], record, [] => if closed then .ok record else .error .malformed
  | [], _, _ :: _ => .error surplus
  | _ :: _, record, [] =>
    if !closed then .error .malformed
    else if shape.mayEndEarly then .ok record
    else .error .mismatched
  | field :: fields, record, item :: items => do
    let record ← field.read item record
    shape.readItems surplus closed fields record items

/-- Whether every field that must be there was seen. -/
def isCovered (shape : Record ρ) (seen : List String) : Bool :=
  shape.fields.all fun field => field.optional || seen.contains field.name

/-- A document as a record. -/
def readWith (shape : Record ρ) (surplus : ReadError) : Document → Except ReadError ρ
  | .object fields closed => do
    let (seen, record) ← shape.readFields [] shape.blank fields
    if !closed then .error .malformed
    else if shape.isCovered seen then .ok record
    else .error .mismatched
  | .array items closed => shape.readItems surplus closed shape.fields shape.blank items
  | document => .error document.mismatch

/-- A document as a record, while its text is read.  An array is over behind the last field. -/
def read (shape : Record ρ) : Document → Except ReadError ρ := shape.readWith .malformed

/-- A document as a record, after its text was read.  An array that goes on is of another shape. -/
def readKept (shape : Record ρ) : Document → Except ReadError ρ := shape.readWith .mismatched

end Record

/-! ### Records of several forms -/

/-- One of several forms: its name, and how it is read. -/
structure Form (α : Type) where
  name : String
  read : Document → Except ReadError α

namespace Document

variable {α : Type}

/-- The form that a document names. -/
def form (forms : List (Form α)) (document : Document) : Except ReadError (Form α) := do
  let name ← document.text
  match forms.find? (·.name == name) with
  | some form => .ok form
  | none => .error .mismatched

/-- Goes through the fields of an object for the form that the field `tag` names.  The other fields
are kept, the latest first. -/
def findForm (tag : String) (forms : List (Form α)) (room : Nat) :
    (found : Option (Form α)) → (kept : List (Option String × Document)) →
    List (Option String × Document) →
    Except ReadError (Option (Form α) × List (Option String × Document))
  | found, kept, [] => .ok (found, kept.reverse)
  | _, _, (none, _) :: _ => .error .malformed
  | found, kept, (some name, value) :: rest =>
    if name = tag then
      if found.isSome then .error .mismatched
      else do
        let form ← value.form forms
        findForm tag forms room (some form) kept rest
    else if value.isContent room then
      findForm tag forms room found ((some name, value) :: kept) rest
    else .error .malformed

/-- How deep documents may be nested.  Values that are kept have to stay within it. -/
def maxDepth : Nat := 127

/-- A document as a value of one of several forms.  In an object a field `tag` names the form, in an
array the first item does.  The document is nested in `depth` others. -/
def tagged (tag : String) (forms : List (Form α)) (depth : Nat) : Document → Except ReadError α
  | object fields closed => do
    let (found, kept) ← findForm tag forms (maxDepth - 1 - depth) none [] fields
    if !closed then .error .malformed
    else
      match found with
      | some form => form.read (object kept true)
      | none => .error .mismatched
  | array [] closed => .error (if closed then .mismatched else .malformed)
  | array (first :: items) closed => do
    let form ← first.form forms
    if closed && items.all (isContent (maxDepth - 1 - depth)) then form.read (array items true)
    else .error .malformed
  | document => .error document.mismatch

/-! ### Whole texts -/

/-- A text as a value.  Only white space may follow the value. -/
def readText (read : Document → Except ReadError α) (text : String) : Except ReadError α := do
  let (document, rest) := ofChars text.toList
  let value ← read document
  match rest with
  | some rest => if rest.all isGap then .ok value else .error .malformed
  | none => .error .malformed

end Document
end JobSandbox
