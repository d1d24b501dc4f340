import JobSandbox.Bytes
import JobSandbox.Contract
import JobSandbox.Text.Utf8

/-!
# Results

A job hands its result to the host as a discriminant and a payload.  The job's side wraps an
integer, bytes or a text in an envelope; the host's side takes the pair apart again.  The host does
not trust a job: the discriminant may be none that exists, and an integer may have the wrong width.
A text that is not UTF-8 is read with replacement characters.

## Main definitions

* `ResultKind`, `Envelope` — what a job sends.
* `ResultValue`, `ResultValue.decode` — what a host reads.
-/

namespace JobSandbox

/-! ### Sending -/

inductive ResultKind where
  | integer
  | bytes
  | string
  deriving DecidableEq, Repr

namespace ResultKind

def discriminant : ResultKind → UInt32
  | integer => Contract.resultKindInteger
  | bytes => Contract.resultKindBytes
  | string => Contract.resultKindString

def ofDiscriminant? (raw : UInt32) : Option ResultKind :=
  if raw = Contract.resultKindInteger then some integer
  else if raw = Contract.resultKindBytes then some bytes
  else if raw = Contract.resultKindString then some string
  else none

def name : ResultKind → String
  | integer => "integer"
  | bytes => "bytes"
  | string => "string"

@[simp] theorem ofDiscriminant?_discriminant (kind : ResultKind) :
    ofDiscriminant? kind.discriminant = some kind := by
  cases kind <;> decide

end ResultKind

/-- A result as a job sends it. -/
inductive Envelope where
  | integer (value : Int32)
  | bytes (payload : Bytes)
  | string (payload : Bytes)
  deriving DecidableEq

namespace Envelope

def kind : Envelope → ResultKind
  | integer _ => .integer
  | bytes _ => .bytes
  | string _ => .string

def payload : Envelope → Bytes
  | integer value => Bytes.ofInt32 value
  | bytes payload => payload
  | string payload => payload

/-- The result of a kind that a range of memory holds.  An integer is its first four bytes, with
zeros for those that are missing. -/
def ofMemory (kind : ResultKind) (bytes : Bytes) : Envelope :=
  match kind with
  | .integer =>
    .integer (Bytes.toInt32 ((bytes ++ List.replicate Contract.resultIntegerWidth 0).take
      Contract.resultIntegerWidth))
  | .bytes => .bytes bytes
  | .string => .string bytes

end Envelope

/-! ### Receiving -/

/-- A result as a host understands it. -/
inductive ResultValue where
  | integer (value : Int32)
  | bytes (bytes : Bytes)
  | string (text : String)
  deriving DecidableEq

/-- Why a discriminant and a payload are no result. -/
inductive DecodeError where
  | integerWidth (length : Nat)
  | unknownKind (raw : UInt32)
  deriving DecidableEq, Repr

namespace DecodeError

def message : DecodeError → String
  | integerWidth length =>
    s!"integer result must be exactly {Contract.resultIntegerWidth} bytes, got {length}"
  | unknownKind raw => s!"unknown result discriminant {raw.toNat}"

end DecodeError

namespace ResultValue

def kind : ResultValue → ResultKind
  | integer _ => .integer
  | bytes _ => .bytes
  | string _ => .string

/-- The result that a discriminant and a payload stand for. -/
def decode (raw : UInt32) (payload : Bytes) : Except DecodeError ResultValue :=
  match ResultKind.ofDiscriminant? raw with
  | some .integer =>
    if payload.length = Contract.resultIntegerWidth then .ok (integer (Bytes.toInt32 payload))
    else .error (.integerWidth payload.length)
  | some .bytes => .ok (bytes payload)
  | some .string => .ok (string (Utf8.lossy payload))
  | none => .error (.unknownKind raw)

end ResultValue
end JobSandbox
