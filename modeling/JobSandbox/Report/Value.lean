import JobSandbox.Json
import JobSandbox.Json.Shape
import JobSandbox.Result

/-!
# Results as JSON

A result is an object whose field `kind` names its kind; its value follows.

## Main definitions

* `ResultValue.toJson` — the object of a result.
* `ResultValue.ofDocument` — the result of an object.
-/

namespace JobSandbox
namespace ResultValue

/-- The field that names the kind. -/
def tag : String := "kind"

/-- The value of a result, by name. -/
def content : ResultValue → String × Json
  | integer n => ("value", .int n.toInt)
  | bytes payload => ("bytes_b64", .string (Base64.ofBytes payload))
  | string s => ("text", .string s)

def toJson (value : ResultValue) : Json :=
  .object [(tag, .string value.kind.name), value.content]

/-! ### Reading -/

def integerRecord : Record Int32 where
  blank := 0
  fields := [.required "value" Document.int32 fun value _ => value]

def bytesRecord : Record Bytes where
  blank := []
  fields := [.required "bytes_b64" Document.base64 fun payload _ => payload]

def stringRecord : Record String where
  blank := ""
  fields := [.required "text" Document.text fun text _ => text]

/-- The results there are, by kind. -/
def forms : List (Form ResultValue) :=
  [⟨ResultKind.integer.name, fun d => integer <$> integerRecord.readKept d⟩,
    ⟨ResultKind.bytes.name, fun d => bytes <$> bytesRecord.readKept d⟩,
    ⟨ResultKind.string.name, fun d => string <$> stringRecord.readKept d⟩]

/-- The result of a document that is nested in `depth` others. -/
def ofDocument (depth : Nat) : Document → Except ReadError ResultValue :=
  Document.tagged tag forms depth

end ResultValue
end JobSandbox
