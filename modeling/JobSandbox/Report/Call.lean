import JobSandbox.Address
import JobSandbox.Host
import JobSandbox.Json
import JobSandbox.Json.Shape

/-!
# Calls as JSON

A call is an object whose first field, `import`, names what was called; a field for each argument
follows.  Byte strings are written in base 64.

## Main definitions

* `HostCall.toJson` — the object of a call.
* `HostCall.ofDocument` — the call of an object.
-/

namespace JobSandbox
namespace HostCall

/-- The field that names the import. -/
def tag : String := "import"

/-- The import that a call goes to. -/
def importName : HostCall → String
  | datasetLen _ => Contract.importDatasetLen
  | datasetWrite _ => Contract.importDatasetWrite
  | result _ _ => Contract.importEmitResult
  | log _ => Contract.importLog
  | progress _ => Contract.importProgress
  | sleep _ => Contract.importSleep

/-- The arguments of a call by name. -/
def arguments : HostCall → List (String × Json)
  | datasetLen length => [("len", .nat length)]
  | datasetWrite length => [("len", .nat length)]
  | result kind payload =>
    [("kind", .nat kind.toNat), ("payload_b64", .string (Base64.ofBytes payload))]
  | log message => [("message_b64", .string (Base64.ofBytes message))]
  | progress fraction => [("fraction", .single fraction)]
  | sleep seconds => [("seconds", .single seconds)]

def toJson (call : HostCall) : Json :=
  .object ((tag, .string call.importName) :: call.arguments)

/-! ### Reading -/

/-- A length in bytes, by the name it has in every record. -/
def lengthRecord : Record Nat where
  blank := 0
  fields := [.required "len" (Document.nat Address.addressSpace) fun n _ => n]

def resultRecord : Record (UInt32 × Bytes) where
  blank := (0, [])
  fields :=
    [.required "kind" Document.uint32 fun kind r => (kind, r.2),
      .required "payload_b64" Document.base64 fun payload r => (r.1, payload)]

def messageRecord : Record Bytes where
  blank := []
  fields := [.required "message_b64" Document.base64 fun message _ => message]

/-- A number in single precision under the given name. -/
def singleRecord (name : String) : Record Single where
  blank := ⟨0⟩
  fields := [.required name Document.single fun x _ => x]

/-- The calls there are, by import. -/
def forms : List (Form HostCall) :=
  [⟨Contract.importDatasetLen, fun d => datasetLen <$> lengthRecord.readKept d⟩,
    ⟨Contract.importDatasetWrite, fun d => datasetWrite <$> lengthRecord.readKept d⟩,
    ⟨Contract.importEmitResult, fun d => (fun r => result r.1 r.2) <$> resultRecord.readKept d⟩,
    ⟨Contract.importLog, fun d => log <$> messageRecord.readKept d⟩,
    ⟨Contract.importProgress, fun d => progress <$> (singleRecord "fraction").readKept d⟩,
    ⟨Contract.importSleep, fun d => sleep <$> (singleRecord "seconds").readKept d⟩]

/-- The call of a document that is nested in `depth` others. -/
def ofDocument (depth : Nat) : Document → Except ReadError HostCall :=
  Document.tagged tag forms depth

end HostCall
end JobSandbox
