import JobSandbox.Contract
import JobSandbox.Json
import JobSandbox.Result

/-!
# The contract as text

What a job and a host have agreed on, as one JSON object: what the host provides, what the job
provides, the kinds of results, and the numbers both sides know.  The fields of every object are in
alphabetical order.

## Main definitions

* `Contract.toJson` — the object.
-/

namespace JobSandbox
namespace Contract

/-- A list of the types of values. -/
def types (names : List String) : Json := .array (names.map .string)

/-- A function of the host. -/
def importJson (name : String) (params results : List String) : Json :=
  .object [("name", .string name), ("params", types params), ("results", types results)]

/-- What the host provides: four functions on addresses and lengths, and two on numbers. -/
def imports : Json :=
  .array
    [importJson importDatasetLen [] ["i32"],
      importJson importDatasetWrite ["i32"] [],
      importJson importEmitResult ["i32", "i32", "i32"] [],
      importJson importLog ["i32", "i32"] [],
      importJson importProgress ["f32"] [],
      importJson importSleep ["f32"] []]

/-- What a job provides: its entry and its memory. -/
def exports : Json :=
  .array
    [.object
        [("kind", .string "func"), ("name", .string entryExport), ("params", types []),
          ("results", types [])],
      .object [("kind", .string "memory"), ("name", .string memoryExport)]]

/-- A kind of result whose payload is any byte string. -/
def freeKind (kind : ResultKind) : Json :=
  .object [("discriminant", .nat kind.discriminant.toNat), ("kind", .string kind.name)]

def resultKinds : Json :=
  .array
    [.object
        [("discriminant", .nat ResultKind.integer.discriminant.toNat),
          ("encoding", .string "i32-le"),
          ("kind", .string ResultKind.integer.name),
          ("width", .nat resultIntegerWidth)],
      freeKind .bytes,
      freeKind .string]

def constants : Json :=
  .object
    [("log_int_buf_len", .nat logIntegerRoom),
      ("max_radix", .nat maxRadix),
      ("min_radix", .nat minRadix),
      ("page_size", .nat pageSize),
      ("word8_granularity", .nat wordGranularity)]

def traps : Json :=
  .object
    [("address_overflow", .nat trapAddressOverflow),
      ("invalid_argument", .nat trapInvalidArgument),
      ("out_of_memory", .nat trapOutOfMemory)]

/-- The whole contract. -/
def toJson : Json :=
  .object
    [("abi_version", .nat abiVersion),
      ("constants", constants),
      ("exports", exports),
      ("import_module", .string importModule),
      ("imports", imports),
      ("result_kinds", resultKinds),
      ("schema_version", .string contractSchema),
      ("traps", traps)]

end Contract
end JobSandbox
