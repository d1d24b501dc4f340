import JobSandbox.Contract
import JobSandbox.Host
import JobSandbox.Policy
import JobSandbox.Sha256
import JobSandbox.Text.Hex

/-!
# Reports

What a host keeps of a run: the settings, how the run ended, the dataset, the last result,
everything the job told its host, and the memory it took.  A report of a run that has not begun is
blank but for its settings and the dataset.

## Main definitions

* `Report` — a report and its parts.
* `Report.start` — the report of a run that has not begun.
-/

namespace JobSandbox

/-- The settings of a run, by name. -/
structure PolicyReport where
  granularity : String := ""
  implicitResult : String := ""
  /-- Whether a placeholder was emitted before the job started. -/
  placeholderEmitted : Bool := false
  deriving DecidableEq, Repr

structure DatasetReport where
  length : Nat := 0
  /-- The length of the region it was given, if the run returned. -/
  allocatedLength : Option Nat := none
  /-- The digest in hexadecimal. -/
  sha256 : String := ""
  deriving DecidableEq, Repr

structure MemoryReport where
  heapBase : Nat := 0
  /-- The end of what was handed out, unless the run was aborted. -/
  highWaterMark : Option Nat := none
  pages : Nat := 0
  growCalls : Nat := 0
  deriving DecidableEq, Repr

/-- The report of a run. -/
structure Report where
  schemaVersion : String := ""
  abiVersion : Nat := 0
  policy : PolicyReport := {}
  ok : Bool := false
  /-- Why the run did not return. -/
  failure : Option String := none
  /-- The code of the trap that ended it. -/
  trap : Option String := none
  dataset : DatasetReport := {}
  emitCount : Nat := 0
  /-- The last result; earlier ones do not count. -/
  result : Option ResultValue := none
  logs : List String := []
  progress : List Single := []
  sleeps : List Single := []
  memory : MemoryReport := {}
  calls : List HostCall := []
  deriving DecidableEq

namespace Report

/-- The digest of a byte string as text. -/
def digestText (bytes : Bytes) : String := Hex.ofBytes (Sha256.digest bytes)

/-- The report of a run that has not begun. -/
def start (policy : Policy) (dataset : Bytes) : Report where
  schemaVersion := Contract.reportSchema
  abiVersion := Contract.abiVersion
  policy := { granularity := policy.granularity.name, implicitResult := policy.implicitResult.name }
  dataset := { length := dataset.length, sha256 := digestText dataset }

/-- A report without the record of the calls. -/
def withoutCalls (report : Report) : Report := { report with calls := [] }

end Report
end JobSandbox
