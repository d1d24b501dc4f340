/-!
# The contract between a job and its host

A job is a module that runs in a sandbox.  It owns a linear memory, it is handed one dataset, and it
talks to its host through six imported calls.  This module holds the numbers and names that both
sides have to agree on; everything else in the library takes them from here.

## Main definitions

* `pageSize`, `wordGranularity` — the two units memory is handed out in.
* `importNames` — the calls a host offers, by the name they are linked under.
* `trapOutOfMemory`, `trapAddressOverflow`, `trapInvalidArgument` — why a job is stopped.
-/

namespace JobSandbox
namespace Contract

/-! ### Versions -/

def abiVersion : Nat := 1

def reportSchema : String := "reef.run.report@0.1.0"

def contractSchema : String := "reef.contract@0.1.0"

/-! ### The boundary of a module -/

/-- The namespace all host calls are imported from. -/
def importModule : String := "reef"

/-- The function a host enters a job through. -/
def entryExport : String := "reef_main"

def memoryExport : String := "memory"

def importDatasetLen : String := "dataset_len"

def importDatasetWrite : String := "dataset_write"

/-- A job emits its result through the call linked as `result`. -/
def importEmitResult : String := "result"

def importLog : String := "log"

def importProgress : String := "progress"

def importSleep : String := "sleep"

def importNames : List String :=
  [importDatasetLen, importDatasetWrite, importEmitResult, importLog, importProgress, importSleep]

/-! ### Result discriminants -/

def resultKindInteger : UInt32 := 0

def resultKindBytes : UInt32 := 1

def resultKindString : UInt32 := 2

/-- An integer result is this many bytes, least significant first. -/
def resultIntegerWidth : Nat := 4

/-! ### Memory layout and buffers -/

def pageSize : Nat := 65536

def wordGranularity : Nat := 8

/-- Room for the widest decimal text of a 32-bit integer and its terminator. -/
def logIntegerRoom : Nat := 12

/-- Room for a sign, thirty-two binary digits and a terminator. -/
def integerTextRoom : Nat := 34

def minRadix : Nat := 2

def maxRadix : Nat := 36

/-! ### Trap and error codes -/

def trapOutOfMemory : Nat := 9300

def trapAddressOverflow : Nat := 9301

def trapInvalidArgument : Nat := 9302

def errorInvalidBase : Nat := 70001

def errorInvalidLength : Nat := 70002

def errorOutOfBounds : Nat := 70003

theorem importNames_nodup : importNames.Nodup := by decide

end Contract
end JobSandbox
