import JobSandbox.Job

/-!
# A whole run

A run takes in the dataset, emits a placeholder if its policy asks for one, and then runs the body
of the job.  Without a dataset the body does not run at all.

## Main definitions

* `Status`, `Summary` — how a run ends.
* `execute` — a run from a fresh memory.
-/

namespace JobSandbox

/-- What is known of a run that returned. -/
structure Summary where
  policy : Policy
  datasetLength : Nat
  allocatedLength : Nat
  highWaterMark : Nat
  placeholderEmitted : Bool
  deriving DecidableEq, Repr

/-- How a run ends. -/
inductive Status where
  | returned (summary : Summary)
  | failed (failure : RunFailure)
  | aborted (abort : Abort)
  deriving DecidableEq, Repr

/-- What is left of a run. -/
structure Outcome (ν : Type) where
  status : Status
  host : Host
  arena : Arena PagedMemory
  notes : List ν

/-- The phase a run starts in. -/
def initialPhase : Phase := .ingesting

/-- The result that is emitted before a job starts, if its policy asks for one. -/
def emitPlaceholder (policy : Policy) (host : Host) : Host :=
  match policy.implicitResult with
  | .nothing => host
  | .placeholderZero => host.emit .integer (Bytes.ofInt32 0)

/-- Runs the body of a job on a dataset that was taken in. -/
def runBody {ν : Type} (policy : Policy) (dataset : Dataset) (host : Host)
    (arena : Arena PagedMemory) (body : Job ν Unit) : Outcome ν :=
  let run := body.run
    { host := emitPlaceholder policy host, arena, dataset, policy, regions := [] }
  { status :=
      match run.ending with
      | .error abort => .aborted abort
      | .ok () => .returned
        { policy
          datasetLength := dataset.length
          allocatedLength := dataset.allocatedLength
          highWaterMark := run.session.arena.mark
          placeholderEmitted := policy.implicitResult = .placeholderZero }
    host := run.session.host
    arena := run.session.arena
    notes := run.notes }

/-- A run of a job's body against a host and a memory. -/
def execute {ν : Type} (policy : Policy) (host : Host) (memory : PagedMemory)
    (body : Job ν Unit) : Outcome ν :=
  match Dataset.ingest host (Arena.ofMemory memory) policy.granularity with
  | (.refused error, host, arena) => ⟨.failed ⟨.ingesting, .alloc error⟩, host, arena, []⟩
  | (.outOfRange, host, arena) => ⟨.aborted .outOfRange, host, arena, []⟩
  | (.ready dataset, host, arena) => runBody policy dataset host arena body

end JobSandbox
