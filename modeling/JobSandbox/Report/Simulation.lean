import JobSandbox.Job.Execute
import JobSandbox.Job.Reference
import JobSandbox.Report

/-!
# Simulated runs

A job is run once against a recording host that holds a dataset, in a fresh memory, and what is left
of the run becomes a report.  There is a report however the run ends; only a last result that cannot
be understood stands in its way.

## Main definitions

* `Setup` — the policy and the memory of a run.
* `Setup.run` — the run.
* `Report.ofOutcome`, `Setup.simulate` — its report.
-/

namespace JobSandbox

/-- How a run is set up. -/
structure Setup where
  policy : Policy := .standard
  initialPages : Nat := 1
  maxPages : Nat := PagedMemory.standardMaxPages
  heapBase : Nat := PagedMemory.standardHeapBase
  deriving DecidableEq, Repr

namespace Setup

def memory (setup : Setup) : PagedMemory :=
  .ofPages setup.initialPages setup.maxPages setup.heapBase

/-- Runs a job on a dataset. -/
def run {ν : Type} (setup : Setup) (dataset : Bytes) (body : Job ν Unit) : Outcome ν :=
  execute setup.policy { dataset } setup.memory body

end Setup

namespace Report

/-- The code in the message of a trap. -/
def trapCodeText? (message : String) : Option String :=
  let start := "reef trap ".toList
  if start.isPrefixOf message.toList then some (String.ofList (message.toList.drop start.length))
  else none

/-- Enters how a run ended.  `mark` is the end of what was handed out. -/
def ended (report : Report) (status : Status) (mark : Nat) : Report :=
  match status with
  | .returned summary =>
    { report with
      ok := true
      policy.placeholderEmitted := summary.placeholderEmitted
      dataset.allocatedLength := some summary.allocatedLength
      memory.highWaterMark := some mark }
  | .failed failure =>
    { report with
      failure := some failure.message
      trap := some (toString failure.fault.trapCode)
      memory.highWaterMark := some mark }
  | .aborted abort =>
    let message := abort.message?.getD "job panicked"
    { report with failure := some message, trap := trapCodeText? message }

/-- Enters what the memory was like in the end. -/
def afterMemory (report : Report) (memory : PagedMemory) : Report :=
  { report with
    memory.heapBase := memory.heapBase
    memory.pages := memory.pages
    memory.growCalls := memory.growCalls }

/-- Enters what the host has seen. -/
def seenBy (report : Report) (host : Host) : Report :=
  { report with
    emitCount := host.emitCount
    logs := host.logs
    progress := host.progresses
    sleeps := host.sleeps
    calls := host.calls }

/-- The last result of a host, if there is one. -/
def lastResult (host : Host) : Except DecodeError (Option ResultValue) :=
  match host.lastResult with
  | none => .ok none
  | some (kind, payload) => some <$> ResultValue.decode kind payload

/-- The report of a run that has ended. -/
def ofOutcome {ν : Type} (policy : Policy) (dataset : Bytes) (outcome : Outcome ν) :
    Except DecodeError Report := do
  let result ← lastResult outcome.host
  let report := (start policy dataset).ended outcome.status outcome.arena.mark
  pure { (report.afterMemory outcome.arena.memory).seenBy outcome.host with result }

end Report

namespace Setup

/-- The report of running a job on a dataset. -/
def simulate {ν : Type} (setup : Setup) (dataset : Bytes) (body : Job ν Unit) :
    Except DecodeError Report :=
  Report.ofOutcome setup.policy dataset (setup.run dataset body)

/-- The report of running a reference job on a dataset. -/
def simulateReference (setup : Setup) (dataset : Bytes) (job : ReferenceJob) :
    Except DecodeError Report :=
  setup.simulate dataset (job.body : Job Empty Unit)

end Setup
end JobSandbox
