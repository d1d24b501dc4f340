import JobSandbox.Numeral
import JobSandbox.Result
import JobSandbox.Single
import JobSandbox.Text.Line

/-!
# The host

A job talks to its host through six calls.  The host of this library holds a dataset and records
every call in order; it also keeps the last result and the number of results apart from the record.
It can be made to announce a length that is not that of its dataset.

On the job's side a call is a request, and there are several ways to come to one: a log message may
be a terminated text, an integer or a line in parts, and a result may come in an envelope.

## Main definitions

* `HostCall` — a call as the record keeps it.
* `Host` — the dataset, the record and what the host can be asked for afterwards.
* `Request`, `Host.perform` — a call as the job makes it, and what comes of it.
-/

namespace JobSandbox

/-! ### The record -/

/-- A call that a host received. -/
inductive HostCall where
  | datasetLen (length : Nat)
  | datasetWrite (length : Nat)
  | result (kind : UInt32) (payload : Bytes)
  | log (message : Bytes)
  | progress (fraction : Single)
  | sleep (seconds : Single)
  deriving DecidableEq

namespace HostCall

/-- The message of a call that logs one. -/
def logged? : HostCall → Option Bytes
  | log message => some message
  | _ => none

def progress? : HostCall → Option Single
  | progress fraction => some fraction
  | _ => none

def sleep? : HostCall → Option Single
  | sleep seconds => some seconds
  | _ => none

/-- The discriminant and payload of a call that emits a result. -/
def result? : HostCall → Option (UInt32 × Bytes)
  | result kind payload => some (kind, payload)
  | _ => none

end HostCall

/-- A host that records what it is asked. -/
structure Host where
  dataset : Bytes
  /-- The length a job is told. -/
  announced : Nat := dataset.length
  calls : List HostCall := []
  lastResult : Option (UInt32 × Bytes) := none
  emitCount : Nat := 0

namespace Host

def record (host : Host) (call : HostCall) : Host := { host with calls := host.calls ++ [call] }

/-- The announced length.  The record keeps the true one. -/
def datasetLen (host : Host) : Nat × Host :=
  (host.announced, host.record (.datasetLen host.dataset.length))

/-- Writes the front of the dataset over the front of a destination, as far as both reach. -/
def datasetWrite (host : Host) (destination : Bytes) : Bytes × Host :=
  let n := min destination.length host.dataset.length
  (host.dataset.take n ++ destination.drop n, host.record (.datasetWrite destination.length))

def emit (host : Host) (kind : ResultKind) (payload : Bytes) : Host :=
  { host.record (.result kind.discriminant payload) with
    lastResult := some (kind.discriminant, payload)
    emitCount := host.emitCount + 1 }

def log (host : Host) (message : Bytes) : Host := host.record (.log message)

def progress (host : Host) (fraction : Single) : Host := host.record (.progress fraction)

def sleep (host : Host) (seconds : Single) : Host := host.record (.sleep seconds)

/-! ### What was recorded -/

/-- The messages as text, with replacement characters where they are not UTF-8. -/
def logs (host : Host) : List String := host.calls.filterMap fun c => c.logged?.map Utf8.lossy

def progresses (host : Host) : List Single := host.calls.filterMap HostCall.progress?

def sleeps (host : Host) : List Single := host.calls.filterMap HostCall.sleep?

@[simp] theorem calls_record (host : Host) (call : HostCall) :
    (host.record call).calls = host.calls ++ [call] := rfl

@[simp] theorem calls_emit (host : Host) (kind : ResultKind) (payload : Bytes) :
    (host.emit kind payload).calls = host.calls ++ [.result kind.discriminant payload] := rfl

@[simp] theorem calls_log (host : Host) (message : Bytes) :
    (host.log message).calls = host.calls ++ [.log message] := rfl

theorem length_datasetWrite (host : Host) (destination : Bytes) :
    (host.datasetWrite destination).1.length = destination.length := by
  simp only [datasetWrite, List.length_append, List.length_take, List.length_drop]
  omega

end Host

/-! ### Requests -/

/-- A call as a job makes it. -/
inductive Request where
  | datasetLen
  /-- Asks for the dataset to be written over some bytes. -/
  | datasetWrite (destination : Bytes)
  /-- Emits a result whose payload nobody has looked at. -/
  | result (kind : ResultKind) (payload : Bytes)
  | log (message : Bytes)
  | progress (fraction : Single)
  | sleep (seconds : Single)
  deriving DecidableEq

namespace Request

/-- What a job gets back from a call. -/
abbrev Answer : Request → Type
  | datasetLen => Nat
  | datasetWrite _ => Bytes
  | _ => Unit

/-- A text up to its terminator.  No text at all is an empty message. -/
def logText (text : Option Bytes) : Request :=
  .log ((text.getD []).take (Bytes.textLength text))

def logString (text : String) : Request := .log (Bytes.ofText text)

/-- The decimal text of an integer.  It is written into a small buffer, and nothing is logged if it
does not fit. -/
def logInteger? (value : Int32) : Option Request :=
  match writeInteger value 10 (List.replicate Contract.logIntegerRoom 0) with
  | (.ok length, buffer) => some (.log (buffer.take length))
  | (.error _, _) => none

/-- A formatted message, of which a line is kept. -/
def logLine (parts : List String) : Request := .log (Line.ofParts parts).bytes

/-- The result in an envelope. -/
def emit (envelope : Envelope) : Request := .result envelope.kind envelope.payload

end Request

namespace Host

/-- What a call is answered, and the host after it. -/
def perform (host : Host) : (request : Request) → request.Answer × Host
  | .datasetLen => host.datasetLen
  | .datasetWrite destination => host.datasetWrite destination
  | .result kind payload => ((), host.emit kind payload)
  | .log message => ((), host.log message)
  | .progress fraction => ((), host.progress fraction)
  | .sleep seconds => ((), host.sleep seconds)

/-- Every request is one call. -/
theorem length_calls_perform (host : Host) (request : Request) :
    (host.perform request).2.calls.length = host.calls.length + 1 := by
  cases request <;> simp [perform, datasetLen, datasetWrite, emit, log, progress, sleep]

end Host

/-! ### Stopping a job -/

namespace Fault

/-- The last line of a job that is stopped for a fault. -/
def fatalLine (fault : Fault) (phase : Phase) : Line :=
  .ofText s!"reef: fatal while {phase.name}: {fault.message} (trap {fault.trapCode})"

end Fault
end JobSandbox
