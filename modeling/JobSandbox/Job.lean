import JobSandbox.Buffer
import JobSandbox.Dataset
import JobSandbox.Words

/-!
# Jobs

A job is a program over a handful of operations: it reads its dataset and its policy, asks for
scratch memory, reads and writes it, and calls its host.  Scratch regions are known to a job by
number, in the order in which it got them.  A job may stop itself for a fault, which the host is
told in a last line, or panic, which it is not.

A job can also note things down for whoever runs it.  Notes are no part of the sandbox: they survive
however the job ends.

## Main definitions

* `Op`, `Op.Answer` — the operations and what they are answered.
* `Job` — a program, as the tree of what it does next for each answer.
* `Session`, `Session.perform` — what a job works on, and one operation on it.
* `Job.run` — a job from its start to its end.
-/

namespace JobSandbox

/-! ### Programs -/

/-- An operation of a job. -/
inductive Op where
  | dataset
  | datasetLength
  | policy
  /-- Asks for scratch memory. -/
  | tryAlloc (size : Nat)
  /-- Asks where a scratch region lies. -/
  | region (number : Nat)
  | read (number : Nat)
  /-- Writes to the front of a scratch region, as far as it reaches. -/
  | write (number : Nat) (bytes : Bytes)
  | call (request : Request)

/-- What an operation is answered. -/
abbrev Op.Answer : Op → Type
  | dataset => Bytes
  | datasetLength => Nat
  | policy => Policy
  | tryAlloc _ => Except AllocError Nat
  | region _ => Region
  | read _ => Bytes
  | write _ _ => Nat
  | call request => request.Answer

/-- What a job panics with. -/
inductive PanicPayload where
  | text (message : String)
  | other
  deriving DecidableEq, Repr

/-- A program that notes down values of type `ν` and returns one of type `α`. -/
inductive Job (ν α : Type) where
  | done (value : α)
  | note (value : ν) (rest : Job ν α)
  | act (op : Op) (next : op.Answer → Job ν α)
  /-- Stops for a fault. -/
  | fail (fault : Fault)
  | panic (payload : PanicPayload)

namespace Job

variable {ν α β : Type}

/-- One job after another. -/
protected def bind : Job ν α → (α → Job ν β) → Job ν β
  | done value, f => f value
  | note value rest, f => note value (rest.bind f)
  | act op next, f => act op fun answer => (next answer).bind f
  | fail fault, _ => fail fault
  | panic payload, _ => panic payload

instance : Monad (Job ν) where
  pure := done
  bind := Job.bind

@[simp] theorem pure_bind' (value : α) (f : α → Job ν β) : (done value).bind f = f value := rfl

theorem bind_done (job : Job ν α) : job.bind done = job := by
  induction job with
  | done value => rfl
  | note value rest ih => simp [Job.bind, ih]
  | act op next ih => simp [Job.bind, ih]
  | fail fault => rfl
  | panic payload => rfl

theorem bind_assoc {γ : Type} (job : Job ν α) (f : α → Job ν β) (g : β → Job ν γ) :
    (job.bind f).bind g = job.bind fun value => (f value).bind g := by
  induction job with
  | done value => rfl
  | note value rest ih => simp [Job.bind, ih]
  | act op next ih => simp [Job.bind, ih]
  | fail fault => rfl
  | panic payload => rfl

/-! ### What jobs are written in -/

def perform (op : Op) : Job ν op.Answer := act op done

def noteDown (value : ν) : Job ν Unit := note value (done ())

def dataset : Job ν Bytes := perform .dataset

def datasetLength : Job ν Nat := perform .datasetLength

def policy : Job ν Policy := perform .policy

def tryAlloc (size : Nat) : Job ν (Except AllocError Nat) := perform (.tryAlloc size)

/-- Asks for scratch memory, and stops if there is none. -/
def alloc (size : Nat) : Job ν Nat := do
  match ← tryAlloc size with
  | .ok number => pure number
  | .error error => fail (.alloc error)

def region (number : Nat) : Job ν Region := perform (.region number)

def read (number : Nat) : Job ν Bytes := perform (.read number)

def write (number : Nat) (bytes : Bytes) : Job ν Nat := perform (.write number bytes)

/-- Stops if an operation was called with wrong arguments. -/
def orFail : Except ArgumentError α → Job ν α
  | .ok value => pure value
  | .error error => fail (.argument error)

/-- Sets the first `n` bytes of a scratch region.  The answer is the length of the region. -/
def fill (number : Nat) (value : Int32) (n : Nat) : Job ν Nat := do
  let filled ← orFail (fillWith (← read number) value n)
  write number filled

/-- Copies the first `n` bytes of the dataset.  The answer is the length of the region. -/
def copyDataset (number : Nat) (n : Nat) : Job ν Nat := do
  let source ← dataset
  let copied ← orFail (copyInto (← read number) source n)
  write number copied

/-- Turns round the words of a scratch region.  The answer is their number. -/
def swap (number : Nat) : Job ν Nat := do
  let (words, swapped) ← orFail (swapInPlace (← read number))
  let _ ← write number swapped
  pure words

def call (request : Request) : Job ν request.Answer := perform (.call request)

def log (message : Bytes) : Job ν Unit := call (.log message)

def logString (text : String) : Job ν Unit := log (Bytes.ofText text)

def logLine (parts : List String) : Job ν Unit := log (Line.ofParts parts).bytes

def progress (fraction : Single) : Job ν Unit := call (.progress fraction)

def sleep (seconds : Single) : Job ν Unit := call (.sleep seconds)

def emit (envelope : Envelope) : Job ν Unit := call (.result envelope.kind envelope.payload)

/-- Makes a request, if there is one. -/
def callAny : Option Request → Job ν Unit
  | none => pure ()
  | some request => act (.call request) fun _ => pure ()

def logInteger (value : Int32) : Job ν Unit := callAny (Request.logInteger? value)

/-- Emits what a scratch region holds. -/
def emitRegion (kind : ResultKind) (number : Nat) : Job ν Unit := do
  emit (.ofMemory kind (← read number))

end Job

/-! ### Running -/

/-- Why a job did not return. -/
inductive Abort where
  /-- It stopped for a fault. -/
  | trap (fault : Fault)
  /-- It panicked of its own accord. -/
  | panic (payload : PanicPayload)
  /-- Memory was accessed that is not there. -/
  | outOfRange
  deriving DecidableEq, Repr

namespace Abort

/-- The text a stopped job leaves behind, if there is one. -/
def message? : Abort → Option String
  | trap fault => some s!"reef trap {fault.trapCode}"
  | panic (.text message) => some message
  | panic .other => none
  | outOfRange => some "slice out of range"

end Abort

/-- What a job works on. -/
structure Session where
  host : Host
  arena : Arena PagedMemory
  dataset : Dataset
  policy : Policy
  /-- The scratch regions, in the order in which they were handed out. -/
  regions : List Region

namespace Session

/-- The alignment of scratch memory. -/
def scratchAlign : Nat := 8

/-- One operation: its answer and the session after it.  There is none if memory is accessed that is
not there, or a region that was not handed out. -/
def perform (session : Session) : (op : Op) → Option (op.Answer × Session)
  | .dataset => (session.dataset.read? session.arena).map fun bytes => (bytes, session)
  | .datasetLength => some (session.dataset.length, session)
  | .policy => some (session.policy, session)
  | .tryAlloc size =>
    match session.arena.allocate size scratchAlign with
    | (.error error, arena) => some (.error error, { session with arena })
    | (.ok region, arena) =>
      some (.ok session.regions.length,
        { session with arena, regions := session.regions ++ [region] })
  | .region number => session.regions[number]?.map fun region => (region, session)
  | .read number => do
    let region ← session.regions[number]?
    let bytes ← session.arena.read? region
    pure (bytes, session)
  | .write number bytes => do
    let region ← session.regions[number]?
    let arena ← session.arena.write? region bytes
    pure (min bytes.length region.length, { session with arena })
  | .call request =>
    let (answer, host) := session.host.perform request
    some (answer, { session with host })

end Session

/-- What is left of a job that has ended. -/
structure Run (ν α : Type) where
  ending : Except Abort α
  notes : List ν
  session : Session

namespace Job

variable {ν α : Type}

/-- Runs a job to its end. -/
def run : Job ν α → Session → Run ν α
  | done value, session => ⟨.ok value, [], session⟩
  | note value rest, session =>
    let run := rest.run session
    { run with notes := value :: run.notes }
  | act op next, session =>
    match session.perform op with
    | none => ⟨.error .outOfRange, [], session⟩
    | some (answer, session) => (next answer).run session
  | fail fault, session =>
    ⟨.error (.trap fault), [],
      { session with host := session.host.log (fault.fatalLine .running).bytes }⟩
  | panic payload, session => ⟨.error (.panic payload), [], session⟩

@[simp] theorem run_done (value : α) (session : Session) :
    (done value : Job ν α).run session = ⟨.ok value, [], session⟩ := rfl

@[simp] theorem run_panic (payload : PanicPayload) (session : Session) :
    (panic payload : Job ν α).run session = ⟨.error (.panic payload), [], session⟩ := rfl

end Job
end JobSandbox
