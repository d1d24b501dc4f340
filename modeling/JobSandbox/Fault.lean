import JobSandbox.Contract

/-!
# What can go wrong in a job

An operation is refused for one of five causes: three come from its arguments, two from asking for
memory.  Each cause has one message, and the trap code a job is stopped with when it does not handle
the refusal itself.

## Main definitions

* `ArgumentError`, `AllocError` — the causes; `Fault` is either of them.
* `Fault.message`, `Fault.trapCode` — what a host is told.
* `RunFailure` — a fault and the phase of a run it happened in.
-/

namespace JobSandbox

/-- Hexadecimal text of a number, marked as such. -/
def hexText (n : Nat) : String := "0x" ++ String.ofList (Nat.toDigits 16 n)

/-! ### Arguments -/

/-- An operation was called with arguments outside its contract. -/
inductive ArgumentError where
  /-- Not a radix in which integers are written. -/
  | invalidBase (base : Nat)
  /-- A length that has to be a multiple of some unit is none. -/
  | invalidLength (length unit : Nat)
  /-- More bytes were asked for than there are. -/
  | outOfBounds (requested available : Nat)
  deriving DecidableEq, Repr

namespace ArgumentError

def code : ArgumentError → Nat
  | invalidBase _ => Contract.errorInvalidBase
  | invalidLength _ _ => Contract.errorInvalidLength
  | outOfBounds _ _ => Contract.errorOutOfBounds

def message : ArgumentError → String
  | invalidBase base => s!"invalid base {base} (expected 2..=36)"
  | invalidLength length unit => s!"invalid length {length} (must be a multiple of {unit})"
  | outOfBounds requested available =>
    s!"out of bounds: {requested} bytes requested, {available} available"

end ArgumentError

/-! ### Memory -/

/-- A request for memory was refused. -/
inductive AllocError where
  /-- The request does not fit below the end of the address space. -/
  | addressOverflow (mark size : Nat)
  /-- The memory would not grow by the pages the request needs. -/
  | outOfMemory (size pages : Nat)
  deriving DecidableEq, Repr

namespace AllocError

def trapCode : AllocError → Nat
  | addressOverflow _ _ => Contract.trapAddressOverflow
  | outOfMemory _ _ => Contract.trapOutOfMemory

def message : AllocError → String
  | addressOverflow mark size =>
    s!"allocation of {size} bytes at {hexText mark} overflows the address space"
  | outOfMemory size pages =>
    s!"out of memory: allocation of {size} bytes needed {pages} more page(s)"

end AllocError

/-! ### Faults -/

/-- Why an operation of a job was refused. -/
inductive Fault where
  | argument (error : ArgumentError)
  | alloc (error : AllocError)
  deriving DecidableEq, Repr

namespace Fault

def trapCode : Fault → Nat
  | argument _ => Contract.trapInvalidArgument
  | alloc error => error.trapCode

def message : Fault → String
  | argument error => error.message
  | alloc error => error.message

end Fault

/-! ### Phases of a run -/

/-- The three phases of a run, in order. -/
inductive Phase where
  | ingesting
  | running
  | finalizing
  deriving DecidableEq, Repr

namespace Phase

def name : Phase → String
  | ingesting => "ingesting"
  | running => "running"
  | finalizing => "finalizing"

end Phase

/-- A run that ended before the job could return. -/
structure RunFailure where
  phase : Phase
  fault : Fault
  deriving DecidableEq, Repr

namespace RunFailure

def message (failure : RunFailure) : String :=
  s!"{failure.phase.name} failed: {failure.fault.message}"

end RunFailure

end JobSandbox
