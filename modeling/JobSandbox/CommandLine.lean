import JobSandbox.CommandLine.Arguments
import JobSandbox.CommandLine.Files
import JobSandbox.Contract.Text
import JobSandbox.Policy.Resolve
import JobSandbox.Report.Simulation
import JobSandbox.Report.Text

/-!
# The command line

Four commands: one prints the contract, one writes an integer in some radix, one turns round the
words of a hexadecimal text, and one runs a reference job on a file and prints the report.

A command that is not understood is a usage error.  One that fails prints why on the error stream
and ends with status 2.  A run that did not return is no failure of the command: its report is
printed all the same, and the status is 1.

## Main definitions

* `Command`, `Command.ofWords?` — the commands and how they are spelled.
* `CommandFailure` — why a command fails.
* `Command.perform` — what a command prints, and its status.
-/

namespace JobSandbox

/-- What is asked of a simulated run. -/
structure SimulateOptions where
  /-- The path of the dataset. -/
  dataset : String
  job : ReferenceJob := .echo
  granularity : Option Granularity := none
  implicitResult : Option ImplicitResult := none
  maxPages : Option Nat := none
  /-- Whether the record of the calls is left out of the report. -/
  noCalls : Bool := false
  deriving DecidableEq, Repr

/-- What can be asked for. -/
inductive Command where
  | contract
  | numeral (value : Int32) (base : Nat) (strict : Bool)
  | swap (hex : String)
  | simulate (options : SimulateOptions)
  deriving DecidableEq, Repr

namespace Command

/-! ### Spelling -/

def contractName : String := "contract"

def numeralName : String := "itoa"

def swapName : String := "swap32"

def simulateName : String := "simulate"

def baseOption : String := "--base"

def strictFlag : String := "--strict"

/-- An integer may be negative, so it may begin with a hyphen. -/
def numeralLayout : Layout where
  options := [baseOption]
  flags := [strictFlag]
  places := 1
  hyphens := true

def swapLayout : Layout where
  places := 1

def datasetOption : String := "--dataset"

def jobOption : String := "--job"

def granularityOption : String := "--granularity"

def implicitResultOption : String := "--implicit-result"

def maxPagesOption : String := "--max-pages"

def noCallsFlag : String := "--no-calls"

def simulateLayout : Layout where
  options := [datasetOption, jobOption, granularityOption, implicitResultOption, maxPagesOption]
  flags := [noCallsFlag]

/-- The radix of a numeral, unless another is asked for. -/
def standardBase : Nat := 10

/-- A value that may be left out, but has to be understood if it is given. -/
def understood {α : Type} (read : String → Option α) : Option String → Option (Option α)
  | none => some none
  | some text => (read text).map some

/-- The integer in the only place, and how it is to be written. -/
def readNumeral (arguments : Arguments) : Option Command := do
  let text ← arguments.placed.head?
  let value ← integer? Int32.minValue.toInt Int32.maxValue.toInt text
  let base ← understood (integer? 0 (UInt32.size - 1)) (arguments.option? baseOption)
  some (.numeral (Int32.ofInt value) ((base.map Int.toNat).getD standardBase)
    (arguments.hasFlag strictFlag))

/-- The options of a run.  Only the dataset has to be given, and its path is not empty. -/
def readSimulate (arguments : Arguments) : Option Command := do
  let dataset ← arguments.option? datasetOption
  let job ← understood (fun s => (ReferenceJob.parse s).toOption) (arguments.option? jobOption)
  let granularity ← understood (Choice.find? Granularity.choices false)
    (arguments.option? granularityOption)
  let implicitResult ← understood (Choice.find? ImplicitResult.choices false)
    (arguments.option? implicitResultOption)
  let maxPages ← understood (natural? Address.addressSpace) (arguments.option? maxPagesOption)
  if dataset = "" then none
  else
    some (.simulate
      { dataset, job := job.getD .echo, granularity, implicitResult, maxPages
        noCalls := arguments.hasFlag noCallsFlag })

/-- The command that the words of a command line make. -/
def ofWords? : List String → Option Command
  | [] => none
  | name :: words =>
    if name = contractName then do
      let _ ← Layout.read {} words
      some .contract
    else if name = numeralName then numeralLayout.read words >>= readNumeral
    else if name = swapName then do
      let arguments ← swapLayout.read words
      swap <$> arguments.placed.head?
    else if name = simulateName then simulateLayout.read words >>= readSimulate
    else none

end Command

/-! ### Carrying out -/

/-- Why a command fails. -/
inductive CommandFailure where
  /-- An operation refuses its arguments. -/
  | argument (error : ArgumentError)
  | hex (error : Hex.ParseError)
  | variable (bad : Environment.BadVariable)
  | dataset (path : String) (error : FileError)
  | noPages
  | result (error : DecodeError)
  deriving DecidableEq, Repr

namespace CommandFailure

def message : CommandFailure → String
  | argument error => s!"{error.message} (code {error.code})"
  | hex error => error.message
  | .variable bad => bad.message
  | dataset path error => s!"read dataset: {path}: {error.message}"
  | noPages => "--max-pages must be at least 1"
  | result error => error.message

end CommandFailure

/-- What a command leaves behind. -/
structure Response where
  exit : Nat
  stdout : String := ""
  stderr : String := ""
  deriving DecidableEq, Repr

namespace Command

/-- A line of output. -/
def line (text : String) : String := text ++ "\n"

/-- The numeral of an integer.  In a radix that is refused it is empty, or with `strict` a
failure. -/
def numeralText (value : Int32) (base : Nat) (strict : Bool) : Except CommandFailure String :=
  if strict then
    match Numeral.ofInt32? value base with
    | .ok written => .ok written.text
    | .error error => .error (.argument error)
  else .ok (Numeral.ofInt32 value base).text

/-- A hexadecimal text with its words turned round. -/
def swappedText (hex : String) : Except CommandFailure String := do
  let bytes ← (Hex.parse hex).mapError .hex
  let (_, swapped) ← (swapInPlace bytes).mapError .argument
  pure (Hex.ofBytes swapped)

/-- How a run is set up, once its policy is known. -/
def setup (policy : Policy) : Option Nat → Except CommandFailure Setup
  | none => .ok { policy }
  | some maxPages => if maxPages = 0 then .error .noPages else .ok { policy, maxPages }

/-- The report of a run. -/
def report (env : Environment) (files : Files) (options : SimulateOptions) :
    Except CommandFailure Report := do
  let policy ← (Policy.resolve env options.granularity options.implicitResult).mapError .variable
  let content ← (files.read options.dataset).mapError (.dataset options.dataset)
  let setting ← setup policy options.maxPages
  let found ← (setting.simulateReference content options.job).mapError .result
  pure (if options.noCalls then found.withoutCalls else found)

/-- The status and output of a command that does not fail. -/
def output (env : Environment) (files : Files) : Command → Except CommandFailure (Nat × String)
  | contract => .ok (0, Contract.toJson.prettyText)
  | numeral value base strict => (0, ·) <$> numeralText value base strict
  | swap hex => (0, ·) <$> swappedText hex
  | simulate options => do
    let found ← report env files options
    pure (if found.ok then 0 else 1, found.toJson.prettyText)

/-- What a command leaves behind. -/
def perform (env : Environment) (files : Files) (command : Command) : Response :=
  match command.output env files with
  | .ok (exit, text) => { exit, stdout := line text }
  | .error failure => { exit := 2, stderr := line failure.message }

end Command
end JobSandbox
