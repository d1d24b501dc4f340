import JobSandbox.Job
import JobSandbox.Text.Quoted

/-!
# Reference jobs

Jobs that every host can be tried with, and the one that reports the length of its dataset.

## Main definitions

* `ReferenceJob` — their names; `ReferenceJob.body` — what they do.
* `reportLength` — the length of the dataset as log line and result.
-/

namespace JobSandbox

variable {ν : Type}

/-- A length as a 32-bit integer, the largest one if it is too long. -/
def saturatedLength (length : Nat) : Int32 := Int32.ofNat (min length 0x7fffffff)

/-! ### The length of a dataset -/

def reportLength : Job ν Unit := do
  let length ← Job.datasetLength
  Job.logLine ["dataset is ", toString length, " bytes"]
  Job.progress (.ofRatio 1 1)
  Job.emit (.integer (saturatedLength length))

/-- The policy it is run with. -/
def reportLengthPolicy : Policy := .standard

/-! ### The bodies of the reference jobs -/

/-- The dataset as a result. -/
def echoJob : Job ν Unit := do
  Job.emit (.bytes (← Job.dataset))

/-- The length of the dataset as a message and as a result. -/
def lengthJob : Job ν Unit := do
  let length := saturatedLength (← Job.datasetLength)
  Job.logInteger length
  Job.emit (.integer length)

/-- `bytes` in pieces of `size`, the last one possibly shorter. -/
def pieces (size : Nat) (bytes : Bytes) : List Bytes :=
  if _h : size = 0 ∨ bytes = [] then []
  else bytes.take size :: pieces size (bytes.drop size)
termination_by bytes.length
decreasing_by
  have : 0 < bytes.length := List.length_pos_iff.mpr fun hb => _h (.inr hb)
  simp only [List.length_drop]
  omega

/-- The length of the pieces in which a checksum is taken: a quarter of the dataset, rounded up. -/
def quarterLength (length : Nat) : Nat := max ((length + 3) / 4) 1

/-- A sum of bytes, modulo `2 ^ 32`. -/
def addBytes (sum : UInt32) (bytes : Bytes) : UInt32 :=
  bytes.foldl (fun acc b => acc + b.toUInt32) sum

/-- Adds up pieces, reporting after each what share of all `total` is done. -/
def sumPieces (total : Nat) : (done : Nat) → UInt32 → List Bytes → Job ν UInt32
  | _, sum, [] => pure sum
  | done, sum, piece :: rest => do
    let sum := addBytes sum piece
    Job.progress (.ofRatio (done + 1) total)
    sumPieces total (done + 1) sum rest

/-- A number as eight hexadecimal digits. -/
def hexWord (w : UInt32) : String :=
  let digits := Nat.toDigits 16 w.toNat
  "0x" ++ String.ofList (List.replicate (8 - digits.length) '0' ++ digits)

/-- The sum of all bytes, with progress after each quarter. -/
def checksumJob : Job ν Unit := do
  let data ← Job.dataset
  let quarter := quarterLength data.length
  let total := (data.length + quarter - 1) / quarter
  let sum ← sumPieces total 0 0 (pieces quarter data)
  Job.logLine ["checksum of ", toString data.length, " bytes: ", hexWord sum]
  Job.emit (.integer sum.toInt32)

/-- A greeting, a pause and progress, from the `i`-th of `times` on. -/
def greet (times : Nat) : (left : Nat) → Job ν Unit
  | 0 => pure ()
  | left + 1 => do
    Job.logString "Hello World!"
    Job.sleep (.ofRatio 1 5)
    Job.progress (.ofRatio (times - (left + 1)) times)
    greet times left

def helloJob : Job ν Unit := greet 3 3

/-- The sum of the words of the dataset, most significant byte first; it has to be whole words. -/
def wordsJob : Job ν Unit := do
  let words ← Job.orFail (SwappedWords.ofBytes? (← Job.dataset))
  Job.emit (.integer (words.fold (· + ·) 0).toInt32)

/-! ### Their names -/

inductive ReferenceJob where
  | echo
  | length
  | checksum
  | hello
  | words
  deriving DecidableEq, Repr

namespace ReferenceJob

def all : List ReferenceJob := [echo, length, checksum, hello, words]

def name : ReferenceJob → String
  | echo => "echo"
  | length => "length"
  | checksum => "checksum"
  | hello => "hello"
  | words => "words"

def body : ReferenceJob → Job ν Unit
  | echo => echoJob
  | length => lengthJob
  | checksum => checksumJob
  | hello => helloJob
  | words => wordsJob

/-- The job of a name, or a message that lists the names there are. -/
def parse (text : String) : Except String ReferenceJob :=
  match all.find? (·.name == text) with
  | some job => .ok job
  | none =>
    .error s!"unknown job {quoteText text} (expected echo, length, checksum, hello or words)"

theorem parse_name (job : ReferenceJob) : parse job.name = .ok job := by
  cases job <;> rfl

end ReferenceJob
end JobSandbox
