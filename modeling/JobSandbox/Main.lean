import JobSandbox.CommandLine

/-!
# The program

Reads the environment and the dataset, carries out the command and prints what it leaves behind.
-/

namespace JobSandbox
namespace Main

/-- What the system says about a path that cannot be read. -/
def fileError : IO.Error → FileError
  | .noFileOrDirectory _ code _ => ⟨FileError.notFound.text, code.toNat⟩
  | .inappropriateType _ code _ => ⟨FileError.isDirectory.text, code.toNat⟩
  | .permissionDenied _ code _ => ⟨"Permission denied", code.toNat⟩
  | error => ⟨toString error, 5⟩

/-- The files that a command reads. -/
def filesFor : Command → IO Files
  | .simulate options => do
    let content ← EIO.toBaseIO (IO.FS.readBinFile options.dataset)
    pure ⟨fun _ => match content with
      | .ok bytes => .ok bytes.toList
      | .error error => .error (fileError error)⟩
  | _ => pure ⟨fun _ => .error .notFound⟩

/-- The variables of the environment that a command looks at. -/
def environment : IO Environment := do
  let granularity ← IO.getEnv Environment.granularityVariable
  let implicitResult ← IO.getEnv Environment.implicitResultVariable
  pure ⟨fun name =>
    if name = Environment.granularityVariable then granularity.map Bytes.ofText
    else if name = Environment.implicitResultVariable then implicitResult.map Bytes.ofText
    else none⟩

end Main
end JobSandbox

open JobSandbox in
def main (words : List String) : IO UInt32 := do
  match Command.ofWords? words with
  | none =>
    IO.eprintln "usage: contract | itoa VALUE | swap32 HEX | simulate --dataset FILE"
    pure 2
  | some command =>
    let response := command.perform (← Main.environment) (← Main.filesFor command)
    IO.print response.stdout
    IO.eprint response.stderr
    pure (UInt32.ofNat response.exit)
