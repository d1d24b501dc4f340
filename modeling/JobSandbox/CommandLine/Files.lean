import JobSandbox.Bytes

/-!
# Files

What a command sees of files: the content of a path, or why it cannot be read.  A working directory
that holds some files, and is empty otherwise, is enough to try commands in.

## Main definitions

* `FileError` — why a path cannot be read.
* `Files` — the content of paths; `Files.ofDirectory` — that of a working directory.
-/

namespace JobSandbox

/-- Why a path cannot be read: the system's message and its number. -/
structure FileError where
  text : String
  code : Nat
  deriving DecidableEq, Repr

namespace FileError

def notFound : FileError := ⟨"No such file or directory", 2⟩

/-- A path that goes on behind a file. -/
def notDirectory : FileError := ⟨"Not a directory", 20⟩

/-- A path with too long a step, or too long in all. -/
def nameTooLong : FileError := ⟨"File name too long", 36⟩

/-- A path that ends at a directory. -/
def isDirectory : FileError := ⟨"Is a directory", 21⟩

def message (error : FileError) : String := s!"{error.text} (os error {error.code})"

end FileError

/-- The content of paths. -/
structure Files where
  read : String → Except FileError Bytes

namespace Files

/-- The steps of a path.  A path that ends in a slash has an empty last step. -/
def steps (path : String) : List String := path.splitOn "/"

/-- Steps that lead nowhere else. -/
def isStill (step : String) : Bool := step = "" || step = "."

/-- The longest step of a path, in bytes. -/
def stepLimit : Nat := 255

/-- The longest path, in bytes. -/
def pathLimit : Nat := 4095

/-- Follows steps from a directory of which only the files in it are known. -/
def follow (files : List (String × Bytes)) : List String → Except FileError Bytes
  | [] => .error .isDirectory
  | step :: rest =>
    if isStill step then follow files rest
    else if step = ".." then follow [] rest
    else if stepLimit < step.utf8ByteSize then .error .nameTooLong
    else
      match files.lookup step, rest with
      | some content, [] => .ok content
      | some _, _ :: _ => .error .notDirectory
      | none, _ => .error .notFound

/-- A working directory that holds these files.  Nothing is known of other directories. -/
def ofDirectory (files : List (String × Bytes)) : Files where
  read path :=
    if pathLimit < path.utf8ByteSize then .error .nameTooLong
    else follow (if path.toList.head? = some '/' then [] else files) (steps path)

end Files
end JobSandbox
