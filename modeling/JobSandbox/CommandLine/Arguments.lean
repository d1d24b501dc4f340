/-!
# Arguments of a command

A command has options that take a value, flags that take none, and arguments known by their place.
The value of an option follows it, or is attached with an equals sign.  Options and flags may come
anywhere and in any order, but each only once.  Behind `--` everything is known by its place.

Anything else that begins with a hyphen is refused, with one exception: a command can allow it as
long as an argument is still missing at its place.  A single hyphen is an argument like others.

## Main definitions

* `Layout` — what a command takes.
* `Arguments` — what it was given.
* `Layout.read` — the arguments of a command.
* `integer?`, `natural?` — arguments that are numbers.
-/

namespace JobSandbox

/-- What a command takes. -/
structure Layout where
  /-- The options that take a value, with their hyphens. -/
  options : List String := []
  flags : List String := []
  /-- How many arguments are known by their place.  All of them have to be given. -/
  places : Nat := 0
  /-- Whether these may begin with a hyphen. -/
  hyphens : Bool := false
  deriving Repr

/-- What a command was given. -/
structure Arguments where
  options : List (String × String) := []
  flags : List String := []
  /-- The arguments known by their place, in order. -/
  placed : List String := []
  deriving DecidableEq, Repr

namespace Arguments

/-- The value of an option. -/
def option? (arguments : Arguments) (name : String) : Option String :=
  arguments.options.lookup name

def hasFlag (arguments : Arguments) (name : String) : Bool := arguments.flags.contains name

/-- The value of an option that was not given before. -/
def addOption (arguments : Arguments) (name value : String) : Option Arguments :=
  if (arguments.option? name).isSome then none
  else some { arguments with options := (name, value) :: arguments.options }

def addFlag (arguments : Arguments) (name : String) : Option Arguments :=
  if arguments.hasFlag name then none else some { arguments with flags := name :: arguments.flags }

end Arguments

/-- What a word of the command line is by its spelling. -/
inductive Word where
  /-- An option, and the value attached to it. -/
  | option (name : String) (attached : Option String)
  /-- A flag, and whether a value is attached to it. -/
  | flag (name : String) (attached : Bool)
  /-- `--`. -/
  | divider
  /-- Something else that begins with a hyphen. -/
  | unknown
  | plain
  deriving DecidableEq, Repr

namespace Layout

/-- The part of a word in front of the first equals sign, and the part behind it if there is one. -/
def splitAttached (word : String) : String × Option String :=
  let cs := word.toList
  (String.ofList (cs.takeWhile (· ≠ '=')),
    match cs.dropWhile (· ≠ '=') with
    | [] => none
    | _ :: value => some (String.ofList value))

def classify (layout : Layout) (word : String) : Word :=
  let (name, attached) := splitAttached word
  if word = "--" then .divider
  else if layout.options.contains name then .option name attached
  else if layout.flags.contains name then .flag name attached.isSome
  else if word.toList.head? = some '-' ∧ word ≠ "-" then .unknown
  else .plain

/-- Adds an argument at the next place, if there is one. -/
def addPlaced (layout : Layout) (arguments : Arguments) (word : String) : Option Arguments :=
  if arguments.placed.length < layout.places then
    some { arguments with placed := arguments.placed ++ [word] }
  else none

/-- Adds a word that is neither an option nor a flag: as the value of the option that waits for one,
or else at the next place. -/
def addWord (layout : Layout) (arguments : Arguments) (waiting : Option String) (word : String) :
    Option Arguments :=
  match waiting with
  | some name => arguments.addOption name word
  | none => layout.addPlaced arguments word

/-- Reads on with the arguments so far, and the option that waits for its value. -/
def readOn (layout : Layout) : Arguments → (waiting : Option String) → List String →
    Option Arguments
  | arguments, none, [] =>
    if arguments.placed.length = layout.places then some arguments else none
  | _, some _, [] => none
  | arguments, waiting, word :: rest =>
    match layout.classify word, waiting with
    | .plain, _ => do
      layout.readOn (← layout.addWord arguments waiting word) none rest
    | .unknown, _ =>
      if layout.hyphens ∧ arguments.placed.length < layout.places then do
        layout.readOn (← layout.addWord arguments waiting word) none rest
      else none
    | .option name none, none =>
      if (arguments.option? name).isSome then none else layout.readOn arguments (some name) rest
    | .option name (some value), none => do
      layout.readOn (← arguments.addOption name value) none rest
    | .flag name false, none => do
      layout.readOn (← arguments.addFlag name) none rest
    | .divider, none => do
      let arguments ← rest.foldlM layout.addPlaced arguments
      if arguments.placed.length = layout.places then some arguments else none
    | _, _ => none

/-- The arguments of a command, unless they do not fit its layout. -/
def read (layout : Layout) (words : List String) : Option Arguments := layout.readOn {} none words

end Layout

/-! ### Numbers -/

/-- The number that decimal digits stand for. -/
def digits? (cs : List Char) : Option Nat :=
  if cs ≠ [] ∧ cs.all Char.isDigit then
    some (cs.foldl (fun n c => 10 * n + (c.toNat - '0'.toNat)) 0)
  else none

/-- An integer in a range, with a sign or without. -/
def integer? (least greatest : Int) (text : String) : Option Int := do
  let value : Int ← match text.toList with
    | '-' :: cs => (digits? cs).map fun n => -(n : Int)
    | '+' :: cs => (digits? cs).map Int.ofNat
    | cs => (digits? cs).map Int.ofNat
  if least ≤ value ∧ value ≤ greatest then some value else none

/-- A natural number below a bound, with a plus sign or without. -/
def natural? (bound : Nat) (text : String) : Option Nat := do
  let value ← match text.toList with
    | '+' :: cs => digits? cs
    | cs => digits? cs
  if value < bound then some value else none

end JobSandbox
