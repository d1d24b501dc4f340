import JobSandbox.Address
import JobSandbox.Text.Blank

/-!
# How a job is run

Two settings govern a run: the unit in which memory for the dataset is handed out, and whether a
placeholder result is emitted before the job starts.  Each setting has a name for every value and
some aliases.  Settings are read in two places that follow different rules: a text from the
environment may have white space around it, a choice on the command line may not, but can be made
without regard to case.

## Main definitions

* `Granularity`, `ImplicitResult`, `Policy` — the settings.
* `Granularity.parse`, `ImplicitResult.parse` — a setting as the environment spells it.
* `Choice`, `Granularity.choices`, `ImplicitResult.choices` — a setting as a list of choices.
-/

namespace JobSandbox

/-- Why a text is no setting. -/
inductive SettingError where
  | granularity
  | implicitResult
  deriving DecidableEq, Repr

namespace SettingError

def message : SettingError → String
  | granularity => "invalid allocation granularity (expected one of: word8, page)"
  | implicitResult => "invalid implicit result (expected one of: none, placeholder-zero)"

end SettingError

/-! ### Choices -/

/-- A value that can be chosen by its name or an alias. -/
structure Choice (α : Type) where
  value : α
  name : String
  aliases : List String

namespace Choice

variable {α : Type}

/-- Whether two texts agree but for the case of ASCII letters. -/
def sameButCase (s t : String) : Bool :=
  s.toList.map Char.toLower == t.toList.map Char.toLower

def spellings (choice : Choice α) : List String := choice.name :: choice.aliases

def accepts (ignoreCase : Bool) (text : String) (choice : Choice α) : Bool :=
  choice.spellings.any fun s => if ignoreCase then sameButCase s text else s == text

/-- The value of the first choice that accepts a text. -/
def find? (choices : List (Choice α)) (ignoreCase : Bool) (text : String) : Option α :=
  (choices.find? (accepts ignoreCase text)).map value

/-- The message for a text that no choice accepts. -/
def unknownMessage (text : String) : String := s!"invalid variant: {text}"

end Choice

/-! ### Granularity -/

/-- The unit in which memory for the dataset is handed out. -/
inductive Granularity where
  | word8
  | page
  deriving DecidableEq, Repr, Inhabited

namespace Granularity

def unit : Granularity → Nat
  | word8 => Contract.wordGranularity
  | page => Contract.pageSize

/-- The least multiple of the unit that is at least `length`, if it is an address. -/
def roundUp? (granularity : Granularity) (length : Nat) : Option Nat :=
  Address.alignUp? length granularity.unit

def name : Granularity → String
  | word8 => "word8"
  | page => "page"

/-- The setting a text spells, white space around it aside. -/
def parse (text : String) : Except SettingError Granularity :=
  match trim text with
  | "word8" | "8" => .ok word8
  | "page" => .ok page
  | _ => .error .granularity

def choices : List (Choice Granularity) := [⟨word8, "word8", ["8"]⟩, ⟨page, "page", []⟩]

/-- Whole pages, unless asked otherwise. -/
def standard : Granularity := page

theorem unit_pos (granularity : Granularity) : 0 < granularity.unit := by
  cases granularity <;> decide

end Granularity

/-! ### Implicit result -/

/-- What is emitted on behalf of a job before it starts. -/
inductive ImplicitResult where
  | nothing
  | placeholderZero
  deriving DecidableEq, Repr, Inhabited

namespace ImplicitResult

def name : ImplicitResult → String
  | nothing => "none"
  | placeholderZero => "placeholder-zero"

/-- The setting a text spells, white space around it aside. -/
def parse (text : String) : Except SettingError ImplicitResult :=
  match trim text with
  | "none" => .ok nothing
  | "placeholder-zero" | "placeholder" => .ok placeholderZero
  | _ => .error .implicitResult

def choices : List (Choice ImplicitResult) :=
  [⟨nothing, "none", []⟩, ⟨placeholderZero, "placeholder-zero", ["placeholder"]⟩]

/-- Nothing, unless asked otherwise. -/
def standard : ImplicitResult := nothing

end ImplicitResult

/-! ### Policy -/

/-- The settings of a run. -/
structure Policy where
  granularity : Granularity
  implicitResult : ImplicitResult
  deriving DecidableEq, Repr

namespace Policy

/-- The policy of a run nobody has configured. -/
def standard : Policy := ⟨.standard, .standard⟩

/-- The policy of hosts that expect words and a placeholder. -/
def legacy : Policy := ⟨.word8, .placeholderZero⟩

def text (policy : Policy) : String :=
  s!"granularity={policy.granularity.name} implicit_result={policy.implicitResult.name}"

end Policy
end JobSandbox
