import JobSandbox.Policy
import JobSandbox.Text.Quoted
import JobSandbox.Text.Utf8

/-!
# Where a policy comes from

Each setting is taken from a flag, else from an environment variable, else from the standard policy.
A variable that is not UTF-8 counts as unset.  A variable that is text has to spell a setting, also
when a flag takes precedence over it; the variable for the granularity is looked at first.

## Main definitions

* `Environment` — the contents of the variables that are set.
* `Policy.ofSources` — the policy for settings that have been read.
* `Policy.resolve` — the policy for flags and an environment.
-/

namespace JobSandbox

/-- The environment of a command: the content of each variable that is set. -/
structure Environment where
  get? : String → Option Bytes

namespace Environment

def granularityVariable : String := "REEF_ALLOC_GRANULARITY"

def implicitResultVariable : String := "REEF_IMPLICIT_RESULT"

/-- An environment variable whose text is no setting. -/
structure BadVariable where
  name : String
  text : String
  cause : SettingError
  deriving DecidableEq, Repr

namespace BadVariable

def message (bad : BadVariable) : String :=
  s!"invalid environment variable {bad.name}={quoteText bad.text}: {bad.cause.message}"

end BadVariable

/-- The setting in a variable, if the variable is set to some text. -/
def setting? {α : Type} (env : Environment) (name : String)
    (parse : String → Except SettingError α) : Except BadVariable (Option α) :=
  match (env.get? name).bind Utf8.decode? with
  | none => .ok none
  | some text =>
    match parse text with
    | .ok value => .ok (some value)
    | .error cause => .error ⟨name, text, cause⟩

end Environment

namespace Policy

/-- Flags before variables before the standard policy, setting by setting. -/
def ofSources (flagGranularity : Option Granularity) (flagImplicit : Option ImplicitResult)
    (envGranularity : Option Granularity) (envImplicit : Option ImplicitResult) : Policy where
  granularity := (flagGranularity.or envGranularity).getD .standard
  implicitResult := (flagImplicit.or envImplicit).getD .standard

/-- The policy for the flags of a command and the environment it runs in. -/
def resolve (env : Environment) (flagGranularity : Option Granularity)
    (flagImplicit : Option ImplicitResult) : Except Environment.BadVariable Policy := do
  let envGranularity ← env.setting? Environment.granularityVariable Granularity.parse
  let envImplicit ← env.setting? Environment.implicitResultVariable ImplicitResult.parse
  pure (ofSources flagGranularity flagImplicit envGranularity envImplicit)

@[simp] theorem ofSources_none : ofSources none none none none = standard := rfl

end Policy
end JobSandbox
