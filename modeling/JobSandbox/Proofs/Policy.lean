import JobSandbox.Policy.Resolve
import JobSandbox.Proofs.Blank
import JobSandbox.Proofs.Utf8

/-!
# Where a policy comes from, exactly

A setting has three sources, and each of them may be silent.  A flag is given or not.  A variable is
unset, or holds bytes that are no text, or a text; only a text has anything to say, and it may be
one that spells no setting.  Such a text is an error whatever the flags are, since variables are
read before the sources are weighed against each other.

Without an error the two settings are settled apart from each other, each from the first of its
sources that is not silent.

## Main definitions

* `Spells` — a text that spells a value, white space around it aside.
* `Environment.Sets`, `Environment.Misspells`, `Environment.IsSilent` — what a variable has to say.
* `Settles` — a setting and the source it comes from.

## Main results

* `Granularity.readsSpellings`, `ImplicitResult.readsSpellings` — what is read of a text.
* `Environment.setting?_eq_ok_iff`, `Environment.setting?_eq_error_iff` — what is read of a
  variable.
* `Policy.resolve_settles` — **when there is a policy, and what it is.**
-/

namespace JobSandbox

variable {α : Type}

/-! ### Spellings -/

/-- A text spells a value: it is one of the spellings with at most white space around it. -/
def Spells (spellings : List (String × α)) (text : String) (value : α) : Prop :=
  ∃ s, (s, value) ∈ spellings ∧ Padded s.toList text.toList

/-- If no spelling has white space at its ends, the text that is left has to be one of them. -/
theorem spells_iff {spellings : List (String × α)} (hbare : ∀ s ∈ spellings, IsBare s.1.toList)
    {text : String} {value : α} : Spells spellings text value ↔ (trim text, value) ∈ spellings := by
  constructor
  · rintro ⟨s, hs, hpadded⟩
    rwa [(trim_eq_iff (hbare _ hs)).mpr hpadded]
  · intro hs
    exact ⟨trim text, hs, (trim_eq_iff (hbare _ hs)).mp rfl⟩

/-- A text of which something else is left spells nothing. -/
theorem not_spells_of_ne {spellings : List (String × α)}
    (hbare : ∀ s ∈ spellings, IsBare s.1.toList) {text : String}
    (h : ∀ s ∈ spellings, s.1 ≠ trim text) (value : α) : ¬Spells spellings text value :=
  fun hspells => h _ ((spells_iff hbare).mp hspells) rfl

/-- A reader of texts accepts these spellings, and has one error for all other texts. -/
structure ReadsSpellings (parse : String → Except SettingError α) (spellings : List (String × α))
    (cause : SettingError) : Prop where
  ok_iff : ∀ text value, parse text = .ok value ↔ Spells spellings text value
  error_eq : ∀ text error, parse text = .error error → error = cause

/-- Such a reader has its error exactly for the texts that spell nothing. -/
theorem ReadsSpellings.error_iff {parse : String → Except SettingError α}
    {spellings : List (String × α)} {cause : SettingError}
    (h : ReadsSpellings parse spellings cause) (text : String) :
    parse text = .error cause ↔ ∀ value, ¬Spells spellings text value := by
  constructor
  · intro herror value hspells
    cases herror.symm.trans ((h.ok_iff text value).mpr hspells)
  · intro hnone
    cases hparse : parse text with
    | ok value => exact absurd ((h.ok_iff text value).mp hparse) (hnone value)
    | error error => rw [h.error_eq text error hparse]

namespace Granularity

def spellings : List (String × Granularity) := [("word8", word8), ("8", word8), ("page", page)]

theorem readsSpellings : ReadsSpellings parse spellings .granularity where
  ok_iff text value := by
    rw [spells_iff (by decide), parse]
    generalize trim text = s
    split <;> simp_all [spellings, eq_comm]
  error_eq text error h := by
    unfold parse at h
    split at h <;> cases h
    rfl

end Granularity

namespace ImplicitResult

def spellings : List (String × ImplicitResult) :=
  [("none", nothing), ("placeholder-zero", placeholderZero), ("placeholder", placeholderZero)]

theorem readsSpellings : ReadsSpellings parse spellings .implicitResult where
  ok_iff text value := by
    rw [spells_iff (by decide), parse]
    generalize trim text = s
    split <;> simp_all [spellings, eq_comm]
  error_eq text error h := by
    unfold parse at h
    split at h <;> cases h
    rfl

end ImplicitResult

/-! ### Variables -/

namespace Environment

section Variable

variable {env : Environment} {name : String} {spellings : List (String × α)}

/-- The message of an error names the variable. -/
theorem BadVariable.message_eq (bad : BadVariable) :
    bad.message = "invalid environment variable " ++ bad.name ++
      ("=" ++ quoteText bad.text ++ ": " ++ bad.cause.message) := by
  have hparts : bad.message = "invalid environment variable " ++ bad.name ++ "=" ++
      quoteText bad.text ++ ": " ++ bad.cause.message := rfl
  simp only [hparts, String.append_assoc]

/-- A variable that is unset, or holds bytes that are no text. -/
def IsSilent (env : Environment) (name : String) : Prop :=
  ∀ text, env.get? name ≠ some (Bytes.ofText text)

/-- A variable whose text spells a value. -/
def Sets (env : Environment) (spellings : List (String × α)) (name : String) (value : α) : Prop :=
  ∃ text, env.get? name = some (Bytes.ofText text) ∧ Spells spellings text value

/-- A variable that holds a text which spells no value. -/
def Misspells (env : Environment) (spellings : List (String × α)) (name text : String) : Prop :=
  env.get? name = some (Bytes.ofText text) ∧ ∀ value, ¬Spells spellings text value

variable {parse : String → Except SettingError α} {cause : SettingError}

/-- A variable is silent, or sets a value, or misspells all of them. -/
theorem silent_or_text (env : Environment) (name : String) (spellings : List (String × α)) :
    env.IsSilent name ∨ (∃ value, env.Sets spellings name value) ∨
      ∃ text, env.Misspells spellings name text := by
  by_cases hsilent : env.IsSilent name
  · exact .inl hsilent
  · simp only [IsSilent, not_forall, not_not] at hsilent
    obtain ⟨text, htext⟩ := hsilent
    by_cases hspells : ∃ value, Spells spellings text value
    · obtain ⟨value, hvalue⟩ := hspells
      exact .inr (.inl ⟨value, text, htext, hvalue⟩)
    · exact .inr (.inr ⟨text, htext, not_exists.mp hspells⟩)

/-- A variable that is silent leaves a setting open. -/
theorem setting?_of_isSilent (h : env.IsSilent name) (parse : String → Except SettingError α) :
    env.setting? name parse = .ok none := by
  have hnone : (env.get? name).bind Utf8.decode? = none := by
    rw [Option.eq_none_iff_forall_ne_some]
    intro text htext
    obtain ⟨bytes, hbytes, hdecode⟩ := Option.bind_eq_some_iff.mp htext
    rw [Utf8.decode?_eq_some_iff.mp hdecode] at hbytes
    exact h text hbytes
  rw [setting?, hnone]

theorem bind_decode?_of_text {text : String} (h : env.get? name = some (Bytes.ofText text)) :
    (env.get? name).bind Utf8.decode? = some text := by
  rw [h]
  exact Utf8.decode?_eq_some_iff.mpr rfl

variable {parse : String → Except SettingError α} {cause : SettingError}
  (hreads : ReadsSpellings parse spellings cause)

include hreads

theorem setting?_of_sets {value : α} (h : env.Sets spellings name value) :
    env.setting? name parse = .ok (some value) := by
  obtain ⟨text, htext, hspells⟩ := h
  rw [setting?, bind_decode?_of_text htext]
  dsimp only
  rw [(hreads.ok_iff text value).mpr hspells]

theorem setting?_of_misspells {text : String} (h : env.Misspells spellings name text) :
    env.setting? name parse = .error ⟨name, text, cause⟩ := by
  rw [setting?, bind_decode?_of_text h.1]
  dsimp only
  rw [(hreads.error_iff text).mpr h.2]

/-- What a variable sets, if it sets anything. -/
theorem setting?_eq_ok_iff {found : Option α} :
    env.setting? name parse = .ok found ↔
      (found = none ∧ env.IsSilent name) ∨
        ∃ value, found = some value ∧ env.Sets spellings name value := by
  constructor
  · intro h
    rcases env.silent_or_text name spellings with hsilent | ⟨value, hsets⟩ | ⟨text, hmisspells⟩
    · cases (setting?_of_isSilent hsilent parse).symm.trans h
      exact .inl ⟨rfl, hsilent⟩
    · cases (setting?_of_sets hreads hsets).symm.trans h
      exact .inr ⟨value, rfl, hsets⟩
    · cases (setting?_of_misspells hreads hmisspells).symm.trans h
  · rintro (⟨rfl, hsilent⟩ | ⟨value, rfl, hsets⟩)
    · exact setting?_of_isSilent hsilent parse
    · exact setting?_of_sets hreads hsets

/-- It is an error exactly if it misspells all values. -/
theorem setting?_eq_error_iff {bad : BadVariable} :
    env.setting? name parse = .error bad ↔
      bad.name = name ∧ bad.cause = cause ∧ env.Misspells spellings name bad.text := by
  constructor
  · intro h
    rcases env.silent_or_text name spellings with hsilent | ⟨value, hsets⟩ | ⟨text, hmisspells⟩
    · cases (setting?_of_isSilent hsilent parse).symm.trans h
    · cases (setting?_of_sets hreads hsets).symm.trans h
    · cases (setting?_of_misspells hreads hmisspells).symm.trans h
      exact ⟨rfl, rfl, hmisspells⟩
  · obtain ⟨name', text, cause'⟩ := bad
    rintro ⟨rfl, rfl, hmisspells⟩
    exact setting?_of_misspells hreads hmisspells

/-- A variable can be read exactly if it does not misspell all values. -/
theorem exists_setting?_eq_ok_iff :
    (∃ found, env.setting? name parse = .ok found) ↔
      ∀ text, ¬env.Misspells spellings name text := by
  constructor
  · rintro ⟨found, hfound⟩ text hmisspells
    cases hfound.symm.trans (setting?_of_misspells hreads hmisspells)
  · intro h
    rcases env.silent_or_text name spellings with hsilent | ⟨value, hsets⟩ | ⟨text, hmisspells⟩
    · exact ⟨none, setting?_of_isSilent hsilent parse⟩
    · exact ⟨some value, setting?_of_sets hreads hsets⟩
    · exact absurd hmisspells (h text)

end Variable

end Environment

/-! ### Settings -/

/-- A setting and where it comes from: a flag before a variable, and a variable before the value
that is standard. -/
inductive Settles (flag : Option α) (env : Environment) (spellings : List (String × α))
    (name : String) (standard : α) : α → Prop where
  | byFlag {value : α} (hflag : flag = some value) : Settles flag env spellings name standard value
  | byVariable {value : α} (hflag : flag = none) (hsets : env.Sets spellings name value) :
      Settles flag env spellings name standard value
  | byStandard (hflag : flag = none) (hsilent : env.IsSilent name) :
      Settles flag env spellings name standard standard

/-- Of the sources of a setting, the first that is not silent settles it. -/
theorem settles_iff {env : Environment} {name : String} {spellings : List (String × α)}
    {parse : String → Except SettingError α} {cause : SettingError}
    (hreads : ReadsSpellings parse spellings cause) {flag found : Option α} {standard value : α}
    (hfound : env.setting? name parse = .ok found) :
    (flag.or found).getD standard = value ↔ Settles flag env spellings name standard value := by
  have hread := (Environment.setting?_eq_ok_iff hreads).mp hfound
  constructor
  · rintro rfl
    cases flag with
    | some value => exact .byFlag rfl
    | none =>
      rcases hread with ⟨rfl, hsilent⟩ | ⟨value, rfl, hsets⟩
      · exact .byStandard rfl hsilent
      · exact .byVariable rfl hsets
  · intro hsettles
    cases hsettles with
    | byFlag hflag => rw [hflag]; rfl
    | byVariable hflag hsets =>
      cases hfound.symm.trans (Environment.setting?_of_sets hreads hsets)
      rw [hflag]
      rfl
    | byStandard hflag hsilent =>
      cases hfound.symm.trans (Environment.setting?_of_isSilent hsilent parse)
      rw [hflag]
      rfl

namespace Policy

variable {env : Environment} {flagGranularity : Option Granularity}
  {flagImplicit : Option ImplicitResult}

/-- Both variables are read, and then both settings are settled. -/
theorem resolve_eq_ok_iff {policy : Policy} :
    resolve env flagGranularity flagImplicit = .ok policy ↔
      ∃ granularity implicitResult,
        env.setting? Environment.granularityVariable Granularity.parse = .ok granularity ∧
        env.setting? Environment.implicitResultVariable ImplicitResult.parse =
          .ok implicitResult ∧
        ofSources flagGranularity flagImplicit granularity implicitResult = policy := by
  unfold resolve
  cases env.setting? Environment.granularityVariable Granularity.parse with
  | error bad => simp [bind, Except.bind]
  | ok granularity =>
    cases env.setting? Environment.implicitResultVariable ImplicitResult.parse with
    | error bad => simp [bind, Except.bind]
    | ok implicitResult => simp [bind, Except.bind, pure, Except.pure]

/-- The variable for the granularity is read first. -/
theorem resolve_eq_error_iff {bad : Environment.BadVariable} :
    resolve env flagGranularity flagImplicit = .error bad ↔
      env.setting? Environment.granularityVariable Granularity.parse = .error bad ∨
        (∃ granularity,
          env.setting? Environment.granularityVariable Granularity.parse = .ok granularity) ∧
        env.setting? Environment.implicitResultVariable ImplicitResult.parse = .error bad := by
  unfold resolve
  cases env.setting? Environment.granularityVariable Granularity.parse with
  | error bad => simp [bind, Except.bind]
  | ok granularity =>
    cases env.setting? Environment.implicitResultVariable ImplicitResult.parse with
    | error bad => simp [bind, Except.bind]
    | ok implicitResult => simp [bind, Except.bind, pure, Except.pure]

/-- An error is that of a variable which misspells its setting, the one for the granularity before
the other. -/
theorem misspells_of_resolve_eq_error {bad : Environment.BadVariable}
    (h : resolve env flagGranularity flagImplicit = .error bad) :
    bad.name = Environment.granularityVariable ∧
        env.Misspells Granularity.spellings Environment.granularityVariable bad.text ∨
      bad.name = Environment.implicitResultVariable ∧
        env.Misspells ImplicitResult.spellings Environment.implicitResultVariable bad.text ∧
          ∀ text,
            ¬env.Misspells Granularity.spellings Environment.granularityVariable text := by
  rcases resolve_eq_error_iff.mp h with hfirst | ⟨hread, hsecond⟩
  · obtain ⟨hname, -, hmisspells⟩ :=
      (Environment.setting?_eq_error_iff Granularity.readsSpellings).mp hfirst
    exact .inl ⟨hname, hmisspells⟩
  · obtain ⟨hname, -, hmisspells⟩ :=
      (Environment.setting?_eq_error_iff ImplicitResult.readsSpellings).mp hsecond
    exact .inr ⟨hname, hmisspells,
      (Environment.exists_setting?_eq_ok_iff Granularity.readsSpellings).mp hread⟩

/-- Without such a variable, the two settings are settled apart from each other. -/
theorem resolve_eq_ok_iff_settles {policy : Policy} :
    resolve env flagGranularity flagImplicit = .ok policy ↔
      (∀ text, ¬env.Misspells Granularity.spellings Environment.granularityVariable text) ∧
        (∀ text,
          ¬env.Misspells ImplicitResult.spellings Environment.implicitResultVariable text) ∧
        Settles flagGranularity env Granularity.spellings Environment.granularityVariable
          Granularity.standard policy.granularity ∧
        Settles flagImplicit env ImplicitResult.spellings Environment.implicitResultVariable
          ImplicitResult.standard policy.implicitResult := by
  have hgranularity := Granularity.readsSpellings
  have himplicit := ImplicitResult.readsSpellings
  rw [resolve_eq_ok_iff]
  constructor
  · rintro ⟨granularity, implicitResult, hfirst, hsecond, rfl⟩
    exact ⟨(Environment.exists_setting?_eq_ok_iff hgranularity).mp ⟨granularity, hfirst⟩,
      (Environment.exists_setting?_eq_ok_iff himplicit).mp ⟨implicitResult, hsecond⟩,
      (settles_iff hgranularity hfirst).mp rfl, (settles_iff himplicit hsecond).mp rfl⟩
  · rintro ⟨hreadFirst, hreadSecond, hsettlesFirst, hsettlesSecond⟩
    obtain ⟨granularity, hfirst⟩ :=
      (Environment.exists_setting?_eq_ok_iff hgranularity).mpr hreadFirst
    obtain ⟨implicitResult, hsecond⟩ :=
      (Environment.exists_setting?_eq_ok_iff himplicit).mpr hreadSecond
    exact ⟨granularity, implicitResult, hfirst, hsecond,
      congrArg₂ Policy.mk ((settles_iff hgranularity hfirst).mpr hsettlesFirst)
        ((settles_iff himplicit hsecond).mpr hsettlesSecond)⟩

/-- There is no policy exactly if there is such a variable. -/
theorem exists_resolve_eq_error_iff :
    (∃ bad, resolve env flagGranularity flagImplicit = .error bad) ↔
      (∃ text, env.Misspells Granularity.spellings Environment.granularityVariable text) ∨
        ∃ text,
          env.Misspells ImplicitResult.spellings Environment.implicitResultVariable text := by
  constructor
  · rintro ⟨bad, hbad⟩
    rcases misspells_of_resolve_eq_error hbad with ⟨-, hmisspells⟩ | ⟨-, hmisspells, -⟩
    · exact .inl ⟨bad.text, hmisspells⟩
    · exact .inr ⟨bad.text, hmisspells⟩
  · intro hmisspells
    cases hresolve : resolve env flagGranularity flagImplicit with
    | error bad => exact ⟨bad, rfl⟩
    | ok policy =>
      obtain ⟨hfirst, hsecond, -⟩ := resolve_eq_ok_iff_settles.mp hresolve
      rcases hmisspells with ⟨text, htext⟩ | ⟨text, htext⟩
      · exact absurd htext (hfirst text)
      · exact absurd htext (hsecond text)

/-- **When there is a policy, and what it is.**  There is none exactly if one of the two variables
holds a text that spells no value of its setting, with white space around it at most, whether or not
a flag is given; the error tells the variable and its text, and if both are wrong it is the one for
the granularity.  Otherwise each setting is that of its flag if there is one, else that of its
variable if this holds a text, and else the standard one, whatever the other setting is. -/
theorem resolve_settles (env : Environment) (flagGranularity : Option Granularity)
    (flagImplicit : Option ImplicitResult) :
    let misspellsGranularity := env.Misspells Granularity.spellings "REEF_ALLOC_GRANULARITY"
    let misspellsImplicit := env.Misspells ImplicitResult.spellings "REEF_IMPLICIT_RESULT"
    ((∃ bad, resolve env flagGranularity flagImplicit = .error bad) ↔
        (∃ text, misspellsGranularity text) ∨ ∃ text, misspellsImplicit text) ∧
      (∀ bad, resolve env flagGranularity flagImplicit = .error bad →
        (∃ why, bad.message = "invalid environment variable " ++ bad.name ++ why) ∧
          (bad.name = "REEF_ALLOC_GRANULARITY" ∧ misspellsGranularity bad.text ∨
            bad.name = "REEF_IMPLICIT_RESULT" ∧ misspellsImplicit bad.text ∧
              ∀ text, ¬misspellsGranularity text)) ∧
      ∀ policy, resolve env flagGranularity flagImplicit = .ok policy ↔
        (∀ text, ¬misspellsGranularity text) ∧ (∀ text, ¬misspellsImplicit text) ∧
          Settles flagGranularity env Granularity.spellings "REEF_ALLOC_GRANULARITY" .page
            policy.granularity ∧
          Settles flagImplicit env ImplicitResult.spellings "REEF_IMPLICIT_RESULT" .nothing
            policy.implicitResult := by
  intro misspellsGranularity misspellsImplicit
  refine ⟨exists_resolve_eq_error_iff, ?_, fun policy => resolve_eq_ok_iff_settles⟩
  intro bad hbad
  exact ⟨⟨_, bad.message_eq⟩, misspells_of_resolve_eq_error hbad⟩

/-- A setting between white space of all sorts is read, and a byte that is no text says nothing.  A
name in the wrong case is an error under any flags, and of two errors the first is told. -/
theorem resolve_settles_of_padded :
    let env : Environment :=
      ⟨fun name =>
        if name = "REEF_ALLOC_GRANULARITY" then some (Bytes.ofText "\u3000\t8\u00a0")
        else some [0xff]⟩
    let wrong : Environment := ⟨fun _ => some (Bytes.ofText "Page")⟩
    resolve env none none = .ok ⟨.word8, .nothing⟩ ∧
      ∃ bad, resolve wrong (some .page) (some .nothing) = .error bad ∧
        bad.name = "REEF_ALLOC_GRANULARITY" := by
  intro env wrong
  have hpadded : Spells Granularity.spellings "\u3000\t8\u00a0" .word8 :=
    ⟨"8", by decide, ['\u3000', '\t'], ['\u00a0'], List.all_iff_forall_prop.mp (by decide),
      List.all_iff_forall_prop.mp (by decide), rfl⟩
  have hsets : env.Sets Granularity.spellings "REEF_ALLOC_GRANULARITY" .word8 :=
    ⟨_, rfl, hpadded⟩
  have hsilent : env.IsSilent "REEF_IMPLICIT_RESULT" := by
    intro text htext
    have hdecode : Utf8.decode? [0xff] = some text :=
      Utf8.decode?_eq_some_iff.mpr (Option.some.inj htext)
    cases hdecode
  have hread : ∀ text, ¬env.Misspells Granularity.spellings "REEF_ALLOC_GRANULARITY" text :=
    (Environment.exists_setting?_eq_ok_iff Granularity.readsSpellings).mp
      ⟨_, Environment.setting?_of_sets Granularity.readsSpellings hsets⟩
  have hwrong : wrong.Misspells Granularity.spellings "REEF_ALLOC_GRANULARITY" "Page" :=
    ⟨rfl, not_spells_of_ne (by decide) (by decide)⟩
  obtain ⟨-, -, hpolicy⟩ := resolve_settles env none none
  obtain ⟨hfails, hnames, -⟩ := resolve_settles wrong (some .page) (some .nothing)
  obtain ⟨bad, hbad⟩ := hfails.mpr (.inl ⟨"Page", hwrong⟩)
  refine ⟨(hpolicy _).mpr ⟨hread, fun text htext => hsilent text htext.1,
    .byVariable rfl hsets, .byStandard rfl hsilent⟩, bad, hbad, ?_⟩
  rcases (hnames bad hbad).2 with ⟨hname, -⟩ | ⟨-, -, hnot⟩
  · exact hname
  · exact absurd hwrong (hnot "Page")

end Policy
end JobSandbox
