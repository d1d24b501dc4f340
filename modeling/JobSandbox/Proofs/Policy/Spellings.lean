import JobSandbox.Proofs.Policy
import Mathlib.Data.List.Nodup

/-!
# One language for flags and variables

A setting is spelled in two places.  A variable is compared with literal texts, and a flag is looked
up among choices with a name and aliases.  The two are written down apart from each other, so either
could gain a spelling that the other lacks.  Both come to a list of spellings with their values, and
it is the same list; what is left of the difference is the white space that only a variable may
have.

## Main definitions

* `Choice.spelledValues` — choices as such a list.
* `SpelledAlike` — a variable and a flag that accept the same spellings.

## Main results

* `Choice.find?_eq_some_iff` — choosing by a text is looking it up in the list.
* `Policy.settings_spelledAlike` — **both settings are spelled alike in both places.**
-/

namespace JobSandbox

variable {α : Type}

namespace Choice

/-- The spellings of choices, each with its value. -/
def spelledValues (choices : List (Choice α)) : List (String × α) :=
  choices.flatMap fun choice => choice.spellings.map fun s => (s, choice.value)

theorem mem_spelledValues {choices : List (Choice α)} {text : String} {value : α} :
    (text, value) ∈ spelledValues choices ↔
      ∃ choice ∈ choices, text ∈ choice.spellings ∧ choice.value = value := by
  simp [spelledValues]

/-- With regard to case, a choice accepts its spellings and nothing else. -/
theorem accepts_false_iff {choice : Choice α} {text : String} :
    accepts false text choice = true ↔ text ∈ choice.spellings := by
  simp [accepts]

/-- A text that no choice accepts is none of the spellings. -/
theorem find?_eq_none_iff {choices : List (Choice α)} {text : String} :
    find? choices false text = none ↔ ∀ value, (text, value) ∉ spelledValues choices := by
  rw [find?, Option.map_eq_none_iff, List.find?_eq_none]
  constructor
  · intro hnone value hmem
    obtain ⟨choice, hchoice, hspelled, -⟩ := mem_spelledValues.mp hmem
    exact hnone choice hchoice (accepts_false_iff.mpr hspelled)
  · intro hnone choice hchoice haccepts
    exact hnone choice.value
      (mem_spelledValues.mpr ⟨choice, hchoice, accepts_false_iff.mp haccepts, rfl⟩)

/-- If no spelling is there twice, it does not matter which choice comes first. -/
theorem find?_eq_some_iff {choices : List (Choice α)}
    (hnodup : ((spelledValues choices).map Prod.fst).Nodup) {text : String} {value : α} :
    find? choices false text = some value ↔ (text, value) ∈ spelledValues choices := by
  have hsound {found : α} (h : find? choices false text = some found) :
      (text, found) ∈ spelledValues choices := by
    obtain ⟨choice, hchoice, hvalue⟩ := Option.map_eq_some_iff.mp h
    exact mem_spelledValues.mpr ⟨choice, List.mem_of_find?_eq_some hchoice,
      accepts_false_iff.mp (List.find?_some hchoice), hvalue⟩
  refine ⟨hsound, fun hmem => ?_⟩
  cases hfind : find? choices false text with
  | none => exact absurd hmem (find?_eq_none_iff.mp hfind value)
  | some found =>
    cases List.inj_on_of_nodup_map hnodup (hsound hfind) hmem rfl
    rfl

end Choice

/-- A setting that a variable sets with the spellings of a flag and white space around them, and
that is read back from its name in both. -/
structure SpelledAlike (parse : String → Except SettingError α) (choices : List (Choice α))
    (name : α → String) (cause : SettingError) : Prop where
  ok_iff : ∀ text core, IsCore core text →
    ∀ value, parse text = .ok value ↔ Choice.find? choices false core = some value
  error_iff : ∀ text core, IsCore core text →
    (parse text = .error cause ↔ Choice.find? choices false core = none)
  reads_name : ∀ value,
    parse (name value) = .ok value ∧ Choice.find? choices false (name value) = some value

/-- It is enough that variables are read by the list of the choices. -/
theorem ReadsSpellings.spelledAlike {parse : String → Except SettingError α}
    {choices : List (Choice α)} {cause : SettingError} {name : α → String}
    (hreads : ReadsSpellings parse (Choice.spelledValues choices) cause)
    (hbare : ∀ s ∈ Choice.spelledValues choices, IsBare s.1.toList)
    (hnodup : ((Choice.spelledValues choices).map Prod.fst).Nodup)
    (hname : ∀ value, (name value, value) ∈ Choice.spelledValues choices) :
    SpelledAlike parse choices name cause where
  ok_iff text core hcore value := by
    rw [hreads.ok_iff, spells_iff hbare, trim_eq_iff_isCore.mpr hcore,
      Choice.find?_eq_some_iff hnodup]
  error_iff text core hcore := by
    rw [hreads.error_iff, Choice.find?_eq_none_iff]
    refine forall_congr' fun value => not_congr ?_
    rw [spells_iff hbare, trim_eq_iff_isCore.mpr hcore]
  reads_name value :=
    ⟨(hreads.ok_iff _ _).mpr ⟨name value, hname value, padded_self _⟩,
      (Choice.find?_eq_some_iff hnodup).mpr (hname value)⟩

namespace Policy

/-- **Both settings are spelled alike as flags and as variables.**  Every text has one core, which
is what stands between the white space at its two ends.  A variable sets the value that the core of
its text chooses as a flag, and is in error exactly if the core chooses nothing; and the name of a
value is read back as that value in both places. -/
theorem settings_spelledAlike :
    (∀ text, ∃! core, IsCore core text) ∧
      SpelledAlike Granularity.parse Granularity.choices Granularity.name .granularity ∧
      SpelledAlike ImplicitResult.parse ImplicitResult.choices ImplicitResult.name
        .implicitResult := by
  have hgranularity : Choice.spelledValues Granularity.choices = Granularity.spellings := rfl
  have himplicit : Choice.spelledValues ImplicitResult.choices = ImplicitResult.spellings := rfl
  refine ⟨existsUnique_isCore, ?_, ?_⟩
  · refine ReadsSpellings.spelledAlike ?_ (by decide) (by decide) fun value => ?_
    · exact hgranularity ▸ Granularity.readsSpellings
    · cases value <;> decide
  · refine ReadsSpellings.spelledAlike ?_ (by decide) (by decide) fun value => ?_
    · exact himplicit ▸ ImplicitResult.readsSpellings
    · cases value <;> decide

/-- White space of any kind may stand around a spelling in a variable, an alias among them, and none
in a flag; and case is minded in both. -/
theorem settings_spelledAlike_of_padded :
    (Granularity.parse "\u3000\t8\u00a0" = .ok .word8 ∧
        Choice.find? Granularity.choices false "8" = some .word8 ∧
        Choice.find? Granularity.choices false "\u3000\t8\u00a0" = none) ∧
      (ImplicitResult.parse " placeholder\n" = .ok .placeholderZero ∧
        Choice.find? ImplicitResult.choices false "placeholder" = some .placeholderZero) ∧
      Granularity.parse " Page" = .error .granularity ∧
        Choice.find? Granularity.choices false "Page" = none := by
  obtain ⟨-, hgranularity, himplicit⟩ := settings_spelledAlike
  have hcore (core before after : String) (hbefore : before.toList.all isBlank = true)
      (hafter : after.toList.all isBlank = true) (hbare : IsBare core.toList) :
      IsCore core (before ++ (core ++ after)) :=
    ⟨⟨before.toList, after.toList, List.all_eq_true.mp hbefore, List.all_eq_true.mp hafter,
      by simp⟩, hbare⟩
  have height : Choice.find? Granularity.choices false "8" = some .word8 := by decide
  have hplaceholder :
      Choice.find? ImplicitResult.choices false "placeholder" = some .placeholderZero := by decide
  have hwrong : Choice.find? Granularity.choices false "Page" = none := by decide
  have hpadded : IsCore "8" "\u3000\t8\u00a0" :=
    hcore "8" "\u3000\t" "\u00a0" (by decide) (by decide) (by decide)
  have hline : IsCore "placeholder" " placeholder\n" :=
    hcore "placeholder" " " "\n" (by decide) (by decide) (by decide)
  have hspace : IsCore "Page" " Page" :=
    hcore "Page" " " "" (by decide) (by decide) (by decide)
  exact ⟨⟨(hgranularity.ok_iff _ _ hpadded _).mpr height, height, by decide⟩,
    ⟨(himplicit.ok_iff _ _ hline _).mpr hplaceholder, hplaceholder⟩,
    (hgranularity.error_iff _ _ hspace).mpr hwrong, hwrong⟩

end Policy
end JobSandbox
