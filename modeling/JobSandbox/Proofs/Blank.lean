import JobSandbox.Text.Blank
import Mathlib.Data.Bool.AllAny
import Mathlib.Data.List.DropRight

/-!
# What is left of a text without the white space around it

White space is taken away in two sweeps, one from either end.  What is left can be told without
them: it is the part of the text that has nothing but white space on either side, and that has none
at its own ends.  There is one such part of every text; only in a text of white space alone could it
stand in several places, and there it is empty.

## Main definitions

* `Padded` — characters between white space.
* `IsBare` — characters that have no white space at their ends.
* `IsCore` — a text that stands in another with nothing but white space around it, and has none at
  its own ends.

## Main results

* `trimChars_eq_iff` — **what is left is the part without white space at its ends.**
* `trim_eq_iff` — a text that has none at its ends is left of those in which it is padded.
* `existsUnique_isCore` — every text has one core.
-/

namespace JobSandbox

/-- `core` with white space on both sides. -/
def Padded (core cs : List Char) : Prop :=
  ∃ before after, (∀ c ∈ before, isBlank c = true) ∧ (∀ c ∈ after, isBlank c = true) ∧
    cs = before ++ (core ++ after)

/-- No white space at either end. -/
def IsBare (cs : List Char) : Prop :=
  (∀ c ∈ cs.head?, isBlank c = false) ∧ ∀ c ∈ cs.getLast?, isBlank c = false

instance (cs : List Char) : Decidable (IsBare cs) :=
  @instDecidableAnd _ _ (Option.decidableForallMem _) (Option.decidableForallMem _)

section Trim

variable {core cs : List Char}

theorem padded_self (cs : List Char) : Padded cs cs :=
  ⟨[], [], fun _ h => absurd h List.not_mem_nil, fun _ h => absurd h List.not_mem_nil,
    (List.append_nil cs).symm⟩

theorem isBare_of_forall (h : ∀ c ∈ cs, isBlank c = false) : IsBare cs :=
  ⟨fun c hc => h c (List.mem_of_mem_head? hc), fun c hc => h c (List.mem_of_mem_getLast? hc)⟩

/-- The second sweep goes from the right. -/
theorem trimChars_eq_rdropWhile (cs : List Char) :
    trimChars cs = (cs.dropWhile isBlank).rdropWhile isBlank := rfl

/-- What is taken away is white space. -/
theorem padded_trimChars (cs : List Char) : Padded (trimChars cs) cs := by
  refine ⟨cs.takeWhile isBlank, (cs.dropWhile isBlank).rtakeWhile isBlank,
    fun c hc => List.mem_takeWhile_imp hc, fun c hc => List.mem_rtakeWhile_imp hc, ?_⟩
  rw [trimChars_eq_rdropWhile, List.rdropWhile_append_rtakeWhile,
    List.takeWhile_append_dropWhile]

/-- What is left has no white space at its ends. -/
theorem isBare_trimChars (cs : List Char) : IsBare (trimChars cs) := by
  rw [trimChars_eq_rdropWhile]
  constructor
  · intro c hc
    -- what the second sweep leaves begins as what the first one left
    obtain ⟨after, hafter⟩ := List.rdropWhile_prefix isBlank (cs.dropWhile isBlank)
    have hhead : (cs.dropWhile isBlank).head? = some c := by
      rw [← hafter, List.head?_append, hc]
      rfl
    have hnot := List.head?_dropWhile_not isBlank cs
    rwa [hhead] at hnot
  · intro c hc
    obtain ⟨hne, rfl⟩ := List.mem_getLast?_eq_getLast hc
    exact Bool.eq_false_iff.mpr (List.rdropWhile_last_not isBlank _ hne)

theorem rdropWhile_append_of_blank {after : List Char} (cs : List Char)
    (h : ∀ c ∈ after, isBlank c = true) :
    (cs ++ after).rdropWhile isBlank = cs.rdropWhile isBlank := by
  have hreverse : ∀ c ∈ after.reverse, isBlank c = true := fun c hc => h c (List.mem_reverse.mp hc)
  rw [List.rdropWhile, List.reverse_append, List.dropWhile_append_of_pos hreverse]
  rfl

/-- Characters without white space at their ends are left of those in which they are padded. -/
theorem Padded.trimChars_eq (h : Padded core cs) (hbare : IsBare core) : trimChars cs = core := by
  obtain ⟨before, after, hbefore, hafter, rfl⟩ := h
  rw [trimChars_eq_rdropWhile, List.dropWhile_append_of_pos hbefore]
  cases core with
  | nil => rw [List.nil_append, List.dropWhile_eq_nil_iff.mpr hafter, List.rdropWhile_nil]
  | cons c core =>
    have hfirst : ¬isBlank c = true := Bool.eq_false_iff.mp (hbare.1 c rfl)
    rw [List.cons_append, List.dropWhile_cons_of_neg hfirst, ← List.cons_append,
      rdropWhile_append_of_blank _ hafter, List.rdropWhile_eq_self_iff]
    exact fun hne => Bool.eq_false_iff.mp (hbare.2 _ (List.getLast?_eq_some_getLast hne))

/-- **What is left of characters is the part that has white space around it, and none at its own
ends.** -/
theorem trimChars_eq_iff : trimChars cs = core ↔ Padded core cs ∧ IsBare core := by
  constructor
  · rintro rfl
    exact ⟨padded_trimChars cs, isBare_trimChars cs⟩
  · rintro ⟨hpadded, hbare⟩
    exact hpadded.trimChars_eq hbare

end Trim

/-- A text without white space at its ends is left of those in which it is padded. -/
theorem trim_eq_iff {s text : String} (hs : IsBare s.toList) :
    trim text = s ↔ Padded s.toList text.toList := by
  rw [trim, ← String.toList_inj, String.toList_ofList, trimChars_eq_iff]
  exact and_iff_left hs

/-- `core` stands in `text` with nothing but white space around it, and has none at its own ends. -/
def IsCore (core text : String) : Prop := Padded core.toList text.toList ∧ IsBare core.toList

/-- What is left of a text is its core. -/
theorem trim_eq_iff_isCore {core text : String} : trim text = core ↔ IsCore core text := by
  rw [trim, ← String.toList_inj, String.toList_ofList, trimChars_eq_iff, IsCore]

/-- Every text has one core. -/
theorem existsUnique_isCore (text : String) : ∃! core, IsCore core text := by
  refine ⟨trim text, trim_eq_iff_isCore.mp rfl, ?_⟩
  intro core hcore
  exact (trim_eq_iff_isCore.mpr hcore).symm

end JobSandbox
