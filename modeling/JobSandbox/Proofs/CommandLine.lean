import JobSandbox.CommandLine
import JobSandbox.Proofs.Hex
import JobSandbox.Proofs.Words

/-!
# Words of a hexadecimal text, turned round

The command that turns round the words of a text reads bytes, works on them, and writes bytes.  Its
own output is such a text again, so it can be run on it, and turning round twice leaves everything
as it was: what comes out are the digits that went in.  Only their case is lost, and what was around
them.

## Main results

* `Command.perform_of_ok`, `Command.perform_of_error` — what a command leaves behind.
* `Command.swap_undone` — **which texts have their words turned round, and that this undoes
  itself.**
-/

namespace JobSandbox
namespace Command

section Perform

variable {env : Environment} {files : Files} {command : Command}

theorem perform_of_ok {exit : ℕ} {text : String}
    (h : command.output env files = .ok (exit, text)) :
    command.perform env files = { exit, stdout := line text } := by
  rw [perform, h]

theorem perform_of_error {failure : CommandFailure}
    (h : command.output env files = .error failure) :
    command.perform env files = { exit := 2, stderr := line failure.message } := by
  rw [perform, h]

end Perform

/-! ### Turning words round -/

section Swap

variable {text : String} {bytes : Bytes}

/-- A text that is read is turned round as its bytes are. -/
theorem swappedText_of_parse (hparse : Hex.parse text = .ok bytes) :
    swappedText text =
      match swapInPlace bytes with
      | .ok (_, swapped) => .ok (Hex.ofBytes swapped)
      | .error error => .error (.argument error) := by
  have hread : swappedText text =
      ((swapInPlace bytes).mapError CommandFailure.argument >>= fun turned =>
        pure (Hex.ofBytes turned.2)) := by
    rw [swappedText, hparse]
    rfl
  rw [hread]
  cases swapInPlace bytes <;> rfl

/-- A text of whole words has its words turned round. -/
theorem perform_swap_of_whole (env : Environment) (files : Files)
    (hparse : Hex.parse text = .ok bytes) (h : bytes.length % 4 = 0) :
    (swap text).perform env files =
      { exit := 0, stdout := line (Hex.ofBytes (swapWords bytes)) } := by
  refine perform_of_ok ?_
  rw [output, swappedText_of_parse hparse, swapInPlace_of_whole h]
  rfl

/-- A text that is turned round is one of whole words. -/
theorem of_exit_perform_swap {env : Environment} {files : Files}
    (h : ((swap text).perform env files).exit = 0) :
    ∃ bytes, Hex.parse text = .ok bytes ∧ bytes.length % 4 = 0 := by
  cases hparse : Hex.parse text with
  | error error =>
    have houtput : (swap text).output env files = .error (.hex error) := by
      rw [output, swappedText, hparse]
      rfl
    rw [perform_of_error houtput] at h
    cases h
  | ok bytes =>
    refine ⟨bytes, rfl, ?_⟩
    by_contra hpartial
    have houtput : (swap text).output env files =
        .error (.argument (.invalidLength bytes.length wordSize)) := by
      rw [output, swappedText_of_parse hparse, swapInPlace_of_partial hpartial]
      rfl
    rw [perform_of_error houtput] at h
    cases h

/-- A line of output is its text with white space around it. -/
theorem padded_line (text : String) : Padded text.toList (line text).toList := by
  refine ⟨[], ['\n'], fun c hc => absurd hc List.not_mem_nil, List.forall_mem_singleton.mpr rfl, ?_⟩
  rw [line, String.toList_append]
  rfl

/-- Whole words have eight digits each. -/
theorem exit_perform_swap_eq_zero_iff {env : Environment} {files : Files} :
    ((swap text).perform env files).exit = 0 ↔
      ∃ digits, Hex.Shows text digits ∧ 8 ∣ digits.length := by
  constructor
  · intro hexit
    obtain ⟨bytes, hparse, hwhole⟩ := of_exit_perform_swap hexit
    obtain ⟨digits, hshows, -⟩ := Hex.parse_eq_ok_iff.mp hparse
    have hlength := Hex.length_of_parse hparse hshows
    exact ⟨digits, hshows, by omega⟩
  · rintro ⟨digits, hshows, height⟩
    obtain ⟨bytes, hparse⟩ := Hex.exists_parse_of_shows hshows (by omega)
    have hlength := Hex.length_of_parse hparse hshows
    rw [perform_swap_of_whole env files hparse (by omega)]

/-- What was turned round and is turned round again has its digits back, whatever white space is
around it. -/
theorem perform_swap_of_swapped (env : Environment) (files : Files) {again : String}
    (hwhole : bytes.length % 4 = 0)
    (hpadded : Padded (Hex.chars (swapWords bytes)) again.toList) :
    (swap again).perform env files = { exit := 0, stdout := line (Hex.ofBytes bytes) } := by
  have hparse := Hex.parse_of_padded_chars hpadded
  rw [perform_swap_of_whole env files hparse (by rw [length_swapWords]; exact hwhole),
    swapWords_swapWords]

/-- If the words are not turned round, the command fails, and prints nothing. -/
theorem perform_swap_of_exit_ne {env : Environment} {files : Files}
    (h : ((swap text).perform env files).exit ≠ 0) :
    ((swap text).perform env files).exit = 2 ∧ ((swap text).perform env files).stdout = "" := by
  cases hswapped : swappedText text with
  | error failure =>
    have houtput : (swap text).output env files = .error failure := by
      rw [output, hswapped]
      rfl
    rw [perform_of_error houtput]
    exact ⟨rfl, rfl⟩
  | ok swapped =>
    have houtput : (swap text).output env files = .ok (0, swapped) := by
      rw [output, hswapped]
      rfl
    rw [perform_of_ok houtput] at h
    exact absurd rfl h

end Swap

/-- **Which texts have their words turned round, and that this undoes itself.**  All bytes are read
from their own text.  A text is read exactly if it shows an even number of digits, and the text of
what is read has the same digits in lower case.  The command succeeds exactly if the number is a
multiple of eight, which makes whole words, and fails without output if it is not.  It prints the
digits of the bytes whose words are turned round, on a line of their own; and run on its own output,
as it is or without the end of its line, it prints the digits of the first text in lower case. -/
theorem swap_undone (env : Environment) (files : Files) :
    (∀ bytes, Hex.parse (Hex.ofBytes bytes) = .ok bytes) ∧
      (∀ text, (∃ bytes, Hex.parse text = .ok bytes) ↔
        ∃ digits, Hex.Shows text digits ∧ 2 ∣ digits.length) ∧
      (∀ text bytes digits, Hex.parse text = .ok bytes → Hex.Shows text digits →
        Hex.ofBytes bytes = String.ofList (digits.map Char.toLower)) ∧
      (∀ text,
        let response := (swap text).perform env files
        (response.exit = 0 ↔ ∃ digits, Hex.Shows text digits ∧ 8 ∣ digits.length) ∧
          (response.exit ≠ 0 → response.exit = 2 ∧ response.stdout = "")) ∧
      ∀ text digits, Hex.Shows text digits → 8 ∣ digits.length →
        ∃ bytes swapped, Hex.parse text = .ok bytes ∧ swapped = Hex.ofBytes (swapWords bytes) ∧
          (swap text).perform env files = { exit := 0, stdout := swapped ++ "\n" } ∧
          ∀ again ∈ [swapped, swapped ++ "\n"], (swap again).perform env files =
            { exit := 0, stdout := String.ofList (digits.map Char.toLower) ++ "\n" } := by
  refine ⟨Hex.parse_ofBytes, ?_, ?_, ?_, ?_⟩
  · intro text
    constructor
    · rintro ⟨bytes, hparse⟩
      obtain ⟨digits, hshows, heven, -⟩ := Hex.parse_eq_ok_iff.mp hparse
      exact ⟨digits, hshows, heven⟩
    · rintro ⟨digits, hshows, heven⟩
      exact Hex.exists_parse_of_shows hshows heven
  · intro text bytes digits hparse hshows
    rw [Hex.ofBytes, Hex.chars_of_parse hparse hshows]
  · intro text response
    exact ⟨exit_perform_swap_eq_zero_iff, perform_swap_of_exit_ne⟩
  · intro text digits hshows height
    obtain ⟨bytes, hparse⟩ := Hex.exists_parse_of_shows hshows (by omega)
    have hlength := Hex.length_of_parse hparse hshows
    have hwhole : bytes.length % 4 = 0 := by omega
    refine ⟨bytes, Hex.ofBytes (swapWords bytes), hparse, rfl,
      perform_swap_of_whole env files hparse hwhole, ?_⟩
    have htext : (Hex.ofBytes (swapWords bytes)).toList = Hex.chars (swapWords bytes) :=
      String.toList_ofList
    intro again hmem
    rw [← Hex.chars_of_parse hparse hshows]
    refine perform_swap_of_swapped env files hwhole ?_
    rw [← htext]
    rw [List.mem_pair] at hmem
    rcases hmem with rfl | rfl
    · exact padded_self _
    · exact padded_line _

/-- One word is turned round and back, its case, its marker and the white space around it aside; and
half a word is not. -/
theorem swap_undone_of_one_word :
    let env : Environment := ⟨fun _ => none⟩
    let files : Files := ⟨fun _ => .error .notFound⟩
    (swap "01020304").perform env files = { exit := 0, stdout := "04030201\n" } ∧
      (swap "04030201\n").perform env files = { exit := 0, stdout := "01020304\n" } ∧
      (swap "\t0xAAbbCC0d").perform env files = { exit := 0, stdout := "0dccbbaa\n" } ∧
      (swap "0dccbbaa\n").perform env files = { exit := 0, stdout := "aabbcc0d\n" } ∧
      ((swap "0102").perform env files).exit = 2 ∧
      ((swap "0102").perform env files).stdout = "" := by
  intro env files
  obtain ⟨-, -, -, hexit, hturned⟩ := swap_undone env files
  -- the bytes are read once, and everything else follows from the digits that are shown
  have hturns {text : String} {digits : List Char} {bytes : Bytes} (hshows : Hex.Shows text digits)
      (height : 8 ∣ digits.length) (hparse : Hex.parse text = .ok bytes) :
      (swap text).perform env files =
          { exit := 0, stdout := Hex.ofBytes (swapWords bytes) ++ "\n" } ∧
        (swap (Hex.ofBytes (swapWords bytes) ++ "\n")).perform env files =
          { exit := 0, stdout := String.ofList (digits.map Char.toLower) ++ "\n" } := by
    obtain ⟨found, swapped, hfound, rfl, hfirst, hagain⟩ := hturned text digits hshows height
    cases hparse.symm.trans hfound
    exact ⟨hfirst, hagain _ (by simp)⟩
  have hplain : Hex.Shows "01020304" "01020304".toList :=
    ⟨List.all_iff_forall_prop.mp (by decide), .inl (padded_self _)⟩
  have hmarked : Hex.Shows "\t0xAAbbCC0d" "AAbbCC0d".toList :=
    ⟨List.all_iff_forall_prop.mp (by decide),
      .inr ⟨['\t'], [], List.forall_mem_singleton.mpr rfl, List.forall_mem_nil _, rfl⟩⟩
  have hshort : ((swap "0102").perform env files).exit ≠ 0 := by
    rw [Ne, (hexit "0102").1]
    rintro ⟨digits, hshows, height⟩
    have hdigits : Hex.Shows "0102" "0102".toList :=
      ⟨List.all_iff_forall_prop.mp (by decide), .inl (padded_self _)⟩
    rw [hshows.unique hdigits] at height
    revert height
    decide
  have hparse : Hex.parse "01020304" = .ok [1, 2, 3, 4] := by decide
  have hparse' : Hex.parse "\t0xAAbbCC0d" = .ok [0xaa, 0xbb, 0xcc, 0xd] := by decide
  obtain ⟨hfirst, hback⟩ := hturns hplain (by decide) hparse
  obtain ⟨hfirst', hback'⟩ := hturns hmarked (by decide) hparse'
  exact ⟨hfirst, hback, hfirst', hback', (hexit "0102").2 hshort⟩

end Command
end JobSandbox
