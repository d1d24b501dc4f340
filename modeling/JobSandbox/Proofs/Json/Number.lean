import JobSandbox.Json.Document
import JobSandbox.Proofs.Json
import Mathlib.Algebra.Field.Rat
import Mathlib.Algebra.GroupWithZero.Basic
import Mathlib.Algebra.Order.Field.Rat

/-!
# Numbers in JSON text

A number is written as digits, with a point and an exponent if there are any.  A reader takes all of
it in, and no more if what follows is none of the characters that a number goes on with.  So the
number can be told from the text, and with it the rational that it stands for.

## Main definitions

* `NumberText.chars`, `NumberText.signed` — a number as it is written, without its sign and with it.
* `NumberText.IsWellFormed` — a number that JSON has.
* `NumberText.magnitude` — the rational that it stands for, without its sign.
* `NumberText.Stands` — a number that is written so and stands for this rational.
* `NumberText.Denotes` — characters that are written of a number for some rational.

## Main results

* `NumberText.readNumber_append` — what is written is read back, and what follows it is left.
* `NumberText.Denotes.unique` — **characters denote one rational.**
-/

namespace JobSandbox

open Json (EndsNumber)

/-! ### Digits -/

/-- At least one digit, and nothing else. -/
def AreDigits (cs : List Char) : Prop := cs ≠ [] ∧ ∀ c ∈ cs, c.isDigit = true

theorem areDigits_toDigits (n : ℕ) : AreDigits (Nat.toDigits 10 n) :=
  ⟨Nat.toDigits_ne_nil, fun _ hc => Nat.isDigit_of_mem_toDigits (by decide) (by decide) hc⟩

theorem areDigits_singleton {c : Char} (h : c.isDigit = true) : AreDigits [c] :=
  ⟨List.cons_ne_nil c [], fun _ hd => List.mem_singleton.mp hd ▸ h⟩

theorem isDigit_of_mem_zeros (k : ℕ) : ∀ c ∈ List.replicate k '0', c.isDigit = true :=
  fun _ hc => List.eq_of_mem_replicate hc ▸ rfl

/-- A numeral of a number other than zero does not start with a zero. -/
theorem head?_toDigits_ne {n : ℕ} (h : n ≠ 0) : (Nat.toDigits 10 n).head? ≠ some '0' := by
  induction n using Nat.strong_induction_on with
  | _ n ih =>
    rw [Nat.toDigits_eq_if (by decide)]
    split
    · next hlt =>
      have hdigit : ∀ d < 10, d ≠ 0 → d.digitChar ≠ '0' := by decide
      intro hzero
      exact hdigit n hlt h (Option.some.inj hzero)
    · next hge =>
      have hfront := ih (n / 10) (by omega) (by omega)
      intro hzero
      rw [List.head?_append_of_ne_nil _ Nat.toDigits_ne_nil] at hzero
      exact hfront hzero

namespace NumberText

variable {number : NumberText} {cs ds r s : List Char} {p q : ℚ}

/-- The value of digits, as the library has it. -/
theorem decimalOf_eq (cs : List Char) : decimalOf cs = Nat.ofDigitChars 10 cs 0 := rfl

theorem decimalOf_toDigits (n : ℕ) : decimalOf (Nat.toDigits 10 n) = n :=
  Nat.ofDigitChars_ten_toDigits

/-- A zero behind the digits multiplies them by ten. -/
theorem decimalOf_append_replicate (cs : List Char) (k : ℕ) :
    decimalOf (cs ++ List.replicate k '0') = decimalOf cs * 10 ^ k := by
  rw [decimalOf_eq, Nat.ofDigitChars_append, Nat.ofDigitChars_replicate_zero, Nat.mul_comm]
  rfl

/-- A zero in front of the digits changes nothing. -/
theorem decimalOf_replicate_append (k : ℕ) (cs : List Char) :
    decimalOf (List.replicate k '0' ++ cs) = decimalOf cs := by
  rw [decimalOf_eq, Nat.ofDigitChars_append, Nat.ofDigitChars_replicate_zero, Nat.mul_zero]
  rfl

/-! ### Writing -/

/-- The point and the digits behind it. -/
def fractionChars : Option (List Char) → List Char
  | none => []
  | some digits => '.' :: digits

/-- The exponent with its sign. -/
def exponentChars : Option (Bool × List Char) → List Char
  | none => []
  | some (down, digits) => 'e' :: (if down then '-' else '+') :: digits

/-- A number without its sign. -/
def chars (number : NumberText) : List Char :=
  number.whole ++ (fractionChars number.fraction ++ exponentChars number.exponent)

/-- A number with its sign in front. -/
def signed (number : NumberText) : List Char :=
  if number.negative then '-' :: number.chars else number.chars

/-- A number that JSON has. -/
structure IsWellFormed (number : NumberText) : Prop where
  whole : AreDigits number.whole
  whole_of_zero : number.whole.head? = some '0' → number.whole.length = 1
  fraction : ∀ digits ∈ number.fraction, AreDigits digits
  exponent : ∀ e ∈ number.exponent, AreDigits e.2

theorem IsWellFormed.withSign (h : number.IsWellFormed) (negative : Bool) :
    ({ number with negative } : NumberText).IsWellFormed :=
  ⟨h.whole, h.whole_of_zero, h.fraction, h.exponent⟩

/-- A text that does not go on with a number. -/
def Ends (cs : List Char) : Prop :=
  ∀ c ∈ cs.head?, c.isDigit = false ∧ c ≠ '.' ∧ c ≠ 'e' ∧ c ≠ 'E'

theorem Ends.endsNumber (h : Ends r) : EndsNumber r := fun c hc => (h c hc).1

/-- An exponent does not go on with the digits in front of it. -/
theorem ends_exponentChars (exponent : Option (Bool × List Char)) (hr : Ends r) :
    ∀ c ∈ (exponentChars exponent ++ r).head?, c.isDigit = false ∧ c ≠ '.' := by
  intro c hc
  cases exponent with
  | none => exact ⟨(hr c hc).1, (hr c hc).2.1⟩
  | some e =>
    cases hc
    decide

theorem endsNumber_fractionChars (fraction : Option (List Char)) (hr : EndsNumber r) :
    EndsNumber (fractionChars fraction ++ r) := by
  intro c hc
  cases fraction with
  | none => exact hr c hc
  | some digits =>
    cases hc
    rfl

/-- What follows an item or a field is no part of a number. -/
theorem ends_entries {α : Type} {style : Json.Style} {depth : ℕ} {write : α → List Char}
    {close : Char} (hclose : close ∈ Json.closing) (xs : List α) (r : List Char) :
    Ends (style.entries depth write close xs ++ r) := by
  have hends : ∀ c ∈ ['\n', ' ', ',', ']', Json.closeBrace],
      c.isDigit = false ∧ c ≠ '.' ∧ c ≠ 'e' ∧ c ≠ 'E' :=
    List.all_iff_forall_prop.mp (by decide)
  intro c hc
  cases xs with
  | nil =>
    rw [Json.Style.entries, List.append_assoc] at hc
    rcases Json.Style.eq_of_head?_newLine_append c hc with rfl | rfl | rfl
    · exact hends _ (by decide)
    · exact hends _ (by decide)
    · exact hends _ (List.mem_append_right ['\n', ' ', ','] hclose)
  | cons x xs =>
    cases hc
    exact hends _ (by decide)

/-! ### Reading -/

theorem digits_append (hcs : AreDigits cs) (hr : EndsNumber r) :
    Document.digits (cs ++ r) = (cs, r) := by
  have htake := Json.takeWhile_isDigit_append hcs.2 hr
  have hsplit := List.takeWhile_append_dropWhile (p := Char.isDigit) (l := cs ++ r)
  rw [htake] at hsplit
  rw [Document.digits, htake, List.append_cancel_left hsplit]

theorem readExponent_append {exponent : Option (Bool × List Char)}
    (h : ∀ e ∈ exponent, AreDigits e.2) (hr : Ends r) :
    Document.readExponent (exponentChars exponent ++ r) = some (exponent, r) := by
  cases exponent with
  | none =>
    cases r with
    | nil => rfl
    | cons c r =>
      obtain ⟨-, -, hlower, hupper⟩ := hr c rfl
      simp [exponentChars, Document.readExponent, hlower, hupper]
  | some e =>
    obtain ⟨down, digits⟩ := e
    have hdigits : AreDigits digits := h _ rfl
    have hread := digits_append hdigits hr.endsNumber
    have hne : digits.isEmpty = false := List.isEmpty_eq_false_iff.mpr hdigits.1
    cases down <;> simp [exponentChars, Document.readExponent, hread, hne]

theorem readFraction_append {fraction : Option (List Char)}
    (h : ∀ digits ∈ fraction, AreDigits digits) (hr : EndsNumber r) (hpoint : r.head? ≠ some '.') :
    Document.readFraction (fractionChars fraction ++ r) = some (fraction, r) := by
  cases fraction with
  | none =>
    rw [fractionChars, List.nil_append]
    unfold Document.readFraction
    split
    · exact absurd rfl hpoint
    · rfl
  | some digits =>
    have hdigits : AreDigits digits := h _ rfl
    have hread := digits_append hdigits hr
    have hne : digits.isEmpty = false := List.isEmpty_eq_false_iff.mpr hdigits.1
    simp [fractionChars, Document.readFraction, hread, hne]

/-- **What is written of a number is read back**, and what follows it is left. -/
theorem readNumber_append (h : number.IsWellFormed) (hr : Ends r) (negative : Bool) :
    Document.readNumber negative (number.chars ++ r) =
      some ({ number with negative := negative }, r) := by
  have hbehind := ends_exponentChars number.exponent hr
  have hexponent := readExponent_append h.exponent hr
  have hfraction := readFraction_append h.fraction (fun c hc => (hbehind c hc).1)
    fun hpoint => (hbehind _ hpoint).2 rfl
  have hwhole := digits_append h.whole
    (endsNumber_fractionChars number.fraction fun c hc => (hbehind c hc).1)
  have hstarts : ¬(number.whole.isEmpty = true ∨
      number.whole.head? = some '0' ∧ number.whole.length ≠ 1) := by
    rintro (hempty | ⟨hzero, hlength⟩)
    · exact h.whole.1 (List.isEmpty_iff.mp hempty)
    · exact hlength (h.whole_of_zero hzero)
  rw [chars, List.append_assoc, List.append_assoc, Document.readNumber, hwhole]
  dsimp only
  rw [if_neg hstarts, hfraction]
  dsimp only [bind, Option.bind]
  rw [hexponent]
  rfl

/-! ### What a number stands for -/

/-- The power of ten in an exponent. -/
def exponentValue : Option (Bool × List Char) → ℤ
  | none => 0
  | some (down, digits) => if down then -decimalOf digits else decimalOf digits

/-- The rational that a number stands for, without its sign. -/
def magnitude (number : NumberText) : ℚ :=
  decimalOf (number.whole ++ number.fraction.getD []) *
    10 ^ (exponentValue number.exponent - (number.fraction.getD []).length)

/-- A number that is written as `cs` and stands for `q`, its sign aside. -/
structure Stands (number : NumberText) (cs : List Char) (q : ℚ) : Prop where
  isWellFormed : number.IsWellFormed
  chars_eq : number.chars = cs
  magnitude_eq : number.magnitude = q

/-- Characters that are written of a number for some rational. -/
def Denotes (cs : List Char) (q : ℚ) : Prop := ∃ number : NumberText, number.Stands cs q

/-- **Characters denote one rational**, and it can be told where they end. -/
theorem Denotes.unique (hcs : Denotes cs q) (hds : Denotes ds p) (hr : Ends r) (hs : Ends s)
    (h : cs ++ r = ds ++ s) : q = p ∧ r = s := by
  obtain ⟨number, hnumber, rfl, rfl⟩ := hcs
  obtain ⟨number', hnumber', rfl, rfl⟩ := hds
  have hread := readNumber_append hnumber hr false
  rw [h, readNumber_append hnumber' hs false, Option.some.injEq, Prod.mk.injEq] at hread
  obtain ⟨hsame, rfl⟩ := hread
  refine ⟨?_, rfl⟩
  obtain ⟨negative, whole, fraction, exponent⟩ := number
  obtain ⟨negative', whole', fraction', exponent'⟩ := number'
  cases hsame
  rfl

/-- They start with a digit, neither with a sign nor with a letter. -/
theorem Denotes.append_ne_cons {c : Char} (h : Denotes cs q) (hc : c.isDigit = false) :
    cs ++ r ≠ c :: s := by
  obtain ⟨number, hnumber, rfl, -⟩ := h
  obtain ⟨d, rest, hwhole⟩ := List.exists_cons_of_ne_nil hnumber.whole.1
  have hd : d.isDigit = true := hnumber.whole.2 d (hwhole ▸ List.mem_cons_self)
  intro heq
  rw [chars, hwhole, List.cons_append, List.cons_append] at heq
  rw [(List.cons.inj heq).1, hc] at hd
  cases hd

end NumberText
end JobSandbox
