import JobSandbox.Proofs.Json.Number
import JobSandbox.Proofs.Single.Interval

/-!
# The text of a number belongs to no other

A decimal is written in positional or in scientific notation.  Either is a number that JSON has, and
stands for the decimal: zeros that are put behind or in front of the digits, the place of the point
and the exponent make up for each other.  The decimal of a number is in the interval of no other
number, so no other number has that text.

In JSON the numbers that are not finite have no text of their own.  They are the only ones whose
texts say less than the numbers do.

## Main definitions

* `DecimalStyle.number`, `Single.number` — the parts of the text of a decimal, and of a number.

## Main results

* `DecimalStyle.stands_number` — the text of a decimal stands for it.
* `Single.toList_render` — the text of a number is that of its parts.
* `Single.render_append_inj` — **the text of a number belongs to no other.**
* `Json.singleChars_append_inj` — in JSON this is so for finite numbers.
-/

namespace JobSandbox

open NumberText (Denotes Ends)

/-! ### Decimals -/

/-- Digits with a point among them. -/
def NumberText.withPoint (whole fraction : List Char) : NumberText :=
  ⟨false, whole, some fraction, none⟩

theorem NumberText.stands_withPoint {whole fraction : List Char} (hwhole : AreDigits whole)
    (hzero : whole.head? = some '0' → whole.length = 1) (hfraction : AreDigits fraction) :
    (withPoint whole fraction).Stands (whole ++ '.' :: fraction)
      (decimalOf (whole ++ fraction) * 10 ^ (-(fraction.length : ℤ))) where
  isWellFormed := by
    refine ⟨hwhole, hzero, ?_, ?_⟩
    · rintro digits ⟨⟩
      exact hfraction
    · rintro e ⟨⟩
  chars_eq := by rw [withPoint, chars, fractionChars, exponentChars, List.append_nil]
  magnitude_eq := by rw [withPoint, magnitude, exponentValue, Option.getD_some, zero_sub]

namespace DecimalStyle

variable {n : ℕ} {exponent : ℤ}

/-- The digits behind the first one, if there are any. -/
def digitsAfterFirst : List Char → Option (List Char)
  | [] | [_] => none
  | _ :: digits => some digits

/-- The number in scientific notation, with the point behind the first digit. -/
def scientificNumber (digits : List Char) (e : ℤ) : NumberText :=
  ⟨false, digits.take 1, digitsAfterFirst digits,
    some (decide (e < 0), Nat.toDigits 10 e.natAbs)⟩

/-- The point behind the first digit is worth the number of digits that follow. -/
theorem stands_scientificNumber {c : Char} {cs : List Char} (hc : c.isDigit = true)
    (hcs : ∀ d ∈ cs, d.isDigit = true) (e : ℤ) :
    (scientificNumber (c :: cs) e).Stands (pointAfterFirst (c :: cs) ++ 'e' :: exponentText e)
      (NumberText.decimalOf (c :: cs) * 10 ^ (e - cs.length)) where
  isWellFormed := by
    refine ⟨areDigits_singleton hc, fun _ => rfl, ?_, ?_⟩
    · intro digits hdigits
      cases cs with
      | nil => cases hdigits
      | cons d ds =>
        cases hdigits
        exact ⟨List.cons_ne_nil d ds, hcs⟩
    · rintro _ ⟨⟩
      exact areDigits_toDigits _
  chars_eq := by
    have hexponent : exponentText e =
        (if decide (e < 0) = true then '-' else '+') :: Nat.toDigits 10 e.natAbs := by
      simp only [exponentText, decide_eq_true_eq]
    rw [NumberText.chars, hexponent]
    cases cs <;> rfl
  magnitude_eq := by
    have hvalue :
        NumberText.exponentValue (some (decide (e < 0), Nat.toDigits 10 e.natAbs)) = e := by
      rw [NumberText.exponentValue, NumberText.decimalOf_toDigits]
      simp only [decide_eq_true_eq]
      split <;> omega
    rw [NumberText.magnitude]
    dsimp only [scientificNumber]
    rw [hvalue]
    cases cs <;> rfl

/-- Digits with zeros in front of them, of which more are there than places behind the point. -/
def padded (places : ℕ) (digits : List Char) : List Char :=
  List.replicate (places + 1 - digits.length) '0' ++ digits

/-- The number in positional notation. -/
def positionalNumber (digits : List Char) (exponent : ℤ) : NumberText :=
  if 0 ≤ exponent then .withPoint (digits ++ List.replicate exponent.toNat '0') ['0']
  else
    let places := (-exponent).toNat
    let digits := padded places digits
    .withPoint (digits.take (digits.length - places)) (digits.drop (digits.length - places))

/-- Zeros behind the digits are worth the exponent. -/
theorem stands_positionalNumber_of_nonneg (hn : n ≠ 0) (h : 0 ≤ exponent) :
    (positionalNumber (Nat.toDigits 10 n) exponent).Stands
      (positional (Nat.toDigits 10 n) exponent) (n * 10 ^ exponent) := by
  obtain ⟨k, rfl⟩ := Int.eq_ofNat_of_zero_le h
  have hdigits := areDigits_toDigits n
  have hwhole : AreDigits (Nat.toDigits 10 n ++ List.replicate k '0') :=
    ⟨List.append_ne_nil_of_left_ne_nil hdigits.1 _,
      List.forall_mem_append.mpr ⟨hdigits.2, isDigit_of_mem_zeros k⟩⟩
  have hhead (hzero : (Nat.toDigits 10 n ++ List.replicate k '0').head? = some '0') : False := by
    rw [List.head?_append_of_ne_nil _ hdigits.1] at hzero
    exact head?_toDigits_ne hn hzero
  have hfraction : AreDigits ['0'] := areDigits_singleton rfl
  have hvalue : NumberText.decimalOf (Nat.toDigits 10 n ++ List.replicate k '0' ++ ['0']) =
      n * 10 ^ (k + 1) := by
    rw [List.append_assoc, ← List.replicate_one, List.replicate_append_replicate,
      NumberText.decimalOf_append_replicate, NumberText.decimalOf_toDigits]
  have hmeasure : ((n * 10 ^ (k + 1) : ℕ) : ℚ) * 10 ^ (-(1 : ℕ) : ℤ) = n * 10 ^ (k : ℤ) := by
    rw [pow_succ, zpow_natCast]
    push_cast
    norm_num [mul_assoc]
  have hstands :=
    NumberText.stands_withPoint hwhole (fun hzero => (hhead hzero).elim) hfraction
  rw [hvalue, List.length_singleton, hmeasure] at hstands
  rw [positional, positionalNumber, if_pos h, if_pos h, Int.toNat_natCast]
  exact hstands

theorem length_padded (places : ℕ) (digits : List Char) :
    (padded places digits).length = max (places + 1) digits.length := by
  rw [padded, List.length_append, List.length_replicate]
  omega

/-- There are zeros in front only if all digits are behind the point. -/
theorem length_padded_of_zero (hn : n ≠ 0) {places : ℕ}
    (h : (padded places (Nat.toDigits 10 n)).head? = some '0') :
    (padded places (Nat.toDigits 10 n)).length = places + 1 := by
  rw [length_padded]
  by_contra hlong
  have hnone : places + 1 - (Nat.toDigits 10 n).length = 0 := by omega
  rw [padded, hnone, List.replicate_zero, List.nil_append] at h
  exact head?_toDigits_ne hn h

/-- Places behind the point are worth the exponent. -/
theorem stands_positionalNumber_of_neg (hn : n ≠ 0) (h : exponent < 0) :
    (positionalNumber (Nat.toDigits 10 n) exponent).Stands
      (positional (Nat.toDigits 10 n) exponent) (n * 10 ^ exponent) := by
  obtain ⟨places, rfl⟩ : ∃ places : ℕ, exponent = -(places : ℤ) := ⟨(-exponent).toNat, by omega⟩
  have hlength := length_padded places (Nat.toDigits 10 n)
  have hall : ∀ c ∈ padded places (Nat.toDigits 10 n), c.isDigit = true :=
    List.forall_mem_append.mpr ⟨isDigit_of_mem_zeros _, (areDigits_toDigits n).2⟩
  have hvalue : NumberText.decimalOf (padded places (Nat.toDigits 10 n)) = n := by
    rw [padded, NumberText.decimalOf_replicate_append, NumberText.decimalOf_toDigits]
  have hzero (h : (padded places (Nat.toDigits 10 n)).head? = some '0') :=
    length_padded_of_zero hn h
  have hpositional : positional (Nat.toDigits 10 n) (-(places : ℤ)) =
      let digits := padded places (Nat.toDigits 10 n)
      digits.take (digits.length - places) ++ '.' :: digits.drop (digits.length - places) := by
    rw [positional, if_neg (not_le.mpr h), neg_neg, Int.toNat_natCast]
    rfl
  rw [hpositional, positionalNumber, if_neg (not_le.mpr h), neg_neg, Int.toNat_natCast]
  dsimp only
  generalize padded places (Nat.toDigits 10 n) = digits at *
  have hbehind : (digits.drop (digits.length - places)).length = places := by
    rw [List.length_drop]
    omega
  have hfront : (digits.take (digits.length - places)).length = digits.length - places := by
    rw [List.length_take]
    omega
  have hwhole : AreDigits (digits.take (digits.length - places)) :=
    ⟨List.ne_nil_of_length_pos (by omega), fun c hc => hall c (List.mem_of_mem_take hc)⟩
  have hfraction : AreDigits (digits.drop (digits.length - places)) :=
    ⟨List.ne_nil_of_length_pos (by omega), fun c hc => hall c (List.mem_of_mem_drop hc)⟩
  have hstands := NumberText.stands_withPoint hwhole (fun hhead => ?_) hfraction
  · rwa [List.take_append_drop, hvalue, hbehind] at hstands
  · rw [List.head?_take, if_neg (by omega)] at hhead
    rw [hfront, hzero hhead]
    omega

/-- The number that a decimal is written as. -/
def number (style : DecimalStyle) (decimal : Single.Decimal) : NumberText :=
  let digits := Nat.toDigits 10 decimal.digits
  let e : ℤ := decimal.exponent + digits.length - 1
  if style.least ≤ e ∧ e ≤ style.greatest then positionalNumber digits decimal.exponent
  else scientificNumber digits e

/-- **The text of a decimal stands for it**, in either notation. -/
theorem stands_number (style : DecimalStyle) {decimal : Single.Decimal}
    (h : decimal.digits ≠ 0) :
    (style.number decimal).Stands (style.render decimal) decimal.toRat := by
  rw [render, number]
  split
  · rcases le_or_gt 0 decimal.exponent with hle | hlt
    · exact stands_positionalNumber_of_nonneg h hle
    · exact stands_positionalNumber_of_neg h hlt
  · have hdigits := areDigits_toDigits decimal.digits
    obtain ⟨c, cs, hcons⟩ := List.exists_cons_of_ne_nil hdigits.1
    have hstands := stands_scientificNumber (hdigits.2 c (hcons ▸ List.mem_cons_self))
      (fun d hd => hdigits.2 d (hcons ▸ List.mem_cons_of_mem c hd))
      (decimal.exponent + (Nat.toDigits 10 decimal.digits).length - 1)
    rw [← hcons, NumberText.decimalOf_toDigits] at hstands
    have hpower : decimal.exponent + (Nat.toDigits 10 decimal.digits).length - 1 - cs.length =
        decimal.exponent := by
      rw [hcons, List.length_cons]
      omega
    rwa [hpower] at hstands

end DecimalStyle

/-! ### Numbers -/

namespace Single

variable {x y : Single} {r s : List Char}

/-- The number that a finite number is written as. -/
def number (style : DecimalStyle) (x : Single) : NumberText :=
  { (if x.significand = 0 then NumberText.withPoint ['0'] ['0'] else style.number x.shortest) with
    negative := x.isNegative }

/-- The characters behind the sign, and the rational in the interval of the number. -/
theorem exists_stands_number (style : DecimalStyle) (x : Single) :
    ∃ cs q, (x.number style).Stands cs q ∧ x.interval.Contains (q * one) ∧
      (x.render style).toList = if x.isNegative then '-' :: cs else cs := by
  have hsigned {number : NumberText} {cs : List Char} {q : ℚ} (h : number.Stands cs q) :
      ({ number with negative := x.isNegative } : NumberText).Stands cs q :=
    ⟨h.isWellFormed.withSign _, h.chars_eq, h.magnitude_eq⟩
  rw [render, String.toList_ofList]
  refine ⟨_, if x.significand = 0 then 0 else x.shortest.toRat, ?_, ?_, rfl⟩
  · rw [number]
    split
    · have hdigit : AreDigits ['0'] := areDigits_singleton rfl
      have hzero := NumberText.stands_withPoint hdigit (fun _ => rfl) hdigit
      have hvalue : NumberText.decimalOf (['0'] ++ ['0']) = 0 := rfl
      rw [hvalue, Nat.cast_zero, zero_mul] at hzero
      exact hsigned hzero
    · next hne =>
      refine hsigned (style.stands_number fun hdigits => ?_)
      have hpos := (contains_shortest hne).pos hne
      rw [Decimal.toRat, hdigits, Nat.cast_zero, zero_mul, zero_mul] at hpos
      exact lt_irrefl 0 hpos
  · split
    · next hzero =>
      rw [zero_mul]
      exact contains_zero hzero
    · next hne => exact contains_shortest hne

theorem isWellFormed_number (style : DecimalStyle) (x : Single) :
    (x.number style).IsWellFormed := by
  obtain ⟨cs, q, hstands, -⟩ := exists_stands_number style x
  exact hstands.isWellFormed

/-- The text of a number is its number with the sign. -/
theorem toList_render (style : DecimalStyle) (x : Single) :
    (x.render style).toList = (x.number style).signed := by
  obtain ⟨cs, q, hstands, -, htext⟩ := exists_stands_number style x
  rw [htext, ← hstands.chars_eq]
  rfl

/-- **The text of a number belongs to no other**, and it can be told where it ends. -/
theorem render_append_inj {style : DecimalStyle} (hr : Ends r) (hs : Ends s)
    (h : (x.render style).toList ++ r = (y.render style).toList ++ s) : x = y ∧ r = s := by
  obtain ⟨cs, q, hcs, hq, hx⟩ := exists_stands_number style x
  obtain ⟨ds, p, hds, hp, hy⟩ := exists_stands_number style y
  have hcs : Denotes cs q := ⟨_, hcs⟩
  have hds : Denotes ds p := ⟨_, hds⟩
  have hsame (hsign : x.isNegative = y.isNegative) (h : cs ++ r = ds ++ s) : x = y ∧ r = s := by
    obtain ⟨rfl, hrest⟩ := hcs.unique hds hr hs h
    exact ⟨eq_of_contains hsign hq hp, hrest⟩
  rw [hx, hy] at h
  cases hnegative : x.isNegative <;> cases hnegative' : y.isNegative <;>
    simp only [hnegative, hnegative', if_true, if_false, Bool.false_eq_true] at h
  · exact hsame (hnegative.trans hnegative'.symm) h
  · exact absurd h (hcs.append_ne_cons rfl)
  · exact absurd h.symm (hds.append_ne_cons rfl)
  · exact hsame (hnegative.trans hnegative'.symm) (List.cons.inj h).2

end Single

/-! ### Numbers in JSON -/

namespace Json

variable {x y : Single} {r s : List Char}

/-- The text of a finite number is not the word that stands for all others. -/
theorem render_append_ne_null {style : DecimalStyle} :
    (x.render style).toList ++ r ≠ "null".toList ++ s := by
  obtain ⟨cs, q, hcs, -, hx⟩ := Single.exists_stands_number style x
  have hcs : Denotes cs q := ⟨_, hcs⟩
  rw [hx]
  split
  · intro h
    cases (List.cons.inj h).1
  · exact hcs.append_ne_cons rfl

/-- **In JSON a finite number can be told from its text**, and all others look the same. -/
theorem singleChars_append_inj (hr : Ends r) (hs : Ends s)
    (h : singleChars x ++ r = singleChars y ++ s) :
    (x = y ∨ x.isFinite = false ∧ y.isFinite = false) ∧ r = s := by
  unfold singleChars at h
  split at h <;> split at h
  · obtain ⟨rfl, hrest⟩ := Single.render_append_inj hr hs h
    exact ⟨.inl rfl, hrest⟩
  · exact absurd h render_append_ne_null
  · exact absurd h.symm render_append_ne_null
  · next hx hy =>
    exact ⟨.inr ⟨Bool.eq_false_iff.mpr hx, Bool.eq_false_iff.mpr hy⟩, List.append_cancel_left h⟩

end Json
end JobSandbox
