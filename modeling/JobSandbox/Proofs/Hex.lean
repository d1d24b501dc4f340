import JobSandbox.Proofs.Blank
import JobSandbox.Proofs.Utf8.Encoding
import JobSandbox.Text.Hex
import Mathlib.Data.List.Induction

/-!
# Hexadecimal text, read and written

What is read as bytes is a language that can be told without the reader: an even number of digits of
either case, with at most one marker in front, and white space around both.  The bytes that are read
are those whose own text has the same digits in lower case.  So what is written is read again, and
what is read is written again, its case aside.

The reader looks at bytes and not at characters.  A character outside ASCII is refused all the same,
since all of its bytes are, and a text of digits has as many bytes as characters.

## Main definitions

* `Hex.digitChars` — the digits.
* `Hex.Shows` — a text and the digits it shows.

## Main results

* `Hex.digitsOf_eq_iff_shows` — the digits of a text are those it shows.
* `Hex.parse_eq_ok_iff` — **which texts are read, and as which bytes.**
* `Hex.parse_ofBytes` — **what is written is read again.**
-/

namespace JobSandbox
namespace Hex

/-! ### Digits -/

/-- The digits of either case. -/
def digitChars : List Char := "0123456789abcdefABCDEF".toList

theorem isBlank_of_mem_digitChars : ∀ c ∈ digitChars, isBlank c = false :=
  List.all_iff_forall_prop.mp (by decide)

/-- A digit is a single byte, and has a value, which it keeps in lower case. -/
theorem digitValue_of_mem_digitChars : ∀ c ∈ digitChars,
    String.utf8EncodeChar c = [UInt8.ofNat c.toNat] ∧
      ∃ d < 16, digitValue (UInt8.ofNat c.toNat) = .ok d ∧ digitChar d = c.toLower :=
  List.all_iff_forall_prop.mp (by decide)

/-- A byte with a value is that of a digit. -/
theorem mem_digitChars_of_digitValue {b : UInt8} {d : ℕ} (h : digitValue b = .ok d) :
    b.toNat ≤ 0x7f ∧ Char.ofNat b.toNat ∈ digitChars := by
  have hdigits : ∀ n < 0x80, (digitValue (UInt8.ofNat n)).toBool → Char.ofNat n ∈ digitChars := by
    decide
  have hascii : b.toNat ≤ 0x7f := by
    unfold digitValue valueOfCode? at h
    grind
  refine ⟨hascii, hdigits b.toNat (Nat.lt_succ_of_le hascii) ?_⟩
  rw [UInt8.ofNat_toNat, h]
  rfl

/-- A character all of whose bytes have values is a digit. -/
theorem mem_digitChars_of_bytes {c : Char}
    (h : ∀ b ∈ String.utf8EncodeChar c, ∃ d, digitValue b = .ok d) : c ∈ digitChars := by
  obtain ⟨b, rest, hbytes⟩ := List.exists_cons_of_ne_nil (String.utf8EncodeChar_ne_nil (c := c))
  obtain ⟨d, hd⟩ := h b (hbytes ▸ List.mem_cons_self)
  obtain ⟨hascii, hmem⟩ := mem_digitChars_of_digitValue hd
  have hlead := Utf8.lead_eq_whole_iff.mpr ⟨hascii, rfl⟩
  rcases Utf8.utf8EncodeChar_eq_cons_iff.mp hbytes with ⟨hwhole, -⟩ | ⟨p, hmore, -⟩
  · cases hlead.symm.trans hwhole
    exact hmem
  · cases hlead.symm.trans hmore

/-! ### Pairs of digits -/

theorem length_chars (bytes : Bytes) : (chars bytes).length = 2 * bytes.length := by
  induction bytes with
  | nil => rfl
  | cons b bytes ih =>
    rw [chars_cons, List.length_append, ih, List.length_cons, pair, List.length_cons,
      List.length_singleton]
    omega

theorem mem_digitChars_of_mem_chars {bytes : Bytes} {c : Char} (h : c ∈ chars bytes) :
    c ∈ digitChars ∧ c.toLower = c := by
  have hdigit : ∀ d < 16, digitChar d ∈ digitChars ∧ (digitChar d).toLower = digitChar d := by
    decide
  obtain ⟨b, -, hc⟩ := List.mem_flatMap.mp h
  rw [pair, List.mem_pair] at hc
  rcases hc with rfl | rfl
  · exact hdigit _ (Nat.div_lt_of_lt_mul b.toNat_lt)
  · exact hdigit _ (Nat.mod_lt _ (by decide))

/-- The digits of a byte are those of its two halves. -/
theorem pair_ofNat {high low : ℕ} (hhigh : high < 16) (hlow : low < 16) :
    pair (UInt8.ofNat (16 * high + low)) = [digitChar high, digitChar low] := by
  have hvalue : (UInt8.ofNat (16 * high + low)).toNat = 16 * high + low :=
    UInt8.toNat_ofNat_of_lt' (Nat.lt_of_lt_of_le (show 16 * high + low < 256 by omega) (by decide))
  rw [pair, hvalue, Nat.mul_add_div (by decide), Nat.div_eq_of_lt hlow, Nat.add_zero,
    Nat.mul_add_mod, Nat.mod_eq_of_lt hlow]

/-- Two bytes with the same digits are the same. -/
theorem pair_injective : Function.Injective pair := by
  intro b b' h
  have hinj : ∀ d < 16, ∀ e < 16, digitChar d = digitChar e → d = e := by decide
  rw [pair, pair, List.cons.injEq, List.singleton_inj] at h
  have hlt := b.toNat_lt
  have hlt' := b'.toNat_lt
  have hhigh := hinj _ (by omega) _ (by omega) h.1
  have hlow := hinj _ (by omega) _ (by omega) h.2
  exact UInt8.toNat_inj.mp (by omega)

/-- Two byte strings with the same digits are the same. -/
theorem chars_injective : Function.Injective chars := by
  intro bytes
  induction bytes with
  | nil =>
    intro bytes' h
    have hlength := congrArg List.length h
    rw [length_chars, length_chars, List.length_nil] at hlength
    exact (List.length_eq_zero_iff.mp (by omega)).symm
  | cons b bytes ih =>
    intro bytes' h
    cases bytes' with
    | nil => cases h
    | cons b' bytes' =>
      obtain ⟨hpair, hrest⟩ := List.append_inj h rfl
      rw [pair_injective hpair, ih hrest]

/-- Digits in pairs are read as the bytes that have them, in lower case. -/
theorem parsePairs_of_digits {digits : List Char} (h : ∀ c ∈ digits, c ∈ digitChars)
    (heven : 2 ∣ digits.length) (done : Bytes) :
    ∃ bytes, parsePairs done (Bytes.ofChars digits) = .ok (done.reverse ++ bytes) ∧
      chars bytes = digits.map Char.toLower := by
  induction digits using List.twoStepInduction generalizing done with
  | nil => exact ⟨[], by rw [List.append_nil]; rfl, rfl⟩
  | singleton c => exact absurd heven (show ¬2 ∣ 1 by decide)
  | cons_cons high low digits ih _ =>
    rw [List.forall_mem_cons, List.forall_mem_cons] at h
    obtain ⟨hhigh, hlow, hdigits⟩ := h
    obtain ⟨hhighByte, d, hd, hdValue, hdLower⟩ := digitValue_of_mem_digitChars high hhigh
    obtain ⟨hlowByte, e, he, heValue, heLower⟩ := digitValue_of_mem_digitChars low hlow
    obtain ⟨bytes, hbytes, hchars⟩ :=
      ih hdigits ((Nat.dvd_add_left (Nat.dvd_refl 2)).mp heven) (UInt8.ofNat (16 * d + e) :: done)
    refine ⟨UInt8.ofNat (16 * d + e) :: bytes, ?_, ?_⟩
    · rw [Bytes.ofChars_cons, Bytes.ofChars_cons, hhighByte, hlowByte, List.singleton_append,
        List.singleton_append, parsePairs, hdValue, heValue]
      rw [List.reverse_cons, List.append_assoc, List.singleton_append] at hbytes
      exact hbytes
    · rw [chars_cons, pair_ofNat hd he, hdLower, heLower, hchars]
      rfl

/-- Pairs of bytes that are read have values, all of them. -/
theorem digitValue_of_parsePairs {done bytes result : Bytes}
    (h : parsePairs done bytes = .ok result) (heven : 2 ∣ bytes.length) :
    ∀ b ∈ bytes, ∃ d, digitValue b = .ok d := by
  induction bytes using List.twoStepInduction generalizing done with
  | nil => exact fun b hb => absurd hb List.not_mem_nil
  | singleton c => exact absurd heven (show ¬2 ∣ 1 by decide)
  | cons_cons high low bytes ih _ =>
    rw [parsePairs] at h
    cases hhigh : digitValue high with
    | error error => rw [hhigh] at h; cases h
    | ok d =>
      cases hlow : digitValue low with
      | error error => rw [hhigh, hlow] at h; cases h
      | ok e =>
        rw [hhigh, hlow] at h
        rw [List.forall_mem_cons, List.forall_mem_cons]
        exact ⟨⟨d, hhigh⟩, ⟨e, hlow⟩, ih h ((Nat.dvd_add_left (Nat.dvd_refl 2)).mp heven)⟩

/-! ### Texts -/

/-- A text shows digits: it has nothing else but at most one marker in front of them, and white
space around both. -/
def Shows (text : String) (digits : List Char) : Prop :=
  (∀ c ∈ digits, c ∈ digitChars) ∧
    (Padded digits text.toList ∨ Padded ('0' :: 'x' :: digits) text.toList)

theorem isBare_of_digits {digits : List Char} (h : ∀ c ∈ digits, c ∈ digitChars) : IsBare digits :=
  isBare_of_forall fun c hc => isBlank_of_mem_digitChars c (h c hc)

/-- Digits have as many bytes as there are. -/
theorem length_ofChars_of_digits {digits : List Char} (h : ∀ c ∈ digits, c ∈ digitChars) :
    (Bytes.ofChars digits).length = digits.length := by
  induction digits with
  | nil => rfl
  | cons c digits ih =>
    rw [List.forall_mem_cons] at h
    rw [Bytes.ofChars_cons, List.length_append, ih h.2, (digitValue_of_mem_digitChars c h.1).1,
      List.length_singleton, List.length_cons, Nat.add_comm]

/-- **The digits of a text are those that it shows.** -/
theorem digitsOf_eq_iff_shows {text : String} {digits : List Char}
    (h : ∀ c ∈ digits, c ∈ digitChars) : digitsOf text = digits ↔ Shows text digits := by
  constructor
  · intro hdigits
    refine ⟨h, ?_⟩
    have hpadded := padded_trimChars text.toList
    unfold digitsOf at hdigits
    split at hdigits
    · next rest htrim =>
      rw [htrim, hdigits] at hpadded
      exact .inr hpadded
    · rw [hdigits] at hpadded
      exact .inl hpadded
  · rintro ⟨-, hpadded | hpadded⟩
    · have hx : 'x' ∉ digits := fun hmem => absurd (h 'x' hmem) (by decide)
      rw [digitsOf, hpadded.trimChars_eq (isBare_of_digits h)]
      split
      · next rest => exact absurd (List.mem_cons_of_mem _ List.mem_cons_self) hx
      · rfl
    · have hbare : IsBare ('0' :: 'x' :: digits) := by
        refine isBare_of_forall ?_
        rw [List.forall_mem_cons, List.forall_mem_cons]
        exact ⟨by decide, by decide, fun c hc => isBlank_of_mem_digitChars c (h c hc)⟩
      rw [digitsOf, hpadded.trimChars_eq hbare]
      rfl

/-- A text shows one string of digits at most. -/
theorem Shows.unique {text : String} {digits digits' : List Char} (h : Shows text digits)
    (h' : Shows text digits') : digits = digits' :=
  ((digitsOf_eq_iff_shows h.1).mpr h).symm.trans ((digitsOf_eq_iff_shows h'.1).mpr h')

/-- **Texts that show an even number of digits are read, and no others**; and they are read as the
bytes whose own text is these digits in lower case. -/
theorem parse_eq_ok_iff {text : String} {bytes : Bytes} :
    parse text = .ok bytes ↔
      ∃ digits, Shows text digits ∧ 2 ∣ digits.length ∧
        chars bytes = digits.map Char.toLower := by
  constructor
  · intro h
    unfold parse at h
    dsimp only at h
    split at h
    · next heven =>
      have hdvd := Nat.dvd_of_mod_eq_zero heven
      have hbytes := digitValue_of_parsePairs h hdvd
      have hdigits : ∀ c ∈ digitsOf text, c ∈ digitChars := fun c hc =>
        mem_digitChars_of_bytes fun b hb => hbytes b (List.mem_flatMap.mpr ⟨c, hc, hb⟩)
      rw [length_ofChars_of_digits hdigits] at hdvd
      obtain ⟨bytes', hparse, hchars⟩ := parsePairs_of_digits hdigits hdvd []
      cases hparse.symm.trans h
      exact ⟨digitsOf text, (digitsOf_eq_iff_shows hdigits).mp rfl, hdvd, hchars⟩
    · cases h
  · rintro ⟨digits, hshows, heven, hchars⟩
    obtain ⟨bytes', hparse, hchars'⟩ := parsePairs_of_digits hshows.1 heven []
    cases chars_injective (hchars'.trans hchars.symm)
    rw [parse, (digitsOf_eq_iff_shows hshows.1).mpr hshows, length_ofChars_of_digits hshows.1,
      if_pos (Nat.mod_eq_zero_of_dvd heven), hparse]
    rfl

/-- A text that shows an even number of digits is read. -/
theorem exists_parse_of_shows {text : String} {digits : List Char} (h : Shows text digits)
    (heven : 2 ∣ digits.length) : ∃ bytes, parse text = .ok bytes := by
  obtain ⟨bytes, -, hchars⟩ := parsePairs_of_digits h.1 heven []
  exact ⟨bytes, parse_eq_ok_iff.mpr ⟨digits, h, heven, hchars⟩⟩

/-- The bytes that are read of a text have the digits that it shows, in lower case. -/
theorem chars_of_parse {text : String} {bytes : Bytes} {digits : List Char}
    (h : parse text = .ok bytes) (hshows : Shows text digits) :
    chars bytes = digits.map Char.toLower := by
  obtain ⟨digits', hshows', -, hchars⟩ := parse_eq_ok_iff.mp h
  rw [hchars, hshows.unique hshows']

/-- A text shows two digits for each byte that is read of it. -/
theorem length_of_parse {text : String} {bytes : Bytes} {digits : List Char}
    (h : parse text = .ok bytes) (hshows : Shows text digits) :
    2 * bytes.length = digits.length := by
  rw [← length_chars, chars_of_parse h hshows, List.length_map]

/-- Digits between white space are shown. -/
theorem shows_of_padded_chars {text : String} {bytes : Bytes}
    (h : Padded (chars bytes) text.toList) : Shows text (chars bytes) :=
  ⟨fun _ hc => (mem_digitChars_of_mem_chars hc).1, .inl h⟩

/-- What is written is read again, also with white space around it. -/
theorem parse_of_padded_chars {text : String} {bytes : Bytes}
    (h : Padded (chars bytes) text.toList) : parse text = .ok bytes := by
  refine parse_eq_ok_iff.mpr ⟨chars bytes, shows_of_padded_chars h, ?_, ?_⟩
  · exact ⟨bytes.length, length_chars bytes⟩
  · conv_lhs => rw [← List.map_id (chars bytes)]
    exact List.map_congr_left fun c hc => (mem_digitChars_of_mem_chars hc).2.symm

/-- **What is written is read again.** -/
theorem parse_ofBytes (bytes : Bytes) : parse (ofBytes bytes) = .ok bytes := by
  refine parse_of_padded_chars ?_
  rw [ofBytes, String.toList_ofList]
  exact padded_self (chars bytes)

end Hex
end JobSandbox
