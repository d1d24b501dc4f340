import JobSandbox.Proofs.Json.Number
import JobSandbox.Proofs.Single.Text
import Mathlib.Tactic.IntervalCases

/-!
# What is written as JSON is read again

The text of a value, in one line or indented, is read as one document: strings lose their escapes,
numbers are taken apart at the point and the exponent, and items and fields come in their order.
What follows the text is left over, unless it makes a number longer.

A reader goes down into a text with fuel for twice its length.  Each character that opens or
separates something pays for the call that reads what is behind it.

## Main definitions

* `NumberText.ofInt` — an integer as a number that is written.
* `Json.document` — the document of a value.
* `Document.ReadsAs` — a text that is read as a document.

## Main results

* `Document.readString_chars`, `Document.readValue_signed` — strings and numbers are read again.
* `Json.readsAs_write` — **a value that is written is read as its document.**
* `Json.ofChars_text`, `Json.ofChars_prettyText` — whole texts, in one line and indented.
-/

namespace JobSandbox

open NumberText (Ends ends_entries)

/-! ### Strings -/

namespace Document

/-- A character that is escaped, or needs no escape, is read as itself. -/
theorem readString_escapeChar (found : List Char) (c : Char) (r : List Char) :
    readString { found } (Json.escapeChar c ++ r) = readString { found := c :: found } r := by
  by_cases hcontrol : c.toNat < 0x20
  · have htable : ∀ n < 0x20, readString { found } (Json.escapeChar (Char.ofNat n) ++ r) =
        readString { found := Char.ofNat n :: found } r := by
      intro n hn
      interval_cases n <;> rfl
    have hread := htable c.toNat hcontrol
    rwa [Char.ofNat_toNat] at hread
  · unfold Json.escapeChar
    split
    · next hquote =>
      subst hquote
      rfl
    split
    · next hslash =>
      subst hslash
      rfl
    rw [if_pos (Nat.le_of_not_lt hcontrol), List.singleton_append, readString.eq_def]
    split <;> grind [Literal.char]

/-- A string is read up to the quote at its end. -/
theorem readString_flatMap (found cs r : List Char) :
    readString { found } (cs.flatMap Json.escapeChar ++ '"' :: r) =
      some (some (String.ofList (found.reverse ++ cs)), r) := by
  induction cs generalizing found with
  | nil =>
    rw [List.flatMap_nil, List.nil_append, List.append_nil]
    rfl
  | cons c cs ih =>
    rw [List.flatMap_cons, List.append_assoc, readString_escapeChar, ih, List.reverse_cons,
      List.append_assoc, List.singleton_append]

/-- What follows the quote in front of a string is read as the string. -/
theorem readString_tail (s : String) (r : List Char) :
    readString {} (s.toList.flatMap Json.escapeChar ++ '"' :: r) = some (some s, r) := by
  have hread := readString_flatMap [] s.toList r
  rwa [List.reverse_nil, List.nil_append, String.ofList_toList] at hread

end Document

/-! ### Numbers -/

namespace NumberText

/-- An integer as a number that is written. -/
def ofInt (i : ℤ) : NumberText := ⟨decide (i < 0), Nat.toDigits 10 i.natAbs, none, none⟩

theorem isWellFormed_ofInt (i : ℤ) : (ofInt i).IsWellFormed where
  whole := areDigits_toDigits i.natAbs
  whole_of_zero hzero := by
    have hi : i.natAbs = 0 := by
      by_contra hne
      exact head?_toDigits_ne hne hzero
    rw [ofInt, hi]
    rfl
  fraction digits hdigits := by cases hdigits
  exponent e he := by cases he

theorem signed_ofInt (i : ℤ) : (ofInt i).signed = Json.intChars i := by
  simp [signed, chars, ofInt, fractionChars, exponentChars, Json.intChars]

end NumberText

/-! ### Texts that are read -/

namespace Document

variable {cs gap r : List Char} {document : Document}

/-- White space in front of a text is skipped. -/
theorem skipGap_append (hgap : ∀ c ∈ gap, isGap c = true) (cs : List Char) :
    skipGap (gap ++ cs) = skipGap cs :=
  List.dropWhile_append_of_pos hgap

theorem readValue_append (hgap : ∀ c ∈ gap, isGap c = true) (fuel : ℕ) (cs : List Char) :
    readValue fuel (gap ++ cs) = readValue fuel cs := by
  cases fuel with
  | zero => rw [readValue, readValue]
  | succ fuel => rw [readValue, readValue, skipGap_append hgap]

/-- A text that is read as a document, and can be told from the end of an array. -/
structure ReadsAs (cs : List Char) (document : Document) : Prop where
  exists_cons : ∃ c rest, cs = c :: rest ∧ isGap c = false ∧ c ≠ ']'
  /-- It is read with fuel for twice its length, if it can be told where it ends. -/
  readValue_eq : ∀ fuel r, 2 * cs.length < fuel → Ends r →
    readValue fuel (cs ++ r) = (document, some r)

/-- A text that takes no deeper reading. -/
theorem readsAs_of_succ (hcons : ∃ c rest, cs = c :: rest ∧ isGap c = false ∧ c ≠ ']')
    (h : ∀ fuel r, Ends r → readValue (fuel + 1) (cs ++ r) = (document, some r)) :
    ReadsAs cs document := by
  refine ⟨hcons, fun fuel r hfuel hr => ?_⟩
  obtain ⟨fuel, rfl⟩ := Nat.exists_eq_add_of_lt hfuel
  exact h _ r hr

theorem readsAs_null : ReadsAs "null".toList .null :=
  readsAs_of_succ ⟨'n', _, rfl, rfl, by decide⟩ fun _ _ _ => rfl

theorem readsAs_bool (b : Bool) : ReadsAs (Json.boolChars b) (.bool b) := by
  cases b
  · exact readsAs_of_succ ⟨'f', _, rfl, rfl, by decide⟩ fun _ _ _ => rfl
  · exact readsAs_of_succ ⟨'t', _, rfl, rfl, by decide⟩ fun _ _ _ => rfl

theorem readsAs_string (s : String) : ReadsAs (Json.stringChars s) (.string (some s)) := by
  refine readsAs_of_succ ⟨'"', _, rfl, rfl, by decide⟩ fun fuel r _ => ?_
  have hread := readString_tail s r
  rw [Json.stringChars, List.cons_append, List.append_assoc, List.singleton_append, readValue]
  simp [skipGap, isGap, hread]

/-- A number is told from other values by its sign or its first digit. -/
theorem readsAs_number {number : NumberText} (h : number.IsWellFormed) :
    ReadsAs number.signed (.number number) := by
  have hread {r : List Char} (hr : Ends r) :
      readNumber number.negative (number.chars ++ r) = some (number, r) :=
    NumberText.readNumber_append h hr _
  cases hnegative : number.negative with
  | true =>
    rw [NumberText.signed, if_pos hnegative]
    refine readsAs_of_succ ⟨'-', _, rfl, rfl, by decide⟩ fun fuel r hr => ?_
    specialize hread hr
    rw [hnegative] at hread
    rw [List.cons_append, readValue]
    simp [skipGap, isGap, hread]
  | false =>
    obtain ⟨d, digits, hwhole⟩ := List.exists_cons_of_ne_nil h.whole.1
    have hdigit : d.isDigit = true := h.whole.2 d (hwhole ▸ List.mem_cons_self)
    have hne {c : Char} (hc : c.isDigit = false) : d ≠ c := by
      rintro rfl
      rw [hc] at hdigit
      cases hdigit
    have hgap : isGap d = false := by simp [isGap, hne]
    have hunsigned : ¬number.negative = true := Bool.eq_false_iff.mp hnegative
    obtain ⟨rest, hrest⟩ : ∃ rest, number.chars = d :: rest :=
      ⟨_, by rw [NumberText.chars, hwhole, List.cons_append]⟩
    rw [NumberText.signed, if_neg hunsigned]
    refine readsAs_of_succ ⟨d, rest, hrest, hgap, hne rfl⟩ fun fuel r hr => ?_
    specialize hread hr
    rw [hnegative, hrest, List.cons_append] at hread
    rw [hrest, List.cons_append, readValue]
    simp [skipGap, hgap, hne, hread]

/-! ### Items and fields -/

section Entries

variable {α : Type} {style : Json.Style} {depth fuel : ℕ} {text rest : List Char}
  {item : Document} {name : String}

/-- What separates one item or field from the next, if it is not the first. -/
def separator (first : Bool) : List Char := if first then [] else [',']

theorem isGap_newLine (style : Json.Style) (depth : ℕ) :
    ∀ c ∈ style.newLine depth, isGap c = true := by
  intro c hc
  rcases style.blank_newLine depth c hc with rfl | rfl <;> rfl

theorem isGap_afterColon (style : Json.Style) : ∀ c ∈ style.afterColon, isGap c = true := by
  intro c hc
  rw [style.blank_afterColon c hc]
  rfl

/-- An item is read, and then what follows it. -/
theorem readItems_cons (hitem : ReadsAs text item) (hfuel : 2 * text.length < fuel)
    (hrest : Ends rest) (first : Bool) :
    readItems (fuel + 1) first (separator first ++ (style.newLine depth ++ (text ++ rest))) =
      let (items, closed, rest) := readItems fuel false rest
      (item :: items, closed, rest) := by
  obtain ⟨c, cs, rfl, hgap, hbracket⟩ := hitem.exists_cons
  have hread := hitem.readValue_eq fuel rest hfuel hrest
  have hskip : skipGap (style.newLine depth ++ (c :: cs ++ rest)) = c :: cs ++ rest := by
    rw [skipGap_append (isGap_newLine style depth), List.cons_append, skipGap,
      List.dropWhile_cons_of_neg (Bool.eq_false_iff.mp hgap)]
  cases first with
  | true =>
    rw [separator, if_pos rfl, List.nil_append, readItems, hskip]
    rw [List.cons_append] at hread ⊢
    simp [hbracket, hread]
  | false =>
    have hcomma : skipGap (',' :: (style.newLine depth ++ (c :: cs ++ rest))) =
        ',' :: (style.newLine depth ++ (c :: cs ++ rest)) := rfl
    rw [separator, if_neg Bool.false_ne_true, List.singleton_append, readItems, hcomma]
    rw [List.cons_append] at hread hskip ⊢
    simp [hskip, hbracket, hread]

/-- A field is read, its name and its value, and then what follows it. -/
theorem readFields_cons (hitem : ReadsAs text item) (hfuel : 2 * text.length < fuel)
    (hrest : Ends rest) (first : Bool) :
    readFields (fuel + 1) first (separator first ++ (style.newLine depth ++
        (Json.stringChars name ++ ':' :: (style.afterColon ++ (text ++ rest))))) =
      let (fields, closed, rest) := readFields fuel false rest
      ((some name, item) :: fields, closed, rest) := by
  have hread : readValue fuel (style.afterColon ++ (text ++ rest)) = (item, some rest) := by
    rw [readValue_append (isGap_afterColon style)]
    exact hitem.readValue_eq fuel rest hfuel hrest
  have hname := readString_tail name (':' :: (style.afterColon ++ (text ++ rest)))
  have hcolon (cs : List Char) : skipGap (':' :: cs) = ':' :: cs := rfl
  have hskip : skipGap (style.newLine depth ++
      (Json.stringChars name ++ ':' :: (style.afterColon ++ (text ++ rest)))) =
        '"' :: (name.toList.flatMap Json.escapeChar ++
          '"' :: ':' :: (style.afterColon ++ (text ++ rest))) := by
    rw [skipGap_append (isGap_newLine style depth), Json.stringChars]
    simp [skipGap, isGap]
  cases first with
  | true =>
    rw [separator, if_pos rfl, List.nil_append, readFields, hskip]
    simp [hname, hcolon, hread]
  | false =>
    have hcomma (cs : List Char) : skipGap (',' :: cs) = ',' :: cs := rfl
    rw [separator, if_neg Bool.false_ne_true, List.singleton_append, readFields, hcomma]
    simp [hskip, hname, hcolon, hread]

/-- The items behind the first are read up to the bracket. -/
theorem readItems_entries {write : α → List Char} {document : α → Document} (xs : List α)
    (hreads : ∀ x ∈ xs, ReadsAs (write x) (document x)) (fuel : ℕ) (r : List Char)
    (hfuel : 2 * (style.entries depth write ']' xs).length ≤ fuel) :
    readItems fuel false (style.entries depth write ']' xs ++ r) =
      (xs.map document, true, some r) := by
  have hbracket : ']' ∈ Json.closing := by decide
  induction xs generalizing fuel with
  | nil =>
    rw [Json.Style.entries, List.length_append, List.length_singleton] at hfuel
    obtain ⟨fuel, rfl⟩ := Nat.exists_eq_succ_of_ne_zero (show fuel ≠ 0 by omega)
    rw [Json.Style.entries, List.append_assoc, List.singleton_append, readItems,
      skipGap_append (isGap_newLine style depth)]
    rfl
  | cons x xs ih =>
    simp only [Json.Style.entries, List.length_cons, List.length_append] at hfuel
    obtain ⟨fuel, rfl⟩ := Nat.exists_eq_succ_of_ne_zero (show fuel ≠ 0 by omega)
    have hx : 2 * (write x).length < fuel := by omega
    have hxs := ih (fun y hy => hreads y (List.mem_cons_of_mem x hy)) fuel (by omega)
    have hread : readItems (fuel + 1) false (separator false ++ (style.newLine (depth + 1) ++
        (write x ++ (style.entries depth write ']' xs ++ r)))) = _ :=
      readItems_cons (hreads x List.mem_cons_self) hx (ends_entries hbracket xs r) false
    rw [hxs] at hread
    rw [Json.Style.entries, List.cons_append, List.append_assoc, List.append_assoc]
    exact hread

/-- The fields behind the first are read up to the brace. -/
theorem readFields_entries {write : Json → List Char} {document : Json → Document}
    (fields : List (String × Json))
    (hreads : ∀ field ∈ fields, ReadsAs (write field.2) (document field.2)) (fuel : ℕ)
    (r : List Char)
    (hfuel : 2 * (style.entries depth (style.field write) Json.closeBrace fields).length ≤ fuel) :
    readFields fuel false (style.entries depth (style.field write) Json.closeBrace fields ++ r) =
      (fields.map fun field => (some field.1, document field.2), true, some r) := by
  have hbrace : Json.closeBrace ∈ Json.closing := by decide
  induction fields generalizing fuel with
  | nil =>
    rw [Json.Style.entries, List.length_append, List.length_singleton] at hfuel
    obtain ⟨fuel, rfl⟩ := Nat.exists_eq_succ_of_ne_zero (show fuel ≠ 0 by omega)
    rw [Json.Style.entries, List.append_assoc, List.singleton_append, readFields,
      skipGap_append (isGap_newLine style depth)]
    rfl
  | cons field fields ih =>
    simp only [Json.Style.entries, Json.Style.field, List.length_cons, List.length_append] at hfuel
    obtain ⟨fuel, rfl⟩ := Nat.exists_eq_succ_of_ne_zero (show fuel ≠ 0 by omega)
    have hvalue : 2 * (write field.2).length < fuel := by omega
    have hfields := ih (fun other hother => hreads other (List.mem_cons_of_mem field hother)) fuel
      (by omega)
    have hread : readFields (fuel + 1) false (separator false ++ (style.newLine (depth + 1) ++
        (Json.stringChars field.1 ++ ':' :: (style.afterColon ++ (write field.2 ++
          (style.entries depth (style.field write) Json.closeBrace fields ++ r)))))) = _ :=
      readFields_cons (hreads field List.mem_cons_self) hvalue (ends_entries hbrace fields r) false
    rw [hfields] at hread
    simp only [Json.Style.entries, Json.Style.field, List.cons_append, List.append_assoc]
    exact hread

/-- Items between brackets are read as an array. -/
theorem readsAs_array {write : α → List Char} {document : α → Document} {xs : List α}
    (hreads : ∀ x ∈ xs, ReadsAs (write x) (document x)) :
    ReadsAs (style.enclosed depth write '[' ']' xs) (.array (xs.map document) true) := by
  have hbracket : ']' ∈ Json.closing := by decide
  have hopen (fuel : ℕ) (cs : List Char) : readValue (fuel + 1) ('[' :: cs) =
      let (items, closed, rest) := readItems fuel true cs
      (.array items closed, rest) := rfl
  cases xs with
  | nil =>
    refine ⟨⟨'[', [']'], rfl, rfl, by decide⟩, fun fuel r hfuel _ => ?_⟩
    change 4 < fuel at hfuel
    obtain ⟨fuel, rfl⟩ : ∃ n, fuel = n + 2 := ⟨fuel - 2, by omega⟩
    rfl
  | cons x xs =>
    refine ⟨⟨'[', _, rfl, rfl, by decide⟩, fun fuel r hfuel _ => ?_⟩
    simp only [Json.Style.enclosed, List.length_cons, List.length_append] at hfuel
    obtain ⟨fuel, rfl⟩ : ∃ n, fuel = n + 2 := ⟨fuel - 2, by omega⟩
    have hx : 2 * (write x).length < fuel := by omega
    have hxs : readItems fuel false (style.entries depth write ']' xs ++ r) = _ :=
      readItems_entries xs (fun y hy => hreads y (List.mem_cons_of_mem x hy)) fuel r (by omega)
    have hread : readItems (fuel + 1) true (separator true ++ (style.newLine (depth + 1) ++
        (write x ++ (style.entries depth write ']' xs ++ r)))) = _ :=
      readItems_cons (hreads x List.mem_cons_self) hx (ends_entries hbracket xs r) true
    rw [hxs, separator, if_pos rfl, List.nil_append] at hread
    rw [Json.Style.enclosed, List.cons_append, List.append_assoc, List.append_assoc, hopen, hread]
    rfl

/-- Fields between braces are read as an object. -/
theorem readsAs_object {write : Json → List Char} {document : Json → Document}
    {fields : List (String × Json)}
    (hreads : ∀ field ∈ fields, ReadsAs (write field.2) (document field.2)) :
    ReadsAs (style.enclosed depth (style.field write) Json.openBrace Json.closeBrace fields)
      (.object (fields.map fun field => (some field.1, document field.2)) true) := by
  have hbrace : Json.closeBrace ∈ Json.closing := by decide
  have hopen (fuel : ℕ) (cs : List Char) : readValue (fuel + 1) (Json.openBrace :: cs) =
      let (fields, closed, rest) := readFields fuel true cs
      (.object fields closed, rest) := rfl
  cases fields with
  | nil =>
    refine ⟨⟨Json.openBrace, [Json.closeBrace], rfl, rfl, by decide⟩, fun fuel r hfuel _ => ?_⟩
    change 4 < fuel at hfuel
    obtain ⟨fuel, rfl⟩ : ∃ n, fuel = n + 2 := ⟨fuel - 2, by omega⟩
    rfl
  | cons field fields =>
    refine ⟨⟨Json.openBrace, _, rfl, rfl, by decide⟩, fun fuel r hfuel _ => ?_⟩
    simp only [Json.Style.enclosed, Json.Style.field, List.length_cons, List.length_append]
      at hfuel
    obtain ⟨fuel, rfl⟩ : ∃ n, fuel = n + 2 := ⟨fuel - 2, by omega⟩
    have hvalue : 2 * (write field.2).length < fuel := by omega
    have hothers : ∀ other ∈ fields, ReadsAs (write other.2) (document other.2) :=
      fun other hother => hreads other (List.mem_cons_of_mem field hother)
    have hfields : readFields fuel false
        (style.entries depth (style.field write) Json.closeBrace fields ++ r) = _ :=
      readFields_entries fields hothers fuel r (by omega)
    have hread : readFields (fuel + 1) true (separator true ++ (style.newLine (depth + 1) ++
        (Json.stringChars field.1 ++ ':' :: (style.afterColon ++ (write field.2 ++
          (style.entries depth (style.field write) Json.closeBrace fields ++ r)))))) = _ :=
      readFields_cons (hreads field List.mem_cons_self) hvalue (ends_entries hbrace fields r) true
    rw [hfields, separator, if_pos rfl, List.nil_append] at hread
    simp only [Json.Style.enclosed, Json.Style.field, List.cons_append, List.append_assoc]
    rw [hopen, hread]
    rfl

end Entries

end Document

/-! ### Documents -/

namespace Json

mutual

/-- The document of a value.  Numbers that are not finite have none of their own. -/
def document : Json → Document
  | null => .null
  | bool b => .bool b
  | int i => .number (.ofInt i)
  | single x => if x.isFinite then .number (x.number decimalStyle) else .null
  | string s => .string (some s)
  | array items => .array (documents items) true
  | object fields => .object (members fields) true

def documents : List Json → List Document
  | [] => []
  | item :: items => item.document :: documents items

def members : List (String × Json) → List (Option String × Document)
  | [] => []
  | (name, value) :: fields => (some name, value.document) :: members fields

end

theorem documents_eq_map (items : List Json) : documents items = items.map document := by
  induction items with
  | nil => rfl
  | cons item items ih => rw [documents, ih, List.map_cons]

theorem members_eq_map (fields : List (String × Json)) :
    members fields = fields.map fun field => (some field.1, field.2.document) := by
  induction fields with
  | nil => rfl
  | cons field fields ih => rw [members, ih, List.map_cons]

/-- What is true of a value if it is true of its items and fields is true of all values. -/
theorem items_induction {motive : Json → Prop} (null : motive null) (bool : ∀ b, motive (bool b))
    (int : ∀ i, motive (int i)) (single : ∀ x, motive (single x))
    (string : ∀ s, motive (string s))
    (array : ∀ items : List Json, (∀ item ∈ items, motive item) → motive (array items))
    (object : ∀ fields : List (String × Json), (∀ field ∈ fields, motive field.2) →
      motive (object fields)) (json : Json) : motive json := by
  refine @Json.rec motive (fun items => ∀ item ∈ items, motive item)
    (fun fields => ∀ field ∈ fields, motive field.2) (fun field => motive field.2)
    null bool int single string array object ?_ ?_ ?_ ?_ ?_ json
  · exact fun item hitem => absurd hitem List.not_mem_nil
  · exact fun item items hitem hitems => List.forall_mem_cons.mpr ⟨hitem, hitems⟩
  · exact fun field hfield => absurd hfield List.not_mem_nil
  · exact fun field fields hfield hfields => List.forall_mem_cons.mpr ⟨hfield, hfields⟩
  · exact fun name value hvalue => hvalue

variable {style : Style} {write : ℕ → Json → List Char}

/-- **A value that is written is read as its document.** -/
theorem readsAs_write (hwrite : WritesSingles style write) (json : Json) (depth : ℕ) :
    Document.ReadsAs (write depth json) json.document := by
  induction json using items_induction generalizing depth with
  | null =>
    rw [hwrite.null]
    exact Document.readsAs_null
  | bool b =>
    rw [hwrite.bool]
    exact Document.readsAs_bool b
  | int i =>
    rw [hwrite.int, ← NumberText.signed_ofInt]
    exact Document.readsAs_number (NumberText.isWellFormed_ofInt i)
  | single x =>
    rw [hwrite.single, singleChars, document]
    split
    · rw [Single.toList_render]
      exact Document.readsAs_number (Single.isWellFormed_number decimalStyle x)
    · exact Document.readsAs_null
  | string s =>
    rw [hwrite.string]
    exact Document.readsAs_string s
  | array items hitems =>
    rw [hwrite.array, document, documents_eq_map]
    exact Document.readsAs_array fun item hitem => hitems item hitem (depth + 1)
  | object fields hfields =>
    rw [hwrite.object, document, members_eq_map]
    exact Document.readsAs_object fun field hfield => hfields field hfield (depth + 1)

/-- A whole text is read, and what follows it is left. -/
theorem ofChars_write (hwrite : WritesSingles style write) (json : Json) (depth : ℕ) {r : List Char}
    (hr : Ends r) : Document.ofChars (write depth json ++ r) = (json.document, some r) := by
  refine (readsAs_write hwrite json depth).readValue_eq _ r ?_ hr
  rw [List.length_append]
  omega

/-- **A text in one line is read as the document of its value.** -/
theorem ofChars_text (json : Json) {tail : String} (htail : Ends tail.toList) :
    Document.ofChars (json.text ++ tail).toList = (json.document, some tail.toList) := by
  rw [String.toList_append, text, String.toList_ofList]
  exact ofChars_write writesSingles_chars json 0 htail

/-- **An indented text is read as the document of its value.** -/
theorem ofChars_prettyText (json : Json) {tail : String} (htail : Ends tail.toList) :
    Document.ofChars (json.prettyText ++ tail).toList = (json.document, some tail.toList) := by
  rw [String.toList_append, prettyText, String.toList_ofList]
  exact ofChars_write writesSingles_indented json 0 htail

end Json
end JobSandbox
