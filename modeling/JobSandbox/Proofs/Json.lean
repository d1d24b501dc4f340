import JobSandbox.Json
import JobSandbox.Proofs.Fault
import Mathlib.Data.Bool.AllAny

/-!
# The value of a JSON text

A text that is written of a value is written of no other.  Strings end at the first quote that is
not escaped, and their escapes are a prefix code; numbers end at the first character that is no
digit; and everything else can be told from the character it starts with.  What is between the
lines says nothing, so this is so in one line and indented.

Numbers in single precision are left out: there are several that have the same text.

## Main definitions

* `Json.Style`, `Json.Writes`, `Json.WritesSingles` — the two ways of writing, as one.
* `Json.Plain` — values without numbers in single precision.

## Main results

* `Json.stringChars_append_inj`, `Json.intChars_append_inj` — scalars, and where they end.
* `Json.Style.enclosed_append_inj` — lists between brackets, and where they end.
* `Json.Plain.toldApart` — plain values, written in either way.
* `Json.text_inj`, `Json.prettyText_inj` — **a text has one value.**
-/

namespace JobSandbox
namespace Json

/-! ### Strings -/

/-- The characters that are escaped. -/
def escaped : List Char := '"' :: '\\' :: (List.range 0x20).map Char.ofNat

theorem escapeChar_of_not_mem {c : Char} (h : c ∉ escaped) : escapeChar c = [c] := by
  have hquote : c ≠ '"' := by rintro rfl; exact h (by decide)
  have hslash : c ≠ '\\' := by rintro rfl; exact h (by decide)
  have hcontrol : 0x20 ≤ c.toNat := by
    refine Nat.le_of_not_lt fun hlt => h ?_
    have hmem : Char.ofNat c.toNat ∈ (List.range 0x20).map Char.ofNat :=
      List.mem_map_of_mem (List.mem_range.mpr hlt)
    rw [Char.ofNat_toNat] at hmem
    exact List.mem_cons_of_mem _ (List.mem_cons_of_mem _ hmem)
  rw [escapeChar, if_neg hquote, if_neg hslash, if_pos hcontrol]

/-- What is escaped starts with a backslash, and anything else with itself. -/
theorem head_escapeChar (c : Char) :
    (escapeChar c).head? = some (if c ∈ escaped then '\\' else c) := by
  have hescaped : ∀ c ∈ escaped, (escapeChar c).head? = some '\\' :=
    List.all_iff_forall_prop.mp (by decide)
  by_cases h : c ∈ escaped
  · rw [if_pos h, hescaped c h]
  · rw [if_neg h, escapeChar_of_not_mem h]
    rfl

/-- No character is written as the start of another. -/
theorem eq_of_isPrefix_escapeChar {c d : Char} (h : escapeChar c <+: escapeChar d) : c = d := by
  have htable : (escaped.all fun c => escaped.all fun d =>
      escapeChar c <+: escapeChar d → c = d) = true := by decide
  have hescaped : ∀ c ∈ escaped, ∀ d ∈ escaped, escapeChar c <+: escapeChar d → c = d :=
    fun c hc => List.all_iff_forall_prop.mp (List.all_eq_true.mp htable c hc)
  have hslash : '\\' ∈ escaped := by decide
  obtain ⟨rest, hrest⟩ := h
  have hhead := congrArg List.head? hrest
  rw [List.head?_append, head_escapeChar, head_escapeChar, Option.some_or, Option.some.injEq]
    at hhead
  by_cases hc : c ∈ escaped <;> by_cases hd : d ∈ escaped
  · exact hescaped c hc d hd ⟨rest, hrest⟩
  · rw [if_pos hc, if_neg hd] at hhead
    exact absurd (hhead ▸ hslash) hd
  · rw [if_neg hc, if_pos hd] at hhead
    exact absurd (hhead ▸ hslash) hc
  · rwa [if_neg hc, if_neg hd] at hhead

/-- A character can be told from how it is written, and so can what follows. -/
theorem escapeChar_append_inj {c d : Char} {r s : List Char}
    (h : escapeChar c ++ r = escapeChar d ++ s) : c = d ∧ r = s := by
  have heq : c = d := by
    have hc : escapeChar c <+: escapeChar d ++ s := h ▸ List.prefix_append _ _
    rcases List.prefix_or_prefix_of_prefix hc (List.prefix_append _ _) with hprefix | hprefix
    · exact eq_of_isPrefix_escapeChar hprefix
    · exact (eq_of_isPrefix_escapeChar hprefix).symm
  rw [heq] at h
  exact ⟨heq, List.append_cancel_left h⟩

/-- No character is written with a quote in front. -/
theorem escapeChar_append_ne_quote {c : Char} {r s : List Char} :
    escapeChar c ++ r ≠ '"' :: s := by
  intro h
  have hhead := congrArg List.head? h
  rw [List.head?_append, head_escapeChar, Option.some_or, List.head?_cons, Option.some.injEq]
    at hhead
  split at hhead
  · cases hhead
  · next hnot => exact hnot (hhead ▸ by decide)

/-- A string ends at its quote. -/
theorem flatMap_escapeChar_inj {cs ds r s : List Char}
    (h : cs.flatMap escapeChar ++ '"' :: r = ds.flatMap escapeChar ++ '"' :: s) :
    cs = ds ∧ r = s := by
  induction cs generalizing ds with
  | nil =>
    cases ds with
    | nil => exact ⟨rfl, (List.cons.inj h).2⟩
    | cons d ds =>
      rw [List.flatMap_cons, List.append_assoc] at h
      exact absurd h.symm escapeChar_append_ne_quote
  | cons c cs ih =>
    cases ds with
    | nil =>
      rw [List.flatMap_cons, List.append_assoc] at h
      exact absurd h escapeChar_append_ne_quote
    | cons d ds =>
      rw [List.flatMap_cons, List.flatMap_cons, List.append_assoc, List.append_assoc] at h
      obtain ⟨rfl, hrest⟩ := escapeChar_append_inj h
      obtain ⟨rfl, rfl⟩ := ih hrest
      exact ⟨rfl, rfl⟩

/-- A string and what follows it. -/
theorem stringChars_append_inj {u v : String} {r s : List Char}
    (h : stringChars u ++ r = stringChars v ++ s) : u = v ∧ r = s := by
  rw [stringChars, stringChars, List.cons_append, List.cons_append, List.append_assoc,
    List.append_assoc] at h
  obtain ⟨hchars, hrest⟩ := flatMap_escapeChar_inj (List.cons.inj h).2
  exact ⟨String.toList_inj.mp hchars, hrest⟩

/-! ### Integers -/

/-- A text that does not go on with a digit. -/
def EndsNumber (cs : List Char) : Prop := ∀ c ∈ cs.head?, c.isDigit = false

/-- The digits of a number are those at the front of the text. -/
theorem takeWhile_isDigit_append {cs r : List Char} (hcs : ∀ c ∈ cs, c.isDigit = true)
    (hr : EndsNumber r) : (cs ++ r).takeWhile Char.isDigit = cs := by
  rw [List.takeWhile_append_of_pos hcs]
  cases r with
  | nil => exact List.append_nil cs
  | cons c r =>
    have hstop : ¬c.isDigit = true := by
      rw [hr c rfl]
      exact Bool.false_ne_true
    rw [List.takeWhile_cons_of_neg hstop, List.append_nil]

/-- A numeral and what follows it. -/
theorem toDigits_append_inj {m n : ℕ} {r s : List Char} (hr : EndsNumber r) (hs : EndsNumber s)
    (h : Nat.toDigits 10 m ++ r = Nat.toDigits 10 n ++ s) : m = n ∧ r = s := by
  have hdigits := congrArg (List.takeWhile Char.isDigit) h
  have hdigit {k : ℕ} : ∀ c ∈ Nat.toDigits 10 k, c.isDigit = true :=
    fun c hc => Nat.isDigit_of_mem_toDigits (by decide) (by decide) hc
  rw [takeWhile_isDigit_append hdigit hr, takeWhile_isDigit_append hdigit hs] at hdigits
  rw [hdigits] at h
  exact ⟨toDigits_injective (by decide) (by decide) hdigits, List.append_cancel_left h⟩

/-- A numeral does not start with a sign. -/
theorem toDigits_append_ne_sign {n : ℕ} {r s : List Char} : Nat.toDigits 10 n ++ r ≠ '-' :: s := by
  intro h
  obtain ⟨c, cs, hcs⟩ := List.exists_cons_of_ne_nil (Nat.toDigits_ne_nil (b := 10) (n := n))
  have hdigit : c.isDigit = true :=
    Nat.isDigit_of_mem_toDigits (by decide) (by decide) (hcs ▸ List.mem_cons_self)
  rw [hcs, List.cons_append] at h
  rw [(List.cons.inj h).1] at hdigit
  cases hdigit

/-- An integer and what follows it. -/
theorem intChars_append_inj {i j : ℤ} {r s : List Char} (hr : EndsNumber r) (hs : EndsNumber s)
    (h : intChars i ++ r = intChars j ++ s) : i = j ∧ r = s := by
  unfold intChars at h
  split at h <;> split at h
  · obtain ⟨habs, hrest⟩ := toDigits_append_inj hr hs (List.cons.inj h).2
    exact ⟨by omega, hrest⟩
  · exact absurd h.symm toDigits_append_ne_sign
  · exact absurd h toDigits_append_ne_sign
  · obtain ⟨habs, hrest⟩ := toDigits_append_inj hr hs h
    exact ⟨by omega, hrest⟩

/-! ### Between brackets -/

/-- What is written around the fields and items of a value, without saying anything. -/
structure Style where
  /-- The start of a line at a depth. -/
  newLine : ℕ → List Char
  /-- What stands between the colon and the value. -/
  afterColon : List Char
  blank_newLine : ∀ depth, ∀ c ∈ newLine depth, c = '\n' ∨ c = ' '
  blank_afterColon : ∀ c ∈ afterColon, c = ' '

/-- The brackets that close. -/
def closing : List Char := [']', closeBrace]

theorem of_mem_closing :
    ∀ c ∈ closing, c.isDigit = false ∧ c ≠ ',' ∧ c ≠ '\n' ∧ c ≠ ' ' :=
  List.all_iff_forall_prop.mp (by decide)

namespace Style

variable {α : Type}

/-- The entries behind the first, each on its line, and the bracket. -/
def entries (style : Style) (depth : ℕ) (write : α → List Char) (close : Char) :
    List α → List Char
  | [] => style.newLine depth ++ [close]
  | x :: xs =>
    ',' :: (style.newLine (depth + 1) ++ (write x ++ style.entries depth write close xs))

/-- Entries between brackets. -/
def enclosed (style : Style) (depth : ℕ) (write : α → List Char) (start close : Char) :
    List α → List Char
  | [] => [start, close]
  | x :: xs =>
    start :: (style.newLine (depth + 1) ++ (write x ++ style.entries depth write close xs))

/-- Two entries that can be told apart by their texts, and from what follows these. -/
def ToldApart (write : α → List Char) (x y : α) : Prop :=
  ∀ {r s}, EndsNumber r → EndsNumber s → write x ++ r = write y ++ s → x = y ∧ r = s

/-- A field is its name and its value. -/
def field (style : Style) (write : Json → List Char) (entry : String × Json) : List Char :=
  stringChars entry.1 ++ ':' :: (style.afterColon ++ write entry.2)

variable {style : Style} {depth : ℕ} {write : α → List Char} {start close c : Char} {xs ys : List α}
  {r s : List Char}

/-- Behind the start of a line, a character can be told from those that are not blank. -/
theorem newLine_append_ne (hblank : c ≠ '\n' ∧ c ≠ ' ') (hr : r.head? ≠ some c) :
    style.newLine depth ++ r ≠ c :: s := by
  intro h
  cases hline : style.newLine depth with
  | nil =>
    rw [hline, List.nil_append] at h
    exact hr (h ▸ rfl)
  | cons d cs =>
    rw [hline, List.cons_append] at h
    obtain hd | hd := style.blank_newLine depth d (hline ▸ List.mem_cons_self)
    · exact hblank.1 ((List.cons.inj h).1 ▸ hd)
    · exact hblank.2 ((List.cons.inj h).1 ▸ hd)

/-- A line starts with a blank, or with what is put on it. -/
theorem eq_of_head?_newLine_append :
    ∀ d ∈ (style.newLine depth ++ c :: r).head?, d = '\n' ∨ d = ' ' ∨ d = c := by
  intro d hd
  cases hline : style.newLine depth with
  | nil =>
    rw [hline] at hd
    cases hd
    exact .inr (.inr rfl)
  | cons e cs =>
    rw [hline] at hd
    cases hd
    exact (style.blank_newLine depth d (hline ▸ List.mem_cons_self)).imp_right .inl

/-- Behind an entry there is no digit. -/
theorem endsNumber_entries (hclose : close ∈ closing) (xs : List α) (r : List Char) :
    EndsNumber (style.entries depth write close xs ++ r) := by
  intro c hc
  cases xs with
  | nil =>
    rw [entries, List.append_assoc] at hc
    obtain rfl | rfl | rfl := eq_of_head?_newLine_append c hc
    · rfl
    · rfl
    · exact (of_mem_closing c hclose).1
  | cons x xs =>
    cases hc
    rfl

/-- The entries behind the first end at the bracket, if they can be told apart. -/
theorem entries_append_inj (hclose : close ∈ closing)
    (hinj : ∀ x ∈ xs, ∀ y ∈ ys, ToldApart write x y)
    (h : style.entries depth write close xs ++ r = style.entries depth write close ys ++ s) :
    xs = ys ∧ r = s := by
  have hbracket (y : α) (ys : List α) {r s : List Char} :
      style.entries depth write close [] ++ r ≠
        style.entries depth write close (y :: ys) ++ s := by
    rw [entries, List.append_assoc]
    refine newLine_append_ne (by decide) ?_
    exact fun hhead => (of_mem_closing close hclose).2.1 (Option.some.inj hhead)
  induction xs generalizing ys with
  | nil =>
    cases ys with
    | nil => exact ⟨rfl, List.append_cancel_left h⟩
    | cons y ys => exact absurd h (hbracket y ys)
  | cons x xs ih =>
    cases ys with
    | nil => exact absurd h.symm (hbracket x xs)
    | cons y ys =>
      simp only [entries, List.cons_append, List.append_assoc] at h
      obtain ⟨rfl, hrest⟩ := hinj x List.mem_cons_self y List.mem_cons_self
        (endsNumber_entries hclose _ _) (endsNumber_entries hclose _ _)
        (List.append_cancel_left (List.cons.inj h).2)
      obtain ⟨rfl, rfl⟩ := ih
        (fun x hx y hy => hinj x (List.mem_cons_of_mem _ hx) y (List.mem_cons_of_mem _ hy)) hrest
      exact ⟨rfl, rfl⟩

/-- Entries between brackets, and what follows them. -/
theorem enclosed_append_inj (hclose : close ∈ closing)
    (hxs : ∀ x ∈ xs, ∀ r, (write x ++ r).head? ≠ some close)
    (hys : ∀ y ∈ ys, ∀ r, (write y ++ r).head? ≠ some close)
    (hinj : ∀ x ∈ xs, ∀ y ∈ ys, ToldApart write x y)
    (h : style.enclosed depth write start close xs ++ r =
      style.enclosed depth write start close ys ++ s) :
    xs = ys ∧ r = s := by
  have hbracket {y : α} (hy : ∀ r, (write y ++ r).head? ≠ some close) (ys : List α)
      {r s : List Char} : style.enclosed depth write start close [] ++ r ≠
        style.enclosed depth write start close (y :: ys) ++ s := by
    intro h
    simp only [enclosed, List.cons_append, List.append_assoc] at h
    exact newLine_append_ne (of_mem_closing close hclose).2.2 (hy _) (List.cons.inj h).2.symm
  cases xs with
  | nil =>
    cases ys with
    | nil => exact ⟨rfl, List.append_cancel_left h⟩
    | cons y ys => exact absurd h (hbracket (hys y List.mem_cons_self) ys)
  | cons x xs =>
    cases ys with
    | nil => exact absurd h.symm (hbracket (hxs x List.mem_cons_self) xs)
    | cons y ys =>
      exact entries_append_inj hclose hinj (congrArg (',' :: ·) (List.cons.inj h).2)

theorem entries_map {β : Type} (f : β → α) (xs : List β) :
    style.entries depth write close (xs.map f) =
      style.entries depth (fun x => write (f x)) close xs := by
  induction xs with
  | nil => rfl
  | cons x xs ih => rw [List.map_cons, entries, entries, ih]

/-- What is written of each entry may be worked out beforehand. -/
theorem enclosed_map {β : Type} (f : β → α) (xs : List β) :
    style.enclosed depth write start close (xs.map f) =
      style.enclosed depth (fun x => write (f x)) start close xs := by
  cases xs with
  | nil => rfl
  | cons x xs => rw [List.map_cons, enclosed, enclosed, entries_map]

/-- Fields can be told apart if their values can. -/
theorem toldApart_field {write : Json → List Char} {x y : String × Json}
    (hvalue : ToldApart write x.2 y.2) : ToldApart (style.field write) x y := by
  intro r s hr hs h
  simp only [field, List.append_assoc, List.cons_append] at h
  obtain ⟨hname, hbehind⟩ := stringChars_append_inj h
  obtain ⟨heq, hrest⟩ := hvalue hr hs (List.append_cancel_left (List.cons.inj hbehind).2)
  exact ⟨Prod.ext hname heq, hrest⟩

end Style

/-! ### Ways of writing values -/

/-- A way of writing values at a depth, but for numbers in single precision. -/
structure Writes (style : Style) (write : ℕ → Json → List Char) : Prop where
  null : ∀ depth, write depth null = "null".toList
  bool : ∀ depth b, write depth (bool b) = boolChars b
  int : ∀ depth i, write depth (int i) = intChars i
  string : ∀ depth s, write depth (string s) = stringChars s
  array : ∀ depth items, write depth (array items) =
    style.enclosed depth (write (depth + 1)) '[' ']' items
  object : ∀ depth fields, write depth (object fields) =
    style.enclosed depth (style.field (write (depth + 1))) openBrace closeBrace fields

/-- Nothing around fields and items. -/
def compact : Style where
  newLine _ := []
  afterColon := []
  blank_newLine _ _ hc := absurd hc List.not_mem_nil
  blank_afterColon _ hc := absurd hc List.not_mem_nil

/-- A line for each field and item. -/
def spaced : Style where
  newLine := newLine
  afterColon := [' ']
  blank_newLine depth c hc := by
    rcases List.mem_cons.mp hc with rfl | hc
    · exact .inl rfl
    · exact .inr (List.eq_of_mem_replicate hc)
  blank_afterColon _ hc := List.mem_singleton.mp hc

theorem writes_chars : Writes compact fun _ => chars where
  null _ := rfl
  bool _ _ := rfl
  int _ _ := rfl
  string _ _ := rfl
  array depth items := by
    have hitems (items : List Json) :
        itemsChars items = compact.entries depth chars ']' items := by
      induction items with
      | nil => rfl
      | cons item items ih => rw [itemsChars, ih]; rfl
    cases items with
    | nil => rfl
    | cons item items => rw [chars, hitems]; rfl
  object depth fields := by
    have hfields (fields : List (String × Json)) :
        fieldsChars fields = compact.entries depth (compact.field chars) closeBrace fields := by
      induction fields with
      | nil => rfl
      | cons field fields ih =>
        rw [fieldsChars, ih, Style.entries, Style.field, List.append_assoc]
        rfl
    cases fields with
    | nil => rfl
    | cons field fields =>
      rw [chars, hfields, Style.enclosed, Style.field, List.append_assoc]
      rfl

theorem writes_indented : Writes spaced fun depth => indented depth where
  null _ := rfl
  bool _ _ := rfl
  int _ _ := rfl
  string _ _ := rfl
  array depth items := by
    have hitems (items : List Json) :
        itemsIndented depth items = spaced.entries depth (indented (depth + 1)) ']' items := by
      induction items with
      | nil => rfl
      | cons item items ih =>
        rw [itemsIndented, ih, List.append_assoc]
        rfl
    cases items with
    | nil => rfl
    | cons item items =>
      rw [indented, hitems, List.append_assoc]
      rfl
  object depth fields := by
    have hfields (fields : List (String × Json)) : fieldsIndented depth fields =
        spaced.entries depth (spaced.field (indented (depth + 1))) closeBrace fields := by
      induction fields with
      | nil => rfl
      | cons field fields ih =>
        rw [fieldsIndented, ih, Style.entries, Style.field]
        simp only [List.append_assoc, List.cons_append, List.nil_append]
        rfl
    cases fields with
    | nil => rfl
    | cons field fields =>
      rw [indented, hfields, Style.enclosed, Style.field]
      simp only [List.append_assoc, List.cons_append, List.nil_append]
      rfl

/-- A way of writing values at a depth, numbers in single precision among them. -/
structure WritesSingles (style : Style) (write : ℕ → Json → List Char) : Prop
    extends Writes style write where
  single : ∀ depth x, write depth (single x) = singleChars x

theorem writesSingles_chars : WritesSingles compact fun _ => chars where
  toWrites := writes_chars
  single _ _ := rfl

theorem writesSingles_indented : WritesSingles spaced fun depth => indented depth where
  toWrites := writes_indented
  single _ _ := rfl

/-! ### Values -/

/-- A value without numbers in single precision. -/
inductive Plain : Json → Prop where
  | null : Plain null
  | bool (b : Bool) : Plain (bool b)
  | int (i : ℤ) : Plain (int i)
  | string (s : String) : Plain (string s)
  | array {items : List Json} (h : ∀ item ∈ items, item.Plain) : Plain (array items)
  | object {fields : List (String × Json)} (h : ∀ field ∈ fields, field.2.Plain) :
      Plain (object fields)

theorem nat_inj {m n : ℕ} : nat m = nat n ↔ m = n := by rw [nat, nat, int.injEq, Int.ofNat_inj]

theorem plain_nat (n : ℕ) : (nat n).Plain := .int n

/-- The kinds of values. -/
inductive Kind where
  | null
  | bool
  | int
  | single
  | string
  | array
  | object
  deriving DecidableEq

def kind : Json → Kind
  | null => .null
  | bool _ => .bool
  | int _ => .int
  | single _ => .single
  | string _ => .string
  | array _ => .array
  | object _ => .object

/-- The kind of plain value that starts with a character. -/
def Kind.ofFirst? (c : Char) : Option Kind :=
  if c = 'n' then some .null
  else if c = 't' ∨ c = 'f' then some .bool
  else if c = '-' ∨ c.isDigit then some .int
  else if c = '"' then some .string
  else if c = '[' then some .array
  else if c = openBrace then some .object
  else none

section Writes

variable {style : Style} {write : ℕ → Json → List Char} (hwrite : Writes style write)
  {depth : ℕ} {a b : Json} {r s : List Char}

include hwrite

/-- The kind of a plain value can be told from the first character. -/
theorem Plain.head_write (h : a.Plain) (depth : ℕ) (r : List Char) :
    ∃ c, (write depth a ++ r).head? = some c ∧ Kind.ofFirst? c = some a.kind := by
  cases h with
  | null =>
    rw [hwrite.null]
    exact ⟨'n', rfl, rfl⟩
  | bool b =>
    rw [hwrite.bool]
    cases b <;> exact ⟨_, rfl, rfl⟩
  | int i =>
    rw [hwrite.int, intChars]
    split
    · exact ⟨'-', rfl, rfl⟩
    · obtain ⟨c, cs, hcs⟩ :=
        List.exists_cons_of_ne_nil (Nat.toDigits_ne_nil (b := 10) (n := i.natAbs))
      have hfirst : ∀ c ∈ Nat.toDigits 10 i.natAbs, Kind.ofFirst? c = some .int :=
        forall_mem_toDigits (by decide) (by decide)
      exact ⟨c, by rw [hcs]; rfl, hfirst c (hcs ▸ List.mem_cons_self)⟩
  | string s =>
    rw [hwrite.string]
    exact ⟨'"', rfl, rfl⟩
  | @array items h =>
    rw [hwrite.array]
    cases items <;> exact ⟨'[', rfl, rfl⟩
  | @object fields h =>
    rw [hwrite.object]
    cases fields <;> exact ⟨openBrace, rfl, rfl⟩

/-- Values with the same text are of the same kind. -/
theorem Plain.kind_eq (ha : a.Plain) (hb : b.Plain) (h : write depth a ++ r = write depth b ++ s) :
    a.kind = b.kind := by
  obtain ⟨c, hc, hkind⟩ := ha.head_write hwrite depth r
  obtain ⟨d, hd, hkind'⟩ := hb.head_write hwrite depth s
  rw [h] at hc
  cases hc.symm.trans hd
  exact Option.some.inj (hkind.symm.trans hkind')

/-- No plain value starts with a bracket that closes. -/
theorem Plain.head_write_ne_bracket (h : a.Plain) (r : List Char) :
    (write depth a ++ r).head? ≠ some ']' := by
  intro hbracket
  obtain ⟨c, hc, hkind⟩ := h.head_write hwrite depth r
  cases hbracket.symm.trans hc
  cases hkind

/-- **A plain value can be told from its text**, and so can what follows, if that does not go on
with a digit. -/
theorem Plain.toldApart (ha : a.Plain) (hb : b.Plain) : Style.ToldApart (write depth) a b := by
  intro r s hr hs h
  induction ha generalizing depth b r s with
  | null =>
    have hkind := Plain.null.kind_eq hwrite hb h
    cases hb with
    | null => exact ⟨rfl, List.append_cancel_left h⟩
    | _ => cases hkind
  | bool x =>
    have hkind := (Plain.bool x).kind_eq hwrite hb h
    cases hb with
    | bool y =>
      rw [hwrite.bool, hwrite.bool] at h
      cases x <;> cases y
      · exact ⟨rfl, List.append_cancel_left h⟩
      · cases (List.cons.inj h).1
      · cases (List.cons.inj h).1
      · exact ⟨rfl, List.append_cancel_left h⟩
    | _ => cases hkind
  | int i =>
    have hkind := (Plain.int i).kind_eq hwrite hb h
    cases hb with
    | int j =>
      rw [hwrite.int, hwrite.int] at h
      obtain ⟨rfl, hrest⟩ := intChars_append_inj hr hs h
      exact ⟨rfl, hrest⟩
    | _ => cases hkind
  | string x =>
    have hkind := (Plain.string x).kind_eq hwrite hb h
    cases hb with
    | string y =>
      rw [hwrite.string, hwrite.string] at h
      obtain ⟨rfl, hrest⟩ := stringChars_append_inj h
      exact ⟨rfl, hrest⟩
    | _ => cases hkind
  | @array items hitems ih =>
    have hkind := (Plain.array hitems).kind_eq hwrite hb h
    cases hb with
    | @array items' hitems' =>
      rw [hwrite.array, hwrite.array] at h
      obtain ⟨rfl, hrest⟩ := Style.enclosed_append_inj (by decide)
        (fun x hx => (hitems x hx).head_write_ne_bracket hwrite)
        (fun y hy => (hitems' y hy).head_write_ne_bracket hwrite)
        (fun x hx y hy => ih x hx (hitems' y hy)) h
      exact ⟨rfl, hrest⟩
    | _ => cases hkind
  | @object fields hfields ih =>
    have hkind := (Plain.object hfields).kind_eq hwrite hb h
    cases hb with
    | @object fields' hfields' =>
      rw [hwrite.object, hwrite.object] at h
      -- a field starts with the quote of its name
      have hquote (field : String × Json) (r : List Char) :
          (style.field (write (depth + 1)) field ++ r).head? ≠ some closeBrace := by
        intro hbrace
        exact absurd (Option.some.inj hbrace) (by decide)
      obtain ⟨rfl, hrest⟩ := Style.enclosed_append_inj (by decide)
        (fun x _ => hquote x) (fun y _ => hquote y)
        (fun x hx y hy => Style.toldApart_field (ih x hx (hfields' y hy))) h
      exact ⟨rfl, hrest⟩
    | _ => cases hkind

/-- Two plain values are the same if their texts are. -/
theorem Plain.write_inj (ha : a.Plain) (hb : b.Plain) (depth : ℕ) :
    write depth a = write depth b ↔ a = b := by
  have hends : EndsNumber [] := by
    intro c hc
    cases hc
  constructor
  · intro h
    exact (ha.toldApart hwrite hb hends hends (congrArg (· ++ []) h)).1
  · rintro rfl
    rfl

end Writes

/-- **A text in one line has one plain value.** -/
theorem text_inj {a b : Json} (ha : a.Plain) (hb : b.Plain) : a.text = b.text ↔ a = b := by
  rw [text, text, String.ofList_inj]
  exact ha.write_inj writes_chars hb 0

/-- **An indented text has one plain value.** -/
theorem prettyText_inj {a b : Json} (ha : a.Plain) (hb : b.Plain) :
    a.prettyText = b.prettyText ↔ a = b := by
  rw [prettyText, prettyText, String.ofList_inj]
  exact ha.write_inj writes_indented hb 0

end Json
end JobSandbox
