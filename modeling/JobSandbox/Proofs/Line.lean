import JobSandbox.Text.Line
import Mathlib.Data.List.Infix

/-!
# A message written in parts

Written at once, a message leaves on its line the longest front of whole characters that fits.  As
long as everything fits it makes no difference how the message is split.  Where the line is cut it
keeps up to three bytes of room, too little for the character that was dropped, but perhaps enough
for the first one of a later part: that part is then kept behind a gap.

`IsCut` names the parts up to the one that is cut.  Up to there the parts and the whole message
leave the same line, and behind it a line only ever gains bytes, so the two lines differ exactly if
a later part gains some.

## Main definitions

* `IsLongestFront` — the longest front of a text within a number of bytes.
* `Line.IsCut` — the parts up to the first one that a line has no room for.
* `Line.KeptLate` — a message of which some part is kept behind dropped text.

## Main results

* `isLongestFront_fitting` — what is kept of a part is the longest front that fits.
* `Line.foldl_write_eq_self_iff` — what later parts leave of a line that has been cut.
* `Line.ofParts_beside_ofText` — **parts leave the line of the whole message, unless text that comes
  after dropped text is kept.**
-/

namespace JobSandbox

/-! ### The longest front -/

/-- The longest front of whole characters of `cs` whose bytes find room. -/
structure IsLongestFront (room : ℕ) (cs front : List Char) : Prop where
  isPrefix : front <+: cs
  length_le : (Bytes.ofChars front).length ≤ room
  longest : ∀ other, other <+: cs → (Bytes.ofChars other).length ≤ room → other <+: front

theorem length_ofChars_cons (c : Char) (cs : List Char) :
    (Bytes.ofChars (c :: cs)).length = c.utf8Size + (Bytes.ofChars cs).length := by
  rw [Bytes.ofChars_cons, List.length_append, String.length_utf8EncodeChar]

theorem fitting_append_of_le {room : ℕ} {cs : List Char} (ds : List Char)
    (h : (Bytes.ofChars cs).length ≤ room) :
    fitting room (cs ++ ds) = cs ++ fitting (room - (Bytes.ofChars cs).length) ds := by
  induction cs generalizing room with
  | nil => simp
  | cons c cs ih =>
    rw [length_ofChars_cons] at h ⊢
    rw [List.cons_append, fitting, if_pos (by omega), ih (by omega), List.cons_append, Nat.sub_sub]

theorem fitting_of_le {room : ℕ} {cs : List Char} (h : (Bytes.ofChars cs).length ≤ room) :
    fitting room cs = cs := by
  have hend := fitting_append_of_le [] h
  rwa [fitting_nil, List.append_nil] at hend

/-- Of a text that does not fit, nothing behind it matters. -/
theorem fitting_append_of_lt {room : ℕ} {cs : List Char} (ds : List Char)
    (h : room < (Bytes.ofChars cs).length) : fitting room (cs ++ ds) = fitting room cs := by
  induction cs generalizing room with
  | nil => simp at h
  | cons c cs ih =>
    rw [length_ofChars_cons] at h
    rw [List.cons_append, fitting, fitting]
    split
    · rw [ih (by omega)]
    · rfl

/-- Something is kept exactly if the first character is. -/
theorem fitting_ne_nil_iff {room : ℕ} {cs : List Char} :
    fitting room cs ≠ [] ↔ ∃ c, cs.head? = some c ∧ c.utf8Size ≤ room := by
  cases cs with
  | nil => simp
  | cons c cs =>
    rw [fitting]
    split <;> simp [*]

/-- A text loses characters exactly if it has too many bytes. -/
theorem length_fitting_lt_iff {room : ℕ} {cs : List Char} :
    (fitting room cs).length < cs.length ↔ room < (Bytes.ofChars cs).length := by
  constructor
  · intro hlost
    by_contra hfits
    rw [fitting_of_le (by omega)] at hlost
    omega
  · intro hover
    have hle := (fitting_isPrefix room cs).length_le
    have hne : fitting room cs ≠ cs := by
      intro hall
      have hroom := length_ofChars_fitting_le room cs
      rw [hall] at hroom
      omega
    have : (fitting room cs).length ≠ cs.length :=
      fun heq => hne ((fitting_isPrefix room cs).eq_of_length heq)
    omega

/-- The room that is left has no place for the next character, whatever it is. -/
theorem room_lt_length_fitting_add {room : ℕ} {cs : List Char}
    (h : room < (Bytes.ofChars cs).length) :
    room < (Bytes.ofChars (fitting room cs)).length + 4 := by
  induction cs generalizing room with
  | nil => simp at h
  | cons c cs ih =>
    have hsize := c.utf8Size_le_four
    rw [length_ofChars_cons] at h
    rw [fitting]
    split
    · have hrest := ih (show room - c.utf8Size < (Bytes.ofChars cs).length by omega)
      rw [length_ofChars_cons]
      omega
    · omega

theorem isLongestFront_fitting (room : ℕ) (cs : List Char) :
    IsLongestFront room cs (fitting room cs) where
  isPrefix := fitting_isPrefix room cs
  length_le := length_ofChars_fitting_le room cs
  longest := by
    rintro other ⟨rest, rfl⟩ hfits
    rw [fitting_append_of_le rest hfits]
    exact List.prefix_append _ _

namespace Line

attribute [ext] Line

/-! ### One part -/

@[simp] theorem bytes_write (line : Line) (part : String) :
    (line.write part).bytes = line.bytes ++ Bytes.ofChars (fitting line.room part.toList) := rfl

/-- A part marks the line exactly if it does not fit. -/
theorem truncated_write (line : Line) (part : String) :
    (line.write part).truncated =
      (line.truncated || decide (line.room < (Bytes.ofText part).length)) := by
  unfold write Bytes.ofText
  dsimp only
  congr 1
  exact decide_eq_decide.mpr length_fitting_lt_iff

@[simp] theorem write_empty (line : Line) : line.write "" = line := by
  simp [write]

/-- A part that fits is kept as a whole. -/
theorem write_of_le {line : Line} {part : String}
    (h : (Bytes.ofText part).length ≤ line.room) :
    line.write part = ⟨line.bytes ++ Bytes.ofText part, line.truncated⟩ := by
  apply Line.ext
  · rw [bytes_write, fitting_of_le h, Bytes.ofText]
  · rw [truncated_write, decide_eq_false (Nat.not_lt.mpr h), Bool.or_false]

theorem room_write_of_le {line : Line} {part : String}
    (h : (Bytes.ofText part).length ≤ line.room) :
    (line.write part).room = line.room - (Bytes.ofText part).length := by
  rw [write_of_le h, room, List.length_append, room, Nat.sub_sub]

/-- A text that begins with something that fits can as well be written in two parts. -/
theorem write_append_of_le {line : Line} {s : String} (t : String)
    (h : (Bytes.ofText s).length ≤ line.room) :
    line.write (s ++ t) = (line.write s).write t := by
  have hroom := room_write_of_le h
  apply Line.ext
  · rw [bytes_write, bytes_write, bytes_write, hroom, String.toList_append,
      fitting_append_of_le _ h, fitting_of_le h, Bytes.ofChars_append, List.append_assoc,
      Bytes.ofText]
  · have hfits : ¬line.room < (Bytes.ofText s).length := by omega
    have hrest : line.room < (Bytes.ofText s).length + (Bytes.ofText t).length ↔
        line.room - (Bytes.ofText s).length < (Bytes.ofText t).length := by omega
    simp only [truncated_write, hroom, Bytes.ofText_append, List.length_append, hfits, hrest,
      decide_false, Bool.or_false]

/-- Nothing behind a part that is cut is kept if both are one text. -/
theorem write_append_of_lt {line : Line} {s : String} (t : String)
    (h : line.room < (Bytes.ofText s).length) : line.write (s ++ t) = line.write s := by
  apply Line.ext
  · rw [bytes_write, bytes_write, String.toList_append, fitting_append_of_lt _ h]
  · have hover : line.room < (Bytes.ofText s).length + (Bytes.ofText t).length := by omega
    simp only [truncated_write, Bytes.ofText_append, List.length_append, h, hover]

theorem truncated_ofText {text : String} :
    (ofText text).truncated = true ↔ capacity < (Bytes.ofText text).length := by
  rw [ofText, truncated_write, Bool.or_eq_true, decide_eq_true_iff]
  exact or_iff_right Bool.false_ne_true

/-! ### Parts behind a cut -/

/-- A line never loses what it has. -/
theorem bytes_prefix_foldl_write (line : Line) (parts : List String) :
    line.bytes <+: (parts.foldl write line).bytes := by
  induction parts generalizing line with
  | nil => exact List.prefix_rfl
  | cons part parts ih =>
    have hone : line.bytes <+: (line.write part).bytes := List.prefix_append _ _
    exact hone.trans (ih (line.write part))

theorem length_foldl_write_le {line : Line} (h : line.bytes.length ≤ capacity)
    (parts : List String) : (parts.foldl write line).bytes.length ≤ capacity := by
  induction parts generalizing line with
  | nil => exact h
  | cons part parts ih => exact ih (length_write_le line part h)

theorem truncated_write_of_truncated {line : Line} (h : line.truncated = true) (part : String) :
    (line.write part).truncated = true := by
  rw [truncated_write, h, Bool.true_or]

theorem truncated_foldl_write {line : Line} (h : line.truncated = true) (parts : List String) :
    (parts.foldl write line).truncated = true := by
  induction parts generalizing line with
  | nil => exact h
  | cons part parts ih => exact ih (truncated_write_of_truncated h part)

/-- A line that has been cut is left alone by the parts of which it keeps nothing. -/
theorem write_eq_self_iff {line : Line} (h : line.truncated = true) (part : String) :
    line.write part = line ↔ fitting line.room part.toList = [] := by
  constructor
  · intro hself
    have hbytes := congrArg Line.bytes hself
    rw [bytes_write, List.append_right_eq_self] at hbytes
    cases hkept : fitting line.room part.toList with
    | nil => rfl
    | cons c kept =>
      have hlength := congrArg List.length hbytes
      rw [hkept, length_ofChars_cons, List.length_nil] at hlength
      have hpos := c.utf8Size_pos
      omega
  · intro hnone
    refine Line.ext ?_ ((truncated_write_of_truncated h part).trans h.symm)
    rw [bytes_write, hnone, Bytes.ofChars_nil, List.append_nil]

/-- **What later parts leave of a line that has been cut.**  As a line only gains bytes, it stays as
it is exactly if each of them by itself would leave it alone. -/
theorem foldl_write_eq_self_iff {line : Line} (h : line.truncated = true) (parts : List String) :
    parts.foldl write line = line ↔ ∀ part ∈ parts, fitting line.room part.toList = [] := by
  induction parts with
  | nil => simp
  | cons part parts ih =>
    rw [List.foldl_cons, List.forall_mem_cons, ← write_eq_self_iff h, ← ih]
    constructor
    · intro hself
      have hback := bytes_prefix_foldl_write (line.write part) parts
      rw [hself] at hback
      have hforth : line.bytes.length ≤ (line.write part).bytes.length :=
        (bytes_prefix_foldl_write line [part]).length_le
      have hone : line.write part = line :=
        Line.ext (hback.eq_of_length_le hforth) ((truncated_write_of_truncated h part).trans h.symm)
      rw [hone] at hself
      exact ⟨hone, hself⟩
    · rintro ⟨hone, hrest⟩
      rw [hone, hrest]

/-! ### Parts up to the cut -/

/-- Parts that fit together can as well be one text. -/
theorem foldl_write_of_le {line : Line} {parts : List String}
    (h : (Bytes.ofText (String.join parts)).length ≤ line.room) :
    parts.foldl write line = line.write (String.join parts) := by
  induction parts generalizing line with
  | nil => rw [List.foldl_nil, String.join_nil, write_empty]
  | cons part parts ih =>
    rw [String.join_cons, Bytes.ofText_append, List.length_append] at h
    have hpart : (Bytes.ofText part).length ≤ line.room := by omega
    rw [List.foldl_cons, String.join_cons, write_append_of_le _ hpart, ih]
    rw [room_write_of_le hpart]
    omega

/-- The parts up to the first one that is cut. -/
structure IsCut (line : Line) (parts upTo : List String) : Prop where
  isPrefix : upTo <+: parts
  /-- The parts before something come to more than the line has room for once all of these are
  among them. -/
  lt_iff : ∀ before, before <+: parts →
    (line.room < (Bytes.ofText (String.join before)).length ↔ upTo <+: before)
  /-- These leave the line that the whole message would leave. -/
  eq_write : upTo.foldl write line = line.write (String.join parts)

theorem isCut_singleton {line : Line} {part : String} (parts : List String)
    (h : line.room < (Bytes.ofText part).length) : IsCut line (part :: parts) [part] where
  isPrefix := ⟨parts, rfl⟩
  lt_iff := by
    intro before hbefore
    rcases List.prefix_cons_iff.mp hbefore with rfl | ⟨before, rfl, -⟩
    · simp [Bytes.ofText]
    · rw [String.join_cons, Bytes.ofText_append, List.length_append]
      exact iff_of_true (by omega) ⟨before, rfl⟩
  eq_write := by
    rw [String.join_cons, write_append_of_lt _ h, List.foldl_cons, List.foldl_nil]

theorem IsCut.cons {line : Line} {part : String} {parts upTo : List String}
    (h : (Bytes.ofText part).length ≤ line.room) (cut : IsCut (line.write part) parts upTo) :
    IsCut line (part :: parts) (part :: upTo) where
  isPrefix := (List.prefix_cons_inj part).mpr cut.isPrefix
  lt_iff := by
    intro before hbefore
    rcases List.prefix_cons_iff.mp hbefore with rfl | ⟨before, rfl, hrest⟩
    · simp [Bytes.ofText]
    · have hiff := cut.lt_iff before hrest
      rw [room_write_of_le h] at hiff
      rw [List.prefix_cons_inj, ← hiff, String.join_cons, Bytes.ofText_append, List.length_append]
      omega
  eq_write := by
    rw [List.foldl_cons, cut.eq_write, String.join_cons, write_append_of_le _ h]

/-- Parts that do not fit together are cut somewhere. -/
theorem exists_isCut {line : Line} {parts : List String}
    (h : line.room < (Bytes.ofText (String.join parts)).length) :
    ∃ upTo, IsCut line parts upTo := by
  induction parts generalizing line with
  | nil => simp [Bytes.ofText] at h
  | cons part parts ih =>
    rcases Nat.lt_or_ge line.room (Bytes.ofText part).length with hcut | hfits
    · exact ⟨[part], isCut_singleton parts hcut⟩
    · rw [String.join_cons, Bytes.ofText_append, List.length_append] at h
      have hrest : (line.write part).room < (Bytes.ofText (String.join parts)).length := by
        rw [room_write_of_le hfits]
        omega
      obtain ⟨upTo, cut⟩ := ih hrest
      exact ⟨part :: upTo, cut.cons hfits⟩

/-! ### The parts and the whole -/

/-- A message with a part that comes after dropped text, and whose first character nevertheless
finds room behind what was kept. -/
def KeptLate (parts : List String) : Prop :=
  ∃ before part after c, parts = before ++ part :: after ∧
    (ofText (String.join before)).truncated = true ∧ part.toList.head? = some c ∧
    c.utf8Size ≤ (ofText (String.join parts)).room

/-- Text is kept late if a part behind the cut begins with a character that fits. -/
theorem IsCut.keptLate_iff {parts upTo late : List String} (cut : IsCut blank parts upTo)
    (hparts : upTo ++ late = parts) :
    KeptLate parts ↔
      ∃ part ∈ late, fitting (ofText (String.join parts)).room part.toList ≠ [] := by
  constructor
  · rintro ⟨before, part, after, c, hsplit, hpast, hhead, hsize⟩
    have hbefore : before <+: parts := hsplit ▸ List.prefix_append _ _
    obtain ⟨between, rfl⟩ := (cut.lt_iff before hbefore).mp (truncated_ofText.mp hpast)
    rw [← hparts, List.append_assoc] at hsplit
    have hlate : late = between ++ part :: after := List.append_cancel_left hsplit
    have hmem : part ∈ late := by
      rw [hlate]
      exact List.mem_append_right _ List.mem_cons_self
    exact ⟨part, hmem, fitting_ne_nil_iff.mpr ⟨c, hhead, hsize⟩⟩
  · rintro ⟨part, hmem, hkept⟩
    obtain ⟨c, hhead, hsize⟩ := fitting_ne_nil_iff.mp hkept
    obtain ⟨between, after, rfl⟩ := List.mem_iff_append.mp hmem
    have hbefore : upTo ++ between <+: parts :=
      ⟨part :: after, by rw [List.append_assoc, hparts]⟩
    have hpast := (cut.lt_iff _ hbefore).mpr (List.prefix_append upTo between)
    exact ⟨upTo ++ between, part, after, c, by rw [List.append_assoc, hparts],
      truncated_ofText.mpr hpast, hhead, hsize⟩

/-- A message that fits as a whole has nothing behind a cut. -/
theorem not_keptLate_of_le {parts : List String}
    (h : (Bytes.ofText (String.join parts)).length ≤ capacity) : ¬KeptLate parts := by
  rintro ⟨before, part, after, c, rfl, hpast, -⟩
  have hover := truncated_ofText.mp hpast
  rw [String.join_append, Bytes.ofText_append, List.length_append] at h
  omega

/-- A line that has been cut has less room than the largest character takes. -/
theorem capacity_lt_length_bytes_ofText {text : String}
    (h : (ofText text).truncated = true) : capacity < (ofText text).bytes.length + 4 :=
  room_lt_length_fitting_add (truncated_ofText.mp h)

/-- **Parts leave the line of the whole message, unless text that comes after dropped text is
kept.**  The line of the whole message is its longest front that fits.  The line of its parts has
the same mark and the same bytes, and perhaps up to three more; it has some exactly if a part that
comes after dropped text begins with a character that fits. -/
theorem ofParts_beside_ofText (parts : List String) :
    (∃ front, IsLongestFront capacity (String.join parts).toList front ∧
      (ofText (String.join parts)).bytes = Bytes.ofChars front) ∧
    (ofParts parts).truncated = (ofText (String.join parts)).truncated ∧
    (∃ late, (ofParts parts).bytes = (ofText (String.join parts)).bytes ++ late ∧
      late.length < 4) ∧
    (ofParts parts = ofText (String.join parts) ↔ ¬KeptLate parts) := by
  refine ⟨⟨_, isLongestFront_fitting capacity _, rfl⟩, ?_⟩
  rcases Nat.lt_or_ge capacity (Bytes.ofText (String.join parts)).length with hcut | hfits
  · obtain ⟨upTo, cut⟩ : ∃ upTo, IsCut blank parts upTo := exists_isCut hcut
    obtain ⟨late, hparts⟩ := cut.isPrefix
    have hmarked : (ofText (String.join parts)).truncated = true := truncated_ofText.mpr hcut
    -- up to the cut the two lines are the same; what follows is written on that one
    have hlate : ofParts parts = late.foldl write (ofText (String.join parts)) := by
      rw [ofParts, ← hparts, List.foldl_append, hparts, cut.eq_write, ofText]
    rw [cut.keptLate_iff hparts, hlate]
    refine ⟨(truncated_foldl_write hmarked late).trans hmarked.symm, ?_, ?_⟩
    · obtain ⟨extra, hextra⟩ := bytes_prefix_foldl_write (ofText (String.join parts)) late
      have hroom := capacity_lt_length_bytes_ofText hmarked
      have hbound : (ofParts parts).bytes.length ≤ capacity :=
        length_foldl_write_le (Nat.zero_le _) parts
      rw [hlate, ← hextra, List.length_append] at hbound
      exact ⟨extra, hextra.symm, by omega⟩
    · simp only [foldl_write_eq_self_iff hmarked, not_exists, not_and, not_not]
  · have hsame : ofParts parts = ofText (String.join parts) := foldl_write_of_le hfits
    refine ⟨congrArg truncated hsame, ⟨[], ?_, by decide⟩, iff_of_true hsame ?_⟩
    · rw [hsame, List.append_nil]
    · exact not_keptLate_of_le hfits

/-- Letters up to the last byte of a line, a character of two bytes and one more letter. -/
def gapped : List String := [String.ofList (List.replicate 255 'a'), "é", "b"]

/-- Written in parts, the last letter stands where the dropped character would begin. -/
theorem ofParts_ne_ofText_of_gapped :
    ofParts gapped = ⟨List.replicate 255 97 ++ [98], true⟩ ∧
    ofText (String.join gapped) = ⟨List.replicate 255 97, true⟩ ∧
    ofParts gapped ≠ ofText (String.join gapped) := by
  have hletters : Bytes.ofText (String.ofList (List.replicate 255 'a')) =
      List.replicate 255 97 := by
    rw [Bytes.ofText, String.toList_ofList]
    decide +kernel
  have hfits : (Bytes.ofText (String.ofList (List.replicate 255 'a'))).length ≤ blank.room := by
    rw [hletters, List.length_replicate]
    exact Nat.le_succ 255
  have hfilled : blank.write (String.ofList (List.replicate 255 'a')) =
      ⟨List.replicate 255 97, false⟩ := by
    rw [write_of_le hfits, hletters]
    rfl
  have hroom : ∀ mark, room ⟨List.replicate 255 97, mark⟩ = 1 := fun mark => by
    rw [room, List.length_replicate, capacity]
  have hover : room ⟨List.replicate 255 97, false⟩ < (Bytes.ofText "é").length := by
    rw [hroom]
    decide
  have hdropped : write ⟨List.replicate 255 97, false⟩ "é" = ⟨List.replicate 255 97, true⟩ := by
    rw [write, hroom]
    exact Line.ext (List.append_nil _) rfl
  have hkept : write ⟨List.replicate 255 97, true⟩ "b" =
      ⟨List.replicate 255 97 ++ [98], true⟩ := by
    rw [write, hroom]
    exact Line.ext rfl rfl
  have hparts : ofParts gapped = ⟨List.replicate 255 97 ++ [98], true⟩ := by
    rw [ofParts, gapped, List.foldl_cons, List.foldl_cons, List.foldl_cons, List.foldl_nil,
      hfilled, hdropped, hkept]
  have hwhole : ofText (String.join gapped) = ⟨List.replicate 255 97, true⟩ := by
    rw [ofText, gapped, String.join_cons, write_append_of_le _ hfits, hfilled, String.join_cons,
      write_append_of_lt _ hover, hdropped]
  refine ⟨hparts, hwhole, ?_⟩
  rw [hparts, hwhole]
  intro hsame
  exact List.cons_ne_nil _ _ (List.append_right_eq_self.mp (congrArg Line.bytes hsame))

end Line
end JobSandbox
