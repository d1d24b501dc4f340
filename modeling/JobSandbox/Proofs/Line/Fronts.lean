import JobSandbox.Host
import JobSandbox.Proofs.Line
import JobSandbox.Proofs.Utf8

/-!
# What a line keeps of each part

A part is cut by its bytes.  The place is looked for backwards, from the end of the part or of the
room, and the first place found where no character goes on is taken.  In the bytes of a text every
such place lies between two of its characters, so what is kept is the longest front of characters
that fits, and the line stays a text.

Along a message the room only shrinks by what is kept.  The mark and the length therefore say the
same: a line is marked exactly if it is shorter than its parts are together.

## Main definitions

* `Utf8.SplitsAt`, `Utf8.lastSplit` — where bytes may be cut, and the search for such a place.
* `Line.Keeps` — the fronts that a line with some room keeps of its parts.

## Main results

* `length_fitting_eq_lastSplit` — **the search backwards finds the longest front.**
* `Line.foldl_write_of_keeps` — the line after any number of parts.
* `Line.ofParts_keeps` — **a line is a text, and its mark says whether it is all of the message.**
-/

namespace JobSandbox

/-! ### Where bytes may be cut -/

namespace Utf8

/-- No character goes on at this place. -/
def SplitsAt (bytes : Bytes) (n : ℕ) : Prop :=
  n = 0 ∨ n = bytes.length ∨ ∃ b, bytes[n]? = some b ∧ ¬Follows b

instance (bytes : Bytes) (n : ℕ) : Decidable (SplitsAt bytes n) :=
  match h : bytes[n]? with
  | none => decidable_of_iff (n = 0 ∨ n = bytes.length) (by simp [SplitsAt, h])
  | some b => decidable_of_iff (n = 0 ∨ n = bytes.length ∨ ¬Follows b) (by simp [SplitsAt, h])

/-- The last place up to `n` at which bytes may be cut. -/
def lastSplit (bytes : Bytes) : (n : ℕ) → ℕ
  | 0 => 0
  | n + 1 => if SplitsAt bytes (n + 1) then n + 1 else lastSplit bytes n

theorem lastSplit_le (bytes : Bytes) (n : ℕ) : lastSplit bytes n ≤ n := by
  induction n with
  | zero => exact Nat.le_refl 0
  | succ n ih =>
    rw [lastSplit]
    split
    · exact Nat.le_refl _
    · exact ih.trans (Nat.le_succ n)

theorem splitsAt_lastSplit (bytes : Bytes) (n : ℕ) : SplitsAt bytes (lastSplit bytes n) := by
  induction n with
  | zero => exact .inl rfl
  | succ n ih =>
    rw [lastSplit]
    split
    · next h => exact h
    · exact ih

theorem le_lastSplit {bytes : Bytes} {m n : ℕ} (h : SplitsAt bytes m) (hle : m ≤ n) :
    m ≤ lastSplit bytes n := by
  induction n with
  | zero => exact hle
  | succ n ih =>
    rw [lastSplit]
    split
    · exact hle
    · next hnot =>
      have hne : m ≠ n + 1 := by
        rintro rfl
        exact hnot h
      exact ih (by omega)

variable {cs : List Char} {n : ℕ}

/-- Inside the first character of a text, it cannot be cut. -/
theorem utf8Size_le_of_splitsAt {c : Char} (h : SplitsAt (Bytes.ofChars (c :: cs)) n)
    (hpos : n ≠ 0) : c.utf8Size ≤ n := by
  by_contra hinside
  rw [SplitsAt, length_ofChars_cons] at h
  rcases h with hzero | hend | ⟨b, hb, hfirst⟩
  · exact hpos hzero
  · omega
  · have hsize := String.length_utf8EncodeChar c
    rw [Bytes.ofChars_cons, List.getElem?_append_left (by omega)] at hb
    obtain ⟨first, rest, hbytes⟩ :=
      List.exists_cons_of_ne_nil (String.utf8EncodeChar_ne_nil (c := c))
    obtain ⟨m, rfl⟩ := Nat.exists_eq_succ_of_ne_zero hpos
    rw [hbytes, List.getElem?_cons_succ] at hb
    exact hfirst ((follows_of_utf8EncodeChar hbytes).2 b (List.mem_of_getElem? hb))

/-- Behind its first character, a text can be cut where the rest of it can. -/
theorem splitsAt_rest {c : Char} (h : SplitsAt (Bytes.ofChars (c :: cs)) n)
    (hle : c.utf8Size ≤ n) : SplitsAt (Bytes.ofChars cs) (n - c.utf8Size) := by
  have hpos := c.utf8Size_pos
  rw [SplitsAt, length_ofChars_cons] at h
  rcases h with hzero | hend | ⟨b, hb, hfirst⟩
  · omega
  · exact .inr (.inl (by omega))
  · have hsize := String.length_utf8EncodeChar c
    rw [Bytes.ofChars_cons, List.getElem?_append_right (by omega), hsize] at hb
    exact .inr (.inr ⟨b, hb, hfirst⟩)

/-- **A text can be cut between two of its characters, and nowhere else.** -/
theorem splitsAt_ofChars_iff :
    SplitsAt (Bytes.ofChars cs) n ↔ ∃ front, front <+: cs ∧ (Bytes.ofChars front).length = n := by
  constructor
  · intro h
    induction cs generalizing n with
    | nil =>
      have hn : n = 0 := by simpa [SplitsAt] using h
      exact ⟨[], List.prefix_rfl, hn.symm⟩
    | cons c cs ih =>
      by_cases hzero : n = 0
      · exact ⟨[], List.nil_prefix, hzero.symm⟩
      · have hle := utf8Size_le_of_splitsAt h hzero
        obtain ⟨front, hfront, hlength⟩ := ih (splitsAt_rest h hle)
        refine ⟨c :: front, (List.prefix_cons_inj c).mpr hfront, ?_⟩
        rw [length_ofChars_cons]
        omega
  · rintro ⟨front, ⟨rest, rfl⟩, rfl⟩
    rw [Bytes.ofChars_append]
    cases rest with
    | nil => exact .inr (.inl (by rw [Bytes.ofChars_nil, List.append_nil]))
    | cons c rest =>
      obtain ⟨b, more, hbytes⟩ :=
        List.exists_cons_of_ne_nil (String.utf8EncodeChar_ne_nil (c := c))
      refine .inr (.inr ⟨b, ?_, (follows_of_utf8EncodeChar hbytes).1⟩)
      rw [List.getElem?_append_right (Nat.le_refl _), Nat.sub_self, Bytes.ofChars_cons, hbytes]
      rfl

end Utf8

/-! ### The longest front, by its bytes -/

theorem length_ofChars_le_of_prefix {front cs : List Char} (h : front <+: cs) :
    (Bytes.ofChars front).length ≤ (Bytes.ofChars cs).length := by
  obtain ⟨rest, rfl⟩ := h
  rw [Bytes.ofChars_append, List.length_append]
  exact Nat.le_add_right _ _

/-- There is one longest front. -/
theorem IsLongestFront.eq_fitting {room : ℕ} {cs front : List Char}
    (h : IsLongestFront room cs front) : front = fitting room cs := by
  have hfitting := isLongestFront_fitting room cs
  have hforth : front <+: fitting room cs := hfitting.longest front h.isPrefix h.length_le
  have hback : fitting room cs <+: front :=
    h.longest _ hfitting.isPrefix hfitting.length_le
  exact hforth.eq_of_length_le hback.length_le

/-- **The search backwards finds the longest front.** -/
theorem length_fitting_eq_lastSplit (room : ℕ) (cs : List Char) :
    (Bytes.ofChars (fitting room cs)).length =
      Utf8.lastSplit (Bytes.ofChars cs) (min (Bytes.ofChars cs).length room) := by
  have hfitting := isLongestFront_fitting room cs
  apply Nat.le_antisymm
  -- the end of the longest front is a place to cut, and the search passes none
  · have hsplits : Utf8.SplitsAt (Bytes.ofChars cs) (Bytes.ofChars (fitting room cs)).length :=
      Utf8.splitsAt_ofChars_iff.mpr ⟨_, hfitting.isPrefix, rfl⟩
    have hwhole := length_ofChars_le_of_prefix hfitting.isPrefix
    exact Utf8.le_lastSplit hsplits (Nat.le_min.mpr ⟨hwhole, hfitting.length_le⟩)
  -- and the place that is found ends some front that fits
  · obtain ⟨other, hother, hlength⟩ := Utf8.splitsAt_ofChars_iff.mp
      (Utf8.splitsAt_lastSplit (Bytes.ofChars cs) (min (Bytes.ofChars cs).length room))
    have hle := Utf8.lastSplit_le (Bytes.ofChars cs) (min (Bytes.ofChars cs).length room)
    have hroom : (Bytes.ofChars other).length ≤ room := by omega
    rw [← hlength]
    exact length_ofChars_le_of_prefix (hfitting.longest other hother hroom)

theorem ofChars_fitting_eq_take (room : ℕ) (cs : List Char) :
    Bytes.ofChars (fitting room cs) = (Bytes.ofChars cs).take
      (Utf8.lastSplit (Bytes.ofChars cs) (min (Bytes.ofChars cs).length room)) := by
  have hprefix : Bytes.ofChars (fitting room cs) <+: Bytes.ofChars cs := by
    obtain ⟨rest, hrest⟩ := fitting_isPrefix room cs
    exact ⟨Bytes.ofChars rest, by rw [← Bytes.ofChars_append, hrest]⟩
  rw [← length_fitting_eq_lastSplit]
  exact List.prefix_iff_eq_take.mp hprefix

namespace Line

/-! ### One part after the other -/

/-- What a line with some room keeps of its parts: of each the longest front that fits, and the next
one has the room that is left. -/
inductive Keeps : (room : ℕ) → (parts fronts : List String) → Prop where
  | nil {room : ℕ} : Keeps room [] []
  | cons {room : ℕ} {part front : String} {parts fronts : List String}
      (hfront : IsLongestFront room part.toList front.toList)
      (hrest : Keeps (room - (Bytes.ofText front).length) parts fronts) :
      Keeps room (part :: parts) (front :: fronts)

theorem exists_keeps (room : ℕ) (parts : List String) : ∃ fronts, Keeps room parts fronts := by
  induction parts generalizing room with
  | nil => exact ⟨[], .nil⟩
  | cons part parts ih =>
    have hfront : IsLongestFront room part.toList
        (String.ofList (fitting room part.toList)).toList := by
      rw [String.toList_ofList]
      exact isLongestFront_fitting room part.toList
    obtain ⟨fronts, hrest⟩ := ih (room - (Bytes.ofText (String.ofList _)).length)
    exact ⟨_, .cons hfront hrest⟩

variable {room : ℕ} {line : Line} {part front : String} {parts fronts : List String}

/-- A part is on the line with its longest front that fits, and marks it if that is not all. -/
theorem write_of_isLongestFront (h : IsLongestFront line.room part.toList front.toList) :
    line.write part =
      ⟨line.bytes ++ Bytes.ofText front, line.truncated || decide (front ≠ part)⟩ := by
  have hfront := h.eq_fitting
  apply Line.ext
  · rw [bytes_write, ← hfront, Bytes.ofText]
  · have hlost : line.room < (Bytes.ofText part).length ↔ front ≠ part := by
      rw [Bytes.ofText, ← length_fitting_lt_iff, ← hfront, ne_eq, ← String.toList_inj]
      constructor
      · intro hlt heq
        rw [heq] at hlt
        exact Nat.lt_irrefl _ hlt
      · intro hne
        exact Nat.lt_of_not_le fun hge => hne (h.isPrefix.eq_of_length_le hge)
    rw [truncated_write]
    exact congrArg (line.truncated || ·) (decide_eq_decide.mpr hlost)

/-- **The line after any number of parts**: what it had, what it keeps of them, and a mark if that
is not all. -/
theorem foldl_write_of_keeps (h : Keeps line.room parts fronts) :
    parts.foldl write line =
      ⟨line.bytes ++ Bytes.ofText (String.join fronts),
        line.truncated || decide (fronts ≠ parts)⟩ := by
  induction parts generalizing line fronts with
  | nil =>
    cases h
    simp [Bytes.ofText]
  | cons part parts ih =>
    cases h with
    | @cons _ _ front _ fronts hfront hrest =>
      have hwrite := write_of_isLongestFront hfront
      -- the next part finds the room that this front has left
      have hroom : (line.write part).room = line.room - (Bytes.ofText front).length := by
        rw [hwrite, Line.room, List.length_append, Line.room, Nat.sub_sub]
      have hmark : (decide (front ≠ part) || decide (fronts ≠ parts)) =
          decide (front :: fronts ≠ part :: parts) := by
        rw [← Bool.decide_or]
        refine decide_eq_decide.mpr ?_
        rw [ne_eq (front :: fronts), List.cons.injEq, Decidable.not_and_iff_not_or_not]
      rw [← hroom] at hrest
      rw [List.foldl_cons, ih hrest, hwrite, String.join_cons, Bytes.ofText_append,
        ← List.append_assoc, Bool.or_assoc, hmark]

/-- What is kept of a message is as long as the message only if it is all of it. -/
theorem Keeps.length_le (h : Keeps room parts fronts) :
    (Bytes.ofText (String.join fronts)).length ≤ (Bytes.ofText (String.join parts)).length ∧
      ((Bytes.ofText (String.join fronts)).length = (Bytes.ofText (String.join parts)).length ↔
        fronts = parts) := by
  induction h with
  | nil => exact ⟨Nat.le_refl _, iff_of_true rfl rfl⟩
  | @cons room part front parts fronts hfront hrest ih =>
    obtain ⟨hle, hiff⟩ := ih
    have hpart : (Bytes.ofText front).length ≤ (Bytes.ofText part).length :=
      length_ofChars_le_of_prefix hfront.isPrefix
    have hsame : (Bytes.ofText front).length = (Bytes.ofText part).length ↔ front = part := by
      constructor
      · intro hlength
        -- a part of the same length as its front would itself be a front that fits
        have hback : part.toList <+: front.toList :=
          hfront.longest _ List.prefix_rfl (hlength ▸ hfront.length_le)
        exact String.toList_inj.mp (hfront.isPrefix.eq_of_length_le hback.length_le)
      · exact fun heq => by rw [heq]
    simp only [String.join_cons, Bytes.ofText_append, List.length_append, List.cons.injEq,
      ← hsame, ← hiff]
    omega

/-- **A line is a text, and its mark says whether it is all of the message.**  Each part adds its
longest front of whole characters that fits, which is what the search backwards for a place to cut
finds.  A line that is not marked holds the message; one that is marked is shorter. -/
theorem ofParts_keeps (parts : List String) :
    (ofParts parts).bytes.length ≤ capacity ∧
    (∀ part, ∃ front : String,
      IsLongestFront (ofParts parts).room part.toList front.toList ∧
      (ofParts (parts ++ [part])).bytes = (ofParts parts).bytes ++ Bytes.ofText front ∧
      Bytes.ofText front = (Bytes.ofText part).take (Utf8.lastSplit (Bytes.ofText part)
        (min (Bytes.ofText part).length (ofParts parts).room))) ∧
    (∃ fronts, Keeps capacity parts fronts ∧
      (ofParts parts).bytes = Bytes.ofText (String.join fronts) ∧
      Utf8.decode? (ofParts parts).bytes = some (String.join fronts) ∧
      (∀ host : Host,
        (host.perform (.logLine parts)).2.logs = host.logs ++ [String.join fronts]) ∧
      ((ofParts parts).truncated = true ↔ fronts ≠ parts)) ∧
    ((ofParts parts).truncated = true ↔
      (ofParts parts).bytes.length ≠ (Bytes.ofText (String.join parts)).length) ∧
    ((ofParts parts).truncated = false ↔
      (ofParts parts).bytes = Bytes.ofText (String.join parts)) := by
  obtain ⟨fronts, hkeeps⟩ := exists_keeps capacity parts
  have hline : ofParts parts = ⟨Bytes.ofText (String.join fronts), decide (fronts ≠ parts)⟩ :=
    foldl_write_of_keeps (show Keeps blank.room parts fronts from hkeeps)
  have hlength := hkeeps.length_le.2
  refine ⟨length_foldl_write_le (Nat.zero_le _) parts, ?_, ⟨fronts, hkeeps, ?_, ?_, ?_, ?_⟩, ?_, ?_⟩
  · intro part
    have hfront : IsLongestFront (ofParts parts).room part.toList
        (String.ofList (fitting (ofParts parts).room part.toList)).toList := by
      rw [String.toList_ofList]
      exact isLongestFront_fitting _ _
    refine ⟨_, hfront, ?_, ?_⟩
    · rw [ofParts_append_singleton, write_of_isLongestFront hfront]
    · rw [Bytes.ofText, String.toList_ofList]
      exact ofChars_fitting_eq_take _ _
  · rw [hline]
  · rw [hline, Utf8.decode?_eq_some_iff]
  · intro host
    rw [Request.logLine, hline]
    simp [Host.perform, Host.log, Host.logs, Host.record, HostCall.logged?]
  · rw [hline, decide_eq_true_iff]
  · rw [hline]
    exact decide_eq_true_iff.trans (not_congr hlength.symm)
  · rw [hline, decide_eq_false_iff_not, not_not]
    constructor
    · rintro rfl
      rfl
    · intro hbytes
      exact hlength.mp (congrArg List.length hbytes)

end Line
end JobSandbox
