import JobSandbox.Proofs.Utf8.Encoding

/-!
# What is read of UTF-8

A scan goes over the bytes once and never back, so what it says at a byte has to be right whatever
follows.  Here its answer is described without it.  A byte string is read off in characters as long
as one stands there; where none does, the longest stretch with which a character could begin is one
gap, and so is a single byte with which none can.  There is one such reading of every byte string,
and the scan finds it.

The bytes of a text are therefore read as that text, and no other bytes are read without a gap.

## Main definitions

* `Begins` — bytes with which some character begins.
* `IsGap`, `Reads` — a stretch that is no character, and the reading of a byte string.

## Main results

* `scan_eq_iff` — **a scan finds the reading of every byte string.**
* `decode?_eq_some_iff` — **text is read from its own bytes, and from no others.**
* `lossy_ofText` — the bytes of a text are read without a replacement.
-/

namespace JobSandbox
namespace Utf8

/-! ### Steps of a scan -/

section Steps

variable {p : Pending} {found : List (Option Char)} {rest : Bytes} {c : Char}

theorem step_of_first (b : UInt8) : step ⟨found, none⟩ b = start found b := rfl

theorem step_of_outside {b : UInt8} (hb : ¬(p.low ≤ b.toNat ∧ b.toNat ≤ p.high)) :
    step ⟨found, some p⟩ b = start (none :: found) b := by
  rw [step]
  exact if_neg hb

theorem step_of_last {b : UInt8} (hb : p.low ≤ b.toNat ∧ b.toNat ≤ p.high) (howed : p.owed = 1) :
    step ⟨found, some p⟩ b = ⟨some (Char.ofNat (p.bitsWith b)) :: found, none⟩ := by
  rw [step]
  exact (if_pos hb).trans (if_pos howed)

theorem step_of_more {b : UInt8} (hb : p.low ≤ b.toNat ∧ b.toNat ≤ p.high) (howed : p.owed ≠ 1) :
    step ⟨found, some p⟩ b = ⟨found, some (p.next b)⟩ := by
  rw [step]
  exact (if_pos hb).trans (if_neg howed)

/-- Bytes that complete a character bring it. -/
theorem foldl_step_of_completes (h : p.Completes rest c) :
    rest.foldl step ⟨found, some p⟩ = ⟨some c :: found, none⟩ := by
  induction rest generalizing p with
  | nil => cases h
  | cons b rest ih =>
    obtain ⟨hb, hrest⟩ := h
    rw [List.foldl_cons]
    split at hrest
    · next howed =>
      obtain ⟨hnil, hc⟩ := hrest
      rw [step_of_last hb howed, hnil, hc, List.foldl_nil]
    · next howed =>
      rw [step_of_more hb howed, ih hrest]

/-- Bytes that leave something to be completed bring nothing yet, and what may follow them is what
completes the character that is then under way. -/
theorem foldl_step_of_completes_append (found : List (Option Char)) {more : Bytes}
    (h : p.Completes (more ++ rest) c) (hne : rest ≠ []) :
    ∃ p' : Pending, more.foldl step ⟨found, some p⟩ = ⟨found, some p'⟩ ∧
      ∀ rest' c', p.Completes (more ++ rest') c' ↔ p'.Completes rest' c' := by
  induction more generalizing p with
  | nil => exact ⟨p, rfl, fun _ _ => Iff.rfl⟩
  | cons b more ih =>
    obtain ⟨hb, hrest⟩ := h
    have howed : p.owed ≠ 1 := by
      intro hone
      rw [if_pos hone] at hrest
      exact hne (List.append_eq_nil_iff.mp hrest.1).2
    rw [if_neg howed] at hrest
    obtain ⟨p', hfold, hiff⟩ := ih hrest
    refine ⟨p', ?_, ?_⟩
    · rw [List.foldl_cons, step_of_more hb howed, hfold]
    · intro rest' c'
      rw [List.cons_append, Pending.Completes, if_neg howed, ← hiff]
      exact and_iff_right hb

end Steps

/-! ### Readings -/

/-- Some character begins with these bytes. -/
def Begins (bytes : Bytes) : Prop := ∃ c, bytes <+: String.utf8EncodeChar c

/-- A stretch that is no character, if `rest` follows it. -/
inductive IsGap : (gap rest : Bytes) → Prop where
  /-- No character begins with it. -/
  | stray {b : UInt8} {rest : Bytes} (hb : ¬Begins [b]) : IsGap [b] rest
  /-- A character begins with it, but there the character breaks off. -/
  | brokenOff {gap rest : Bytes} (hne : gap ≠ []) (hbegins : Begins gap)
      (hcut : ∀ c, String.utf8EncodeChar c ≠ gap)
      (hlongest : ∀ b, rest.head? = some b → ¬Begins (gap ++ [b])) : IsGap gap rest

/-- The characters of a byte string, with `none` for each gap between them. -/
inductive Reads : Bytes → List (Option Char) → Prop where
  | nil : Reads [] []
  | char (c : Char) {rest : Bytes} {found : List (Option Char)} (hrest : Reads rest found) :
      Reads (String.utf8EncodeChar c ++ rest) (some c :: found)
  | gap {gap rest : Bytes} {found : List (Option Char)} (hgap : IsGap gap rest)
      (hrest : Reads rest found) : Reads (gap ++ rest) (none :: found)

/-- A first byte with which no character begins is taken for none. -/
theorem lead_of_not_begins {b : UInt8} (h : ¬Begins [b]) : lead b.toNat = .invalid := by
  cases hlead : lead b.toNat with
  | whole c =>
    refine absurd ⟨c, ?_⟩ h
    rw [utf8EncodeChar_of_whole hlead]
  | more p =>
    obtain ⟨-, howed, -, hle, hhigh⟩ := bounds_of_lead hlead
    have hlow : (UInt8.ofNat p.low).toNat = p.low :=
      UInt8.toNat_ofNat_of_lt' (Nat.lt_of_le_of_lt (hle.trans hhigh) (by decide))
    obtain ⟨rest, c, hrest⟩ := p.exists_completes (b := UInt8.ofNat p.low) howed (by omega)
    refine absurd ⟨c, ?_⟩ h
    rw [utf8EncodeChar_of_more hlead hrest]
    exact ⟨_, rfl⟩
  | invalid => rfl

/-- After a stretch that breaks a character off, that character is under way, and a byte is within
its bounds if the stretch could go on with it. -/
theorem exists_pending_of_begins {gap : Bytes} (hne : gap ≠ []) (hbegins : Begins gap)
    (hcut : ∀ c, String.utf8EncodeChar c ≠ gap) (found : List (Option Char)) :
    ∃ p, gap.foldl step ⟨found, none⟩ = ⟨found, some p⟩ ∧
      ∀ b : UInt8, Begins (gap ++ [b]) ↔ p.low ≤ b.toNat ∧ b.toNat ≤ p.high := by
  obtain ⟨first, more, rfl⟩ := List.exists_cons_of_ne_nil hne
  obtain ⟨c, rest, hrest⟩ := hbegins
  have hwanted : rest ≠ [] := by
    rintro rfl
    rw [List.append_nil] at hrest
    exact hcut c hrest.symm
  rcases utf8EncodeChar_eq_cons_iff.mp hrest.symm with ⟨-, hnil⟩ | ⟨p₀, hlead, hcompletes⟩
  · exact absurd (List.append_eq_nil_iff.mp hnil).2 hwanted
  obtain ⟨p, hfold, hiff⟩ := foldl_step_of_completes_append found hcompletes hwanted
  have howed : 0 < p.owed := by
    rw [← ((hiff rest c).mp hcompletes).length_eq]
    exact List.length_pos_iff.mpr hwanted
  refine ⟨p, ?_, ?_⟩
  · rw [List.foldl_cons, step_of_first, start, hlead, hfold]
  · intro b
    constructor
    · rintro ⟨c', rest', hrest'⟩
      rw [List.append_assoc, List.cons_append] at hrest'
      rcases utf8EncodeChar_eq_cons_iff.mp hrest'.symm with ⟨-, hnil⟩ | ⟨p₁, hlead₁, hcompletes₁⟩
      · simp at hnil
      · rw [hlead] at hlead₁
        cases hlead₁
        exact ((hiff _ c').mp hcompletes₁).1
    · intro hb
      obtain ⟨rest', c', hrest'⟩ := p.exists_completes howed hb
      refine ⟨c', rest', ?_⟩
      rw [utf8EncodeChar_of_more hlead ((hiff _ c').mpr hrest'), List.append_assoc]
      rfl

/-! ### The scan and the reading -/

/-- What was found before stays in front of what is found later. -/
theorem foldl_step_found (bytes : Bytes) (later found : List (Option Char))
    (pending : Option Pending) :
    bytes.foldl step ⟨later ++ found, pending⟩ =
      ⟨(bytes.foldl step ⟨later, pending⟩).found ++ found,
        (bytes.foldl step ⟨later, pending⟩).pending⟩ := by
  induction bytes generalizing later pending with
  | nil => rfl
  | cons b bytes ih =>
    have hstart (earlier : List (Option Char)) :
        start (earlier ++ found) b =
          ⟨(start earlier b).found ++ found, (start earlier b).pending⟩ := by
      unfold start
      cases lead b.toNat <;> rfl
    have hstep : step ⟨later ++ found, pending⟩ b =
        ⟨(step ⟨later, pending⟩ b).found ++ found, (step ⟨later, pending⟩ b).pending⟩ := by
      cases pending with
      | none => exact hstart later
      | some p =>
        by_cases hb : p.low ≤ b.toNat ∧ b.toNat ≤ p.high
        · by_cases howed : p.owed = 1
          · rw [step_of_last hb howed, step_of_last hb howed]
            rfl
          · rw [step_of_more hb howed, step_of_more hb howed]
        · rw [step_of_outside hb, step_of_outside hb]
          exact hstart (none :: later)
    rw [List.foldl_cons, List.foldl_cons, hstep, ih]

/-- Between two characters, a scan starts afresh. -/
theorem finish_foldl_step (found : List (Option Char)) (bytes : Bytes) :
    finish (bytes.foldl step ⟨found, none⟩) = found.reverse ++ scan bytes := by
  have hfold := foldl_step_found bytes [] found none
  rw [List.nil_append] at hfold
  rw [hfold, scan]
  generalize bytes.foldl step ⟨[], none⟩ = state
  obtain ⟨later, pending⟩ := state
  cases pending <;> simp [finish]

theorem foldl_step_utf8EncodeChar (found : List (Option Char)) (c : Char) :
    (String.utf8EncodeChar c).foldl step ⟨found, none⟩ = ⟨some c :: found, none⟩ := by
  obtain ⟨b, rest, hbytes⟩ := List.exists_cons_of_ne_nil (String.utf8EncodeChar_ne_nil (c := c))
  rw [hbytes, List.foldl_cons, step_of_first, start]
  rcases utf8EncodeChar_eq_cons_iff.mp hbytes with ⟨hlead, rfl⟩ | ⟨p, hlead, hrest⟩
  · rw [hlead, List.foldl_nil]
  · rw [hlead]
    exact foldl_step_of_completes hrest

theorem scan_utf8EncodeChar_append (c : Char) (rest : Bytes) :
    scan (String.utf8EncodeChar c ++ rest) = some c :: scan rest := by
  rw [scan, List.foldl_append, foldl_step_utf8EncodeChar, finish_foldl_step]
  rfl

theorem scan_gap_append {gap rest : Bytes} (h : IsGap gap rest) :
    scan (gap ++ rest) = none :: scan rest := by
  cases h with
  | @stray b _ hb =>
    have hstep : step ⟨[], none⟩ b = ⟨[none], none⟩ := by
      rw [step_of_first, start, lead_of_not_begins hb]
    rw [scan, List.singleton_append, List.foldl_cons, hstep, finish_foldl_step]
    rfl
  | brokenOff hne hbegins hcut hlongest =>
    obtain ⟨p, hfold, hiff⟩ := exists_pending_of_begins hne hbegins hcut []
    rw [scan, List.foldl_append, hfold]
    cases rest with
    | nil => rfl
    | cons b rest =>
      -- the byte that does not fit is looked at again, as a first byte
      have houtside : ¬(p.low ≤ b.toNat ∧ b.toNat ≤ p.high) :=
        fun hb => hlongest b rfl ((hiff b).mpr hb)
      rw [List.foldl_cons, step_of_outside houtside, ← step_of_first, ← List.foldl_cons,
        finish_foldl_step]
      rfl

/-- Bytes with which a character begins can be followed as far as that is so. -/
theorem exists_longest_begins {gap : Bytes} (h : Begins gap) (bytes : Bytes) :
    ∃ more rest, bytes = more ++ rest ∧ Begins (gap ++ more) ∧
      ∀ b, rest.head? = some b → ¬Begins (gap ++ more ++ [b]) := by
  induction bytes generalizing gap with
  | nil =>
    refine ⟨[], [], rfl, ?_, ?_⟩
    · rwa [List.append_nil]
    · intro b hb
      cases hb
  | cons b bytes ih =>
    by_cases hb : Begins (gap ++ [b])
    · obtain ⟨more, rest, rfl, hbegins, hlongest⟩ := ih hb
      rw [List.append_assoc, List.singleton_append] at hbegins hlongest
      exact ⟨b :: more, rest, rfl, hbegins, hlongest⟩
    · refine ⟨[], b :: bytes, rfl, ?_, ?_⟩
      · rwa [List.append_nil]
      · intro b' hb'
        cases hb'
        rwa [List.append_nil]

/-- A byte string that is not empty starts with a character or with a gap. -/
theorem exists_char_or_gap (b : UInt8) (bytes : Bytes) :
    (∃ c rest, b :: bytes = String.utf8EncodeChar c ++ rest) ∨
      ∃ gap rest, b :: bytes = gap ++ rest ∧ gap ≠ [] ∧ IsGap gap rest := by
  by_cases hb : Begins [b]
  · obtain ⟨more, rest, rfl, hbegins, hlongest⟩ := exists_longest_begins hb bytes
    by_cases hwhole : ∃ c, String.utf8EncodeChar c = [b] ++ more
    · obtain ⟨c, hc⟩ := hwhole
      exact .inl ⟨c, rest, by rw [hc]; rfl⟩
    · refine .inr ⟨[b] ++ more, rest, rfl, List.cons_ne_nil b more, ?_⟩
      exact .brokenOff (List.cons_ne_nil b more) hbegins (fun c hc => hwhole ⟨c, hc⟩) hlongest
  · exact .inr ⟨[b], bytes, rfl, List.cons_ne_nil b [], .stray hb⟩

/-- Every byte string has a reading. -/
theorem exists_reads (bytes : Bytes) : ∃ found, Reads bytes found := by
  induction hlength : bytes.length using Nat.strong_induction_on generalizing bytes with
  | _ length ih =>
    cases bytes with
    | nil => exact ⟨[], .nil⟩
    | cons b bytes =>
      rcases exists_char_or_gap b bytes with ⟨c, rest, hbytes⟩ | ⟨gap, rest, hbytes, hne, hgap⟩
      · have hshorter : rest.length < length := by
          have hpos := c.utf8Size_pos
          rw [← hlength, hbytes, List.length_append, String.length_utf8EncodeChar]
          omega
        obtain ⟨found, hfound⟩ := ih _ hshorter rest rfl
        exact ⟨some c :: found, hbytes ▸ .char c hfound⟩
      · have hshorter : rest.length < length := by
          have hpos := List.length_pos_iff.mpr hne
          rw [← hlength, hbytes, List.length_append]
          omega
        obtain ⟨found, hfound⟩ := ih _ hshorter rest rfl
        exact ⟨none :: found, hbytes ▸ .gap hgap hfound⟩

theorem Reads.scan_eq {bytes : Bytes} {found : List (Option Char)} (h : Reads bytes found) :
    scan bytes = found := by
  induction h with
  | nil => rfl
  | char c hrest ih => rw [scan_utf8EncodeChar_append, ih]
  | gap hgap hrest ih => rw [scan_gap_append hgap, ih]

/-- **A scan finds the reading of every byte string**, and there is no other. -/
theorem scan_eq_iff {bytes : Bytes} {found : List (Option Char)} :
    scan bytes = found ↔ Reads bytes found := by
  constructor
  · rintro rfl
    obtain ⟨found, hfound⟩ := exists_reads bytes
    rwa [hfound.scan_eq]
  · exact Reads.scan_eq

/-! ### Texts -/

/-- A reading without gaps is one of the bytes of a text. -/
theorem reads_map_some_iff {bytes : Bytes} {cs : List Char} :
    Reads bytes (cs.map some) ↔ bytes = Bytes.ofChars cs := by
  induction cs generalizing bytes with
  | nil =>
    constructor
    · intro h
      cases h
      rfl
    · rintro rfl
      exact .nil
  | cons c cs ih =>
    constructor
    · intro h
      cases h with
      | char c hrest => rw [Bytes.ofChars_cons, ih.mp hrest]
    · rintro rfl
      exact .char c (ih.mpr rfl)

@[simp] theorem scan_ofChars (cs : List Char) : scan (Bytes.ofChars cs) = cs.map some :=
  scan_eq_iff.mpr (reads_map_some_iff.mpr rfl)

theorem mapM_id_eq_some_iff {found : List (Option Char)} {cs : List Char} :
    found.mapM id = some cs ↔ found = cs.map some := by
  induction found generalizing cs with
  | nil => cases cs <;> simp
  | cons c? found ih =>
    cases c? with
    | none => cases cs <;> simp
    | some c => cases cs <;> simp [Option.bind_eq_some_iff, ih, and_comm]

/-- **A text is read from its own bytes, and from no others.** -/
theorem decode?_eq_some_iff {bytes : Bytes} {text : String} :
    decode? bytes = some text ↔ bytes = Bytes.ofText text := by
  rw [decode?, Option.map_eq_some_iff, Bytes.ofText, ← reads_map_some_iff, ← scan_eq_iff]
  constructor
  · rintro ⟨cs, hcs, rfl⟩
    rw [mapM_id_eq_some_iff.mp hcs, String.toList_ofList]
  · intro h
    exact ⟨text.toList, mapM_id_eq_some_iff.mpr h, String.ofList_toList⟩

/-- The bytes of a text are read as it, without a replacement. -/
@[simp] theorem lossy_ofText (text : String) : lossy (Bytes.ofText text) = text := by
  rw [lossy, Bytes.ofText, scan_ofChars, List.map_map]
  exact (congrArg String.ofList (List.map_id _)).trans String.ofList_toList

end Utf8
end JobSandbox
