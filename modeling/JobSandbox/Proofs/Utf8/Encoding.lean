import JobSandbox.Text.Utf8
import Mathlib.Data.List.Infix

/-!
# The bytes of a character

A character has one to four bytes.  The first says how many there are, and it bounds the second
where the form would have room for numbers that need fewer bytes, or belong to no character; all
others may be any byte that begins no character.  So after each byte it is known what may follow,
and whatever may follow leads on to a character.

## Main definitions

* `IsForm` — a character and the bytes for its number.
* `Follows` — a byte that goes on with a character.
* `Pending.Completes` — how a character that is under way ends.

## Main results

* `utf8EncodeChar_eq_cons_iff` — **a first byte says exactly what may follow it.**
* `Pending.exists_completes` — what can go on can be completed.
* `follows_of_utf8EncodeChar` — which bytes of a character begin it, and which go on with it.
-/

namespace JobSandbox
namespace Utf8

/-! ### The bytes of a character -/

theorem isValidChar_toNat (c : Char) :
    c.toNat < 0xd800 ∨ 0xdfff < c.toNat ∧ c.toNat < 0x110000 := c.valid

/-- A number that belongs to a character belongs to one. -/
theorem eq_ofNat_iff {c : Char} {n : ℕ} (h : n.isValidChar) : c = Char.ofNat n ↔ c.toNat = n := by
  have hn : (Char.ofNat n).toNat = n := by
    rw [Char.ofNat, dif_pos h]
    rfl
  constructor
  · rintro rfl
    exact hn
  · intro hc
    exact Char.toNat_inj.mp (hc.trans hn.symm)

/-- A character in bytes of this number.  Three bytes would have room for numbers that need only
two, and for surrogates; four for numbers that need only three, and for more than there are. -/
def IsForm (c : Char) : Bytes → Prop
  | [b] => b.toNat ≤ 0x7f ∧ c.toNat = b.toNat
  | [b, b₁] =>
    (0xc2 ≤ b.toNat ∧ b.toNat ≤ 0xdf) ∧ (0x80 ≤ b₁.toNat ∧ b₁.toNat ≤ 0xbf) ∧
      c.toNat = 64 * (b.toNat - 0xc0) + (b₁.toNat - 0x80)
  | [b, b₁, b₂] =>
    (0xe0 ≤ b.toNat ∧ b.toNat ≤ 0xef) ∧ (0x80 ≤ b₁.toNat ∧ b₁.toNat ≤ 0xbf) ∧
      (b.toNat = 0xe0 → 0xa0 ≤ b₁.toNat) ∧ (b.toNat = 0xed → b₁.toNat ≤ 0x9f) ∧
      (0x80 ≤ b₂.toNat ∧ b₂.toNat ≤ 0xbf) ∧
      c.toNat = 64 * (64 * (b.toNat - 0xe0) + (b₁.toNat - 0x80)) + (b₂.toNat - 0x80)
  | [b, b₁, b₂, b₃] =>
    (0xf0 ≤ b.toNat ∧ b.toNat ≤ 0xf4) ∧ (0x80 ≤ b₁.toNat ∧ b₁.toNat ≤ 0xbf) ∧
      (b.toNat = 0xf0 → 0x90 ≤ b₁.toNat) ∧ (b.toNat = 0xf4 → b₁.toNat ≤ 0x8f) ∧
      (0x80 ≤ b₂.toNat ∧ b₂.toNat ≤ 0xbf) ∧ (0x80 ≤ b₃.toNat ∧ b₃.toNat ≤ 0xbf) ∧
      c.toNat = 64 * (64 * (64 * (b.toNat - 0xf0) + (b₁.toNat - 0x80)) + (b₂.toNat - 0x80)) +
        (b₃.toNat - 0x80)
  | _ => False

theorem utf8EncodeChar_eq_iff {c : Char} {bytes : Bytes} :
    String.utf8EncodeChar c = bytes ↔ IsForm c bytes := by
  have hvalid := isValidChar_toNat c
  have hc : c.toNat = c.val.toNat := rfl
  rw [hc] at hvalid
  rcases bytes with _ | ⟨b, _ | ⟨b₁, _ | ⟨b₂, _ | ⟨b₃, _ | ⟨b₄, rest⟩⟩⟩⟩⟩
  -- for each number of bytes, four goals by the number of the character
  all_goals
    simp only [IsForm, hc]
    fun_cases String.utf8EncodeChar c
  all_goals
    simp only [List.cons.injEq, ← UInt8.toNat_inj, UInt8.toNat_ofNat', reduceCtorEq, and_false,
      and_true, false_iff]
  -- one by one, the two directions take less time
  all_goals try constructor
  all_goals omega

/-! ### First bytes -/

theorem lead_eq_whole_iff {b : ℕ} {c : Char} :
    lead b = .whole c ↔ b ≤ 0x7f ∧ c = Char.ofNat b := by
  fun_cases lead b
  all_goals simp only [Lead.whole.injEq, reduceCtorEq, false_iff]
  all_goals grind

/-- The bounds of the byte that comes next keep out the numbers that the form has no use for. -/
theorem lead_eq_more_iff {b : ℕ} {p : Pending} :
    lead b = .more p ↔
      (0xc2 ≤ b ∧ b ≤ 0xdf) ∧ p = ⟨1, 0x80, 0xbf, b - 0xc0⟩ ∨
      (0xe0 ≤ b ∧ b ≤ 0xef) ∧
        p = ⟨2, if b = 0xe0 then 0xa0 else 0x80, if b = 0xed then 0x9f else 0xbf, b - 0xe0⟩ ∨
      (0xf0 ≤ b ∧ b ≤ 0xf4) ∧
        p = ⟨3, if b = 0xf0 then 0x90 else 0x80, if b = 0xf4 then 0x8f else 0xbf, b - 0xf0⟩ := by
  fun_cases lead b
  all_goals simp only [Lead.more.injEq, reduceCtorEq, false_iff]
  all_goals grind

/-- A first byte that wants more begins no other character, and there is a byte that may follow. -/
theorem bounds_of_lead {b : ℕ} {p : Pending} (h : lead b = .more p) :
    0xc2 ≤ b ∧ 0 < p.owed ∧ 0x80 ≤ p.low ∧ p.low ≤ p.high ∧ p.high ≤ 0xbf := by
  rcases lead_eq_more_iff.mp h with ⟨hb, rfl⟩ | ⟨hb, rfl⟩ | ⟨hb, rfl⟩ <;> grind

namespace Pending

/-- The bits that are read once `b` is. -/
def bitsWith (p : Pending) (b : UInt8) : ℕ := 64 * p.bits + (b.toNat - 0x80)

/-- What is read of a character after `b`, if that is not its end. -/
def next (p : Pending) (b : UInt8) : Pending := ⟨p.owed - 1, 0x80, 0xbf, p.bitsWith b⟩

/-- With these bytes, a character that is under way is `c`. -/
def Completes : Pending → Bytes → Char → Prop
  | _, [], _ => False
  | p, b :: rest, c =>
    (p.low ≤ b.toNat ∧ b.toNat ≤ p.high) ∧
      if p.owed = 1 then rest = [] ∧ c = Char.ofNat (p.bitsWith b)
      else (p.next b).Completes rest c

variable {low high bits n : ℕ} {rest : Bytes} {c : Char}

theorem completes_one_iff :
    (Pending.mk 1 low high bits).Completes rest c ↔
      ∃ b, rest = [b] ∧ (low ≤ b.toNat ∧ b.toNat ≤ high) ∧
        c = Char.ofNat (64 * bits + (b.toNat - 0x80)) := by
  cases rest with
  | nil => simp [Completes]
  | cons b rest =>
    rw [Completes, if_pos rfl]
    constructor
    · rintro ⟨hb, rfl, hc⟩
      exact ⟨b, rfl, hb, hc⟩
    · rintro ⟨b', hcons, hb, hc⟩
      cases hcons
      exact ⟨hb, rfl, hc⟩

theorem completes_add_two_iff :
    (Pending.mk (n + 2) low high bits).Completes rest c ↔
      ∃ b rest', rest = b :: rest' ∧ (low ≤ b.toNat ∧ b.toNat ≤ high) ∧
        (Pending.mk (n + 1) 0x80 0xbf (64 * bits + (b.toNat - 0x80))).Completes rest' c := by
  cases rest with
  | nil => simp [Completes]
  | cons b rest =>
    rw [Completes, if_neg (Nat.succ_succ_ne_one n)]
    constructor
    · rintro ⟨hb, hrest⟩
      exact ⟨b, rest, rfl, hb, hrest⟩
    · rintro ⟨b', rest', hcons, hb, hrest⟩
      cases hcons
      exact ⟨hb, hrest⟩

end Pending

section FirstByte

variable {c : Char} {b : UInt8} {rest : Bytes}

theorem lead_of_utf8EncodeChar (h : String.utf8EncodeChar c = b :: rest) :
    lead b.toNat = .whole c ∧ rest = [] ∨ ∃ p, lead b.toNat = .more p ∧ p.Completes rest c := by
  match rest with
  | [] =>
    obtain ⟨hb, hc⟩ := utf8EncodeChar_eq_iff.mp h
    exact .inl ⟨lead_eq_whole_iff.mpr ⟨hb, (eq_ofNat_iff (hc ▸ c.valid)).mpr hc⟩, rfl⟩
  | [b₁] =>
    obtain ⟨hb, hb₁, hc⟩ := utf8EncodeChar_eq_iff.mp h
    refine .inr ⟨_, lead_eq_more_iff.mpr (.inl ⟨hb, rfl⟩), ?_⟩
    exact Pending.completes_one_iff.mpr ⟨b₁, rfl, hb₁, (eq_ofNat_iff (hc ▸ c.valid)).mpr hc⟩
  | [b₁, b₂] =>
    obtain ⟨hb, hb₁, hlow, hhigh, hb₂, hc⟩ := utf8EncodeChar_eq_iff.mp h
    refine .inr ⟨_, lead_eq_more_iff.mpr (.inr (.inl ⟨hb, rfl⟩)), ?_⟩
    refine Pending.completes_add_two_iff.mpr ⟨b₁, [b₂], rfl, by grind, ?_⟩
    exact Pending.completes_one_iff.mpr ⟨b₂, rfl, hb₂, (eq_ofNat_iff (hc ▸ c.valid)).mpr hc⟩
  | [b₁, b₂, b₃] =>
    obtain ⟨hb, hb₁, hlow, hhigh, hb₂, hb₃, hc⟩ := utf8EncodeChar_eq_iff.mp h
    refine .inr ⟨_, lead_eq_more_iff.mpr (.inr (.inr ⟨hb, rfl⟩)), ?_⟩
    refine Pending.completes_add_two_iff.mpr ⟨b₁, [b₂, b₃], rfl, by grind, ?_⟩
    refine Pending.completes_add_two_iff.mpr ⟨b₂, [b₃], rfl, hb₂, ?_⟩
    exact Pending.completes_one_iff.mpr ⟨b₃, rfl, hb₃, (eq_ofNat_iff (hc ▸ c.valid)).mpr hc⟩
  | b₁ :: b₂ :: b₃ :: b₄ :: rest => exact (utf8EncodeChar_eq_iff.mp h).elim

theorem utf8EncodeChar_of_whole (h : lead b.toNat = .whole c) : String.utf8EncodeChar c = [b] := by
  obtain ⟨hb, hc⟩ := lead_eq_whole_iff.mp h
  exact utf8EncodeChar_eq_iff.mpr ⟨hb, (eq_ofNat_iff (.inl (by omega))).mp hc⟩

theorem utf8EncodeChar_of_more {p : Pending} (h : lead b.toNat = .more p)
    (hrest : p.Completes rest c) : String.utf8EncodeChar c = b :: rest := by
  rcases lead_eq_more_iff.mp h with ⟨hb, rfl⟩ | ⟨hb, rfl⟩ | ⟨hb, rfl⟩
  · obtain ⟨b₁, rfl, hb₁, hc⟩ := Pending.completes_one_iff.mp hrest
    exact utf8EncodeChar_eq_iff.mpr
      ⟨hb, hb₁, (eq_ofNat_iff (.inl (by omega))).mp hc⟩
  · obtain ⟨b₁, _, rfl, hb₁, hrest⟩ := Pending.completes_add_two_iff.mp hrest
    obtain ⟨b₂, rfl, hb₂, hc⟩ := Pending.completes_one_iff.mp hrest
    -- the bounds of the second byte leave out the surrogates
    have hvalid : (64 * (64 * (b.toNat - 0xe0) + (b₁.toNat - 0x80)) +
        (b₂.toNat - 0x80)).isValidChar := by
      unfold Nat.isValidChar
      grind
    exact utf8EncodeChar_eq_iff.mpr
      ⟨hb, by grind, by grind, by grind, hb₂, (eq_ofNat_iff hvalid).mp hc⟩
  · obtain ⟨b₁, _, rfl, hb₁, hrest⟩ := Pending.completes_add_two_iff.mp hrest
    obtain ⟨b₂, _, rfl, hb₂, hrest⟩ := Pending.completes_add_two_iff.mp hrest
    obtain ⟨b₃, rfl, hb₃, hc⟩ := Pending.completes_one_iff.mp hrest
    -- and here the numbers past the last
    have hvalid : (64 * (64 * (64 * (b.toNat - 0xf0) + (b₁.toNat - 0x80)) +
        (b₂.toNat - 0x80)) + (b₃.toNat - 0x80)).isValidChar := by
      unfold Nat.isValidChar
      grind
    exact utf8EncodeChar_eq_iff.mpr
      ⟨hb, by grind, by grind, by grind, hb₂, hb₃, (eq_ofNat_iff hvalid).mp hc⟩

/-- **A first byte says exactly what may follow it**, and which character comes of that. -/
theorem utf8EncodeChar_eq_cons_iff :
    String.utf8EncodeChar c = b :: rest ↔
      lead b.toNat = .whole c ∧ rest = [] ∨
        ∃ p, lead b.toNat = .more p ∧ p.Completes rest c := by
  constructor
  · exact lead_of_utf8EncodeChar
  · rintro (⟨hlead, rfl⟩ | ⟨p, hlead, hrest⟩)
    · exact utf8EncodeChar_of_whole hlead
    · exact utf8EncodeChar_of_more hlead hrest

end FirstByte

/-! ### Characters under way -/

namespace Pending

variable {p : Pending} {rest : Bytes} {c : Char}

theorem Completes.length_eq (h : p.Completes rest c) : rest.length = p.owed := by
  induction rest generalizing p with
  | nil => cases h
  | cons b rest ih =>
    obtain ⟨-, hrest⟩ := h
    split at hrest
    · next howed =>
      obtain ⟨rfl, -⟩ := hrest
      exact howed.symm
    · next howed =>
      have hlength : rest.length = p.owed - 1 := ih hrest
      have hne : p.owed ≠ 0 := by
        intro hzero
        rw [hzero] at hlength
        cases rest with
        | nil => cases hrest
        | cons b' rest => cases hlength
      rw [List.length_cons]
      omega

/-- What a byte can go on with can be completed. -/
theorem exists_completes (p : Pending) {b : UInt8} (howed : 0 < p.owed)
    (hb : p.low ≤ b.toNat ∧ b.toNat ≤ p.high) : ∃ rest c, p.Completes (b :: rest) c := by
  obtain ⟨owed, low, high, bits⟩ := p
  induction owed generalizing low high bits b with
  | zero => cases howed
  | succ owed ih =>
    cases owed with
    | zero => exact ⟨[], _, completes_one_iff.mpr ⟨b, rfl, hb, rfl⟩⟩
    | succ owed =>
      have hfirst : 0x80 ≤ (0x80 : UInt8).toNat ∧ (0x80 : UInt8).toNat ≤ 0xbf := by decide
      obtain ⟨rest, c, hrest⟩ :=
        ih 0x80 0xbf (64 * bits + (b.toNat - 0x80)) (Nat.succ_pos owed) hfirst
      exact ⟨_, c, completes_add_two_iff.mpr ⟨b, _, rfl, hb, hrest⟩⟩

end Pending

/-- A byte that goes on with a character, and begins none. -/
def Follows (b : UInt8) : Prop := 0x80 ≤ b.toNat ∧ b.toNat ≤ 0xbf

instance (b : UInt8) : Decidable (Follows b) := inferInstanceAs (Decidable (_ ∧ _))

theorem Pending.Completes.follows {p : Pending} {rest : Bytes} {c : Char} (h : p.Completes rest c)
    (hlow : 0x80 ≤ p.low) (hhigh : p.high ≤ 0xbf) : ∀ b ∈ rest, Follows b := by
  induction rest generalizing p with
  | nil => cases h
  | cons b rest ih =>
    obtain ⟨hb, hrest⟩ := h
    rw [List.forall_mem_cons]
    refine ⟨⟨hlow.trans hb.1, hb.2.trans hhigh⟩, ?_⟩
    split at hrest
    · rw [hrest.1]
      exact fun b hmem => absurd hmem List.not_mem_nil
    · exact ih hrest (Nat.le_refl _) (Nat.le_refl _)

/-- The first byte of a character goes on with none; all others do. -/
theorem follows_of_utf8EncodeChar {c : Char} {b : UInt8} {rest : Bytes}
    (h : String.utf8EncodeChar c = b :: rest) : ¬Follows b ∧ ∀ b' ∈ rest, Follows b' := by
  unfold Follows
  rcases utf8EncodeChar_eq_cons_iff.mp h with ⟨hlead, rfl⟩ | ⟨p, hlead, hrest⟩
  · have hb := (lead_eq_whole_iff.mp hlead).1
    exact ⟨by omega, fun b' hmem => absurd hmem List.not_mem_nil⟩
  · obtain ⟨hb, -, hlow, -, hhigh⟩ := bounds_of_lead hlead
    exact ⟨by omega, hrest.follows hlow hhigh⟩

end Utf8
end JobSandbox
