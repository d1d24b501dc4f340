import JobSandbox.Text.Base64
import Mathlib.Data.Nat.Notation

/-!
# Base64 text, group by group

Three bytes are a number of 24 bits, and so are four digits; they belong together if it is the same
number.  What is left at the end is filled up with zero bits to whole digits, and with padding to
four.  Nothing in this depends on how bits are moved about to write the digits, or to read them.

## Main definitions

* `Base64.Encodes` — bytes and their digits, as numbers.

## Main results

* `Base64.encode_eq_iff_encodes` — what is written.
* `Base64.decode?_eq_some_iff_encodes` — what is read.
-/

namespace JobSandbox
namespace Base64

/-! ### Digits -/

/-- A digit stands for its place in the alphabet. -/
def Stands (digit : Char) (v : ℕ) : Prop := alphabet[v]? = some digit

theorem Stands.lt {digit : Char} {v : ℕ} (h : Stands digit v) : v < 64 :=
  (List.getElem?_eq_some_iff.mp h).1

theorem stands_iff {digit : Char} {v : ℕ} : Stands digit v ↔ v < 64 ∧ digitChar v = digit := by
  constructor
  · intro h
    exact ⟨h.lt, Option.some.inj ((digitChar_eq_alphabet v h.lt).symm.trans h)⟩
  · rintro ⟨hlt, rfl⟩
    exact digitChar_eq_alphabet v hlt

theorem stands_digitChar {v : ℕ} (h : v < 64) : Stands (digitChar v) v := stands_iff.mpr ⟨h, rfl⟩

/-- What a digit is read as is what it stands for. -/
theorem digitValue?_eq_some_iff {digit : Char} {v : ℕ} :
    digitValue? digit = some v ↔ Stands digit v := by
  constructor
  · intro h
    have htable : ∀ n < 0x80, ∀ v ∈ digitValue? (Char.ofNat n),
        v < 64 ∧ digitChar v = Char.ofNat n := by
      decide
    have hascii : digit.toNat < 0x80 := by
      refine Nat.lt_of_not_le fun hlarge => ?_
      have hplus : digit ≠ '+' := by rintro rfl; exact absurd hlarge (by decide)
      have hslash : digit ≠ '/' := by rintro rfl; exact absurd hlarge (by decide)
      unfold digitValue? at h
      grind
    have hdigit := htable digit.toNat hascii v
    rw [Char.ofNat_toNat] at hdigit
    exact stands_iff.mpr (hdigit h)
  · intro h
    obtain ⟨hlt, rfl⟩ := stands_iff.mp h
    exact digitValue?_digitChar v hlt

/-- The padding is no digit. -/
theorem Stands.ne_padding {digit : Char} {v : ℕ} (h : Stands digit v) : digit ≠ padding := by
  rintro rfl
  cases digitValue?_eq_some_iff.mpr h

/-! ### Groups -/

/-- Bytes and their digits.  A group of three bytes and one of four digits are the same number, and
so is a shorter one at the end with zero bits behind it. -/
inductive Encodes : Bytes → List Char → Prop where
  | nil : Encodes [] []
  | one {a : UInt8} {v w : ℕ} {cv cw : Char} (hv : Stands cv v) (hw : Stands cw w)
      (hgroup : a.toNat * 16 = v * 64 + w) : Encodes [a] [cv, cw, padding, padding]
  | two {a b : UInt8} {v w x : ℕ} {cv cw cx : Char} (hv : Stands cv v) (hw : Stands cw w)
      (hx : Stands cx x)
      (hgroup : (a.toNat * 256 + b.toNat) * 4 = (v * 64 + w) * 64 + x) :
      Encodes [a, b] [cv, cw, cx, padding]
  | three {a b c : UInt8} {v w x y : ℕ} {cv cw cx cy : Char} {bytes : Bytes} {digits : List Char}
      (hv : Stands cv v) (hw : Stands cw w) (hx : Stands cx x) (hy : Stands cy y)
      (hgroup : (a.toNat * 256 + b.toNat) * 256 + c.toNat = ((v * 64 + w) * 64 + x) * 64 + y)
      (hrest : Encodes bytes digits) :
      Encodes (a :: b :: c :: bytes) (cv :: cw :: cx :: cy :: digits)

/-! ### Three bytes at a time -/

/-- Bytes are taken in threes, up to two that may be left. -/
theorem threes_induction {P : Bytes → Prop} (nil : P []) (one : ∀ a, P [a]) (two : ∀ a b, P [a, b])
    (three : ∀ a b c rest, P rest → P (a :: b :: c :: rest)) : ∀ bytes, P bytes
  | [] => nil
  | [a] => one a
  | [a, b] => two a b
  | a :: b :: c :: rest => three a b c rest (threes_induction nil one two three rest)

section Group

variable {a b c v w x y : ℕ}

/-- The digits of a group, each by itself. -/
theorem three_iff (hb : b < 256) (hc : c < 256) (hw : w < 64) (hx : x < 64) (hy : y < 64) :
    (a * 256 + b) * 256 + c = ((v * 64 + w) * 64 + x) * 64 + y ↔
      v = a / 4 ∧ w = a % 4 * 16 + b / 16 ∧ x = b % 16 * 4 + c / 64 ∧ y = c % 64 := by
  omega

theorem two_iff (hb : b < 256) (hw : w < 64) (hx : x < 64) :
    (a * 256 + b) * 4 = (v * 64 + w) * 64 + x ↔
      v = a / 4 ∧ w = a % 4 * 16 + b / 16 ∧ x = b % 16 * 4 := by
  omega

theorem one_iff (hw : w < 64) : a * 16 = v * 64 + w ↔ v = a / 4 ∧ w = a % 4 * 16 := by
  omega

end Group

/-! ### Writing -/

theorem encodeOnto_eq (bytes : Bytes) (done : List Char) :
    encodeOnto done bytes = done.reverse ++ encode bytes := by
  induction bytes using threes_induction generalizing done with
  | nil | one a | two a b => exact List.reverseAux_eq
  | three a b c rest ih =>
    rw [encode, encodeOnto, encodeOnto, ih, ih, List.reverse_append, List.append_nil,
      List.append_assoc]

theorem encode_three (a b c : UInt8) (rest : Bytes) :
    encode (a :: b :: c :: rest) = encodeThree a b c ++ encode rest := by
  rw [encode, encodeOnto, encodeOnto_eq, List.append_nil, List.reverse_reverse]

/-- Nothing else than digits and padding is needed. -/
theorem Encodes.mem_alphabet {bytes : Bytes} {digits : List Char} (h : Encodes bytes digits) :
    ∀ c ∈ digits, c ∈ padding :: alphabet := by
  have hdigit {c : Char} {v : ℕ} (h : Stands c v) : c ∈ alphabet := List.mem_of_getElem? h
  induction h with
  | nil => exact fun c hc => absurd hc List.not_mem_nil
  | one hv hw => simp [hdigit hv, hdigit hw]
  | two hv hw hx => simp [hdigit hv, hdigit hw, hdigit hx]
  | three hv hw hx hy _ _ ih => simpa [hdigit hv, hdigit hw, hdigit hx, hdigit hy] using ih

/-- The digits that are written of bytes are digits of these bytes. -/
theorem encodes_encode (bytes : Bytes) : Encodes bytes (encode bytes) := by
  induction bytes using threes_induction with
  | nil => exact .nil
  | one a =>
    have ha := a.toNat_lt
    exact .one (stands_digitChar (by omega)) (stands_digitChar (by omega))
      ((one_iff (by omega)).mpr ⟨rfl, rfl⟩)
  | two a b =>
    have ha := a.toNat_lt
    have hb := b.toNat_lt
    exact .two (stands_digitChar (by omega)) (stands_digitChar (by omega))
      (stands_digitChar (by omega))
      ((two_iff hb (by omega) (by omega)).mpr ⟨rfl, rfl, rfl⟩)
  | three a b c rest ih =>
    have ha := a.toNat_lt
    have hb := b.toNat_lt
    have hc := c.toNat_lt
    rw [encode_three]
    exact .three (stands_digitChar (by omega)) (stands_digitChar (by omega))
      (stands_digitChar (by omega)) (stands_digitChar (by omega))
      ((three_iff hb hc (by omega) (by omega) (by omega)).mpr ⟨rfl, rfl, rfl, rfl⟩) ih

/-- Bytes have no other digits than those that are written of them. -/
theorem Encodes.encode_eq {bytes : Bytes} {digits : List Char} (h : Encodes bytes digits) :
    encode bytes = digits := by
  induction h with
  | nil => rfl
  | one hv hw hgroup =>
    obtain ⟨rfl, rfl⟩ := (one_iff hw.lt).mp hgroup
    obtain ⟨-, rfl⟩ := stands_iff.mp hv
    obtain ⟨-, rfl⟩ := stands_iff.mp hw
    rfl
  | @two a b _ _ _ _ _ _ hv hw hx hgroup =>
    obtain ⟨rfl, rfl, rfl⟩ := (two_iff b.toNat_lt hw.lt hx.lt).mp hgroup
    obtain ⟨-, rfl⟩ := stands_iff.mp hv
    obtain ⟨-, rfl⟩ := stands_iff.mp hw
    obtain ⟨-, rfl⟩ := stands_iff.mp hx
    rfl
  | @three a b c _ _ _ _ _ _ _ _ _ _ hv hw hx hy hgroup hrest ih =>
    obtain ⟨rfl, rfl, rfl, rfl⟩ :=
      (three_iff b.toNat_lt c.toNat_lt hw.lt hx.lt hy.lt).mp hgroup
    obtain ⟨-, rfl⟩ := stands_iff.mp hv
    obtain ⟨-, rfl⟩ := stands_iff.mp hw
    obtain ⟨-, rfl⟩ := stands_iff.mp hx
    obtain ⟨-, rfl⟩ := stands_iff.mp hy
    rw [encode_three, ih]
    rfl

/-- **What is written of bytes are their digits.** -/
theorem encode_eq_iff_encodes {bytes : Bytes} {digits : List Char} :
    encode bytes = digits ↔ Encodes bytes digits := by
  constructor
  · rintro rfl
    exact encodes_encode bytes
  · exact Encodes.encode_eq

/-! ### Reading -/

variable {bytes : Bytes} {digits : List Char}

/-- A number below 256 is the byte that it is equal to. -/
theorem ofNat_eq {a : UInt8} {n : ℕ} (h : n = a.toNat) : UInt8.ofNat n = a := by
  rw [h, UInt8.ofNat_toNat]

/-- What four digits are read as has these digits. -/
theorem encodes_of_decodeFour {c₁ c₂ c₃ c₄ : Char} {last : Bool}
    (h : decodeFour c₁ c₂ c₃ c₄ last = some bytes) :
    Encodes bytes [c₁, c₂, c₃, c₄] ∧ (last = true ∨ bytes.length = 3) := by
  unfold decodeFour at h
  simp only [Option.bind_eq_bind, Option.bind_eq_some_iff, digitValue?_eq_some_iff] at h
  obtain ⟨v, hv, w, hw, h⟩ := h
  have hvlt := hv.lt
  have hwlt := hw.lt
  have hfirst := UInt8.toNat_ofNat_of_lt' (show v * 4 + w / 16 < 256 by omega)
  split at h
  · next hthird =>
    obtain ⟨⟨hlast, hfourth, hzero⟩, hbytes⟩ := Option.ite_none_right_eq_some.mp h
    cases hbytes
    rw [hthird, hfourth]
    exact ⟨.one hv hw (by rw [hfirst]; omega), .inl hlast⟩
  · obtain ⟨x, hx, h⟩ := Option.bind_eq_some_iff.mp h
    rw [digitValue?_eq_some_iff] at hx
    have hxlt := hx.lt
    have hsecond := UInt8.toNat_ofNat_of_lt' (show w % 16 * 16 + x / 4 < 256 by omega)
    split at h
    · next hfourth =>
      obtain ⟨⟨hlast, hzero⟩, hbytes⟩ := Option.ite_none_right_eq_some.mp h
      cases hbytes
      rw [hfourth]
      exact ⟨.two hv hw hx (by rw [hfirst, hsecond]; omega), .inl hlast⟩
    · obtain ⟨y, hy, hbytes⟩ := Option.bind_eq_some_iff.mp h
      rw [digitValue?_eq_some_iff] at hy
      have hylt := hy.lt
      cases hbytes
      have hthird := UInt8.toNat_ofNat_of_lt' (show x % 4 * 64 + y < 256 by omega)
      exact ⟨.three hv hw hx hy (by rw [hfirst, hsecond, hthird]; omega) .nil, .inr rfl⟩

/-- Four digits are read as the bytes that have them.  Where more follows there have to be three. -/
theorem decodeFour_eq_some_iff {c₁ c₂ c₃ c₄ : Char} {last : Bool} :
    decodeFour c₁ c₂ c₃ c₄ last = some bytes ↔
      Encodes bytes [c₁, c₂, c₃, c₄] ∧ (last = true ∨ bytes.length = 3) := by
  refine ⟨encodes_of_decodeFour, ?_⟩
  rintro ⟨hencodes, hlast⟩
  cases hencodes with
  | @one a v w _ _ hv hw hgroup =>
    have hwlt := hw.lt
    obtain rfl : last = true := hlast.resolve_right (by simp)
    have ha : UInt8.ofNat (v * 4 + w / 16) = a := ofNat_eq (by omega)
    have hzero : w % 16 = 0 := by omega
    rw [← ha]
    simp [decodeFour, digitValue?_eq_some_iff.mpr hv, digitValue?_eq_some_iff.mpr hw, hzero]
  | @two a b v w x _ _ _ hv hw hx hgroup =>
    have hblt := b.toNat_lt
    have hwlt := hw.lt
    have hxlt := hx.lt
    obtain rfl : last = true := hlast.resolve_right (by simp)
    have ha : UInt8.ofNat (v * 4 + w / 16) = a := ofNat_eq (by omega)
    have hb : UInt8.ofNat (w % 16 * 16 + x / 4) = b := ofNat_eq (by omega)
    have hzero : x % 4 = 0 := by omega
    rw [← ha, ← hb]
    simp [decodeFour, digitValue?_eq_some_iff.mpr hv, digitValue?_eq_some_iff.mpr hw,
      digitValue?_eq_some_iff.mpr hx, hx.ne_padding, hzero]
  | @three a b c v w x y _ _ _ _ _ _ hv hw hx hy hgroup hrest =>
    have hblt := b.toNat_lt
    have hclt := c.toNat_lt
    have hwlt := hw.lt
    have hxlt := hx.lt
    have hylt := hy.lt
    have ha : UInt8.ofNat (v * 4 + w / 16) = a := ofNat_eq (by omega)
    have hb : UInt8.ofNat (w % 16 * 16 + x / 4) = b := ofNat_eq (by omega)
    have hc : UInt8.ofNat (x % 4 * 64 + y) = c := ofNat_eq (by omega)
    cases hrest
    rw [← ha, ← hb, ← hc]
    simp [decodeFour, digitValue?_eq_some_iff.mpr hv, digitValue?_eq_some_iff.mpr hw,
      digitValue?_eq_some_iff.mpr hx, digitValue?_eq_some_iff.mpr hy, hx.ne_padding, hy.ne_padding]

/-- Digits of which the first four are cut off: where more follows, these are of three bytes. -/
theorem encodes_cons_iff {c₁ c₂ c₃ c₄ : Char} :
    Encodes bytes (c₁ :: c₂ :: c₃ :: c₄ :: digits) ↔
      ∃ first rest, bytes = first ++ rest ∧ Encodes first [c₁, c₂, c₃, c₄] ∧
        (digits.isEmpty = true ∨ first.length = 3) ∧ Encodes rest digits := by
  constructor
  · intro h
    cases h with
    | one hv hw hgroup => exact ⟨_, [], rfl, .one hv hw hgroup, .inl rfl, .nil⟩
    | two hv hw hx hgroup => exact ⟨_, [], rfl, .two hv hw hx hgroup, .inl rfl, .nil⟩
    | three hv hw hx hy hgroup hrest =>
      exact ⟨[_, _, _], _, rfl, .three hv hw hx hy hgroup .nil, .inr rfl, hrest⟩
  · rintro ⟨first, rest, rfl, hfirst, hlast, hrest⟩
    -- a short group is the last one
    have hend (hshort : first.length ≠ 3) : rest = [] ∧ digits = [] := by
      obtain rfl := List.isEmpty_iff.mp (hlast.resolve_right hshort)
      cases hrest
      exact ⟨rfl, rfl⟩
    cases hfirst with
    | one hv hw hgroup =>
      obtain ⟨rfl, rfl⟩ := hend (by simp)
      exact .one hv hw hgroup
    | two hv hw hx hgroup =>
      obtain ⟨rfl, rfl⟩ := hend (by simp)
      exact .two hv hw hx hgroup
    | three hv hw hx hy hgroup hnil =>
      cases hnil
      exact .three hv hw hx hy hgroup hrest

/-- Behind what was read already, the bytes are read that have the digits. -/
theorem decodeOnto_eq_some_iff {done all : Bytes} :
    decodeOnto done digits = some all ↔
      ∃ bytes, all = done.reverse ++ bytes ∧ Encodes bytes digits := by
  fun_induction decodeOnto done digits generalizing all with
  | case1 done =>
    constructor
    · intro h
      cases h
      exact ⟨[], (List.append_nil _).symm, .nil⟩
    · rintro ⟨bytes, rfl, hencodes⟩
      cases hencodes
      rw [List.append_nil]
  | case2 done a b c d rest hnone =>
    refine iff_of_false (Option.some_ne_none all).symm ?_
    rintro ⟨bytes, -, hencodes⟩
    obtain ⟨first, -, -, hfirst, hlast, -⟩ := encodes_cons_iff.mp hencodes
    cases hnone.symm.trans (decodeFour_eq_some_iff.mpr ⟨hfirst, hlast⟩)
  | case3 done a b c d rest first hfirst ih =>
    rw [ih]
    constructor
    · rintro ⟨bytes, rfl, hrest⟩
      obtain ⟨hencodes, hlast⟩ := decodeFour_eq_some_iff.mp hfirst
      refine ⟨first ++ bytes, ?_, encodes_cons_iff.mpr ⟨first, bytes, rfl, hencodes, hlast, hrest⟩⟩
      rw [List.reverse_append, List.reverse_reverse, List.append_assoc]
    · rintro ⟨bytes, rfl, hencodes⟩
      obtain ⟨first', bytes, rfl, hfirst', hlast, hrest⟩ := encodes_cons_iff.mp hencodes
      cases hfirst.symm.trans (decodeFour_eq_some_iff.mpr ⟨hfirst', hlast⟩)
      refine ⟨bytes, ?_, hrest⟩
      rw [List.reverse_append, List.reverse_reverse, List.append_assoc]
  | case4 digits done hnil hfour =>
    refine iff_of_false (Option.some_ne_none all).symm ?_
    rintro ⟨bytes, -, hencodes⟩
    cases hencodes with
    | nil => exact hnil rfl
    | one => exact hfour _ _ _ _ _ rfl
    | two => exact hfour _ _ _ _ _ rfl
    | three => exact hfour _ _ _ _ _ rfl

/-- **What is read are the bytes that have the digits.** -/
theorem decode?_eq_some_iff_encodes : decode? digits = some bytes ↔ Encodes bytes digits := by
  rw [decode?, decodeOnto_eq_some_iff]
  exact ⟨fun ⟨_, hbytes, hencodes⟩ => hbytes ▸ hencodes, fun h => ⟨bytes, rfl, h⟩⟩

/-- What is written is read again. -/
theorem decode?_encode (bytes : Bytes) : decode? (encode bytes) = some bytes :=
  decode?_eq_some_iff_encodes.mpr (encode_eq_iff_encodes.mp rfl)

/-- Two byte strings with the same text are the same. -/
theorem ofBytes_injective : Function.Injective ofBytes := by
  intro bytes bytes' h
  have hread := decode?_encode bytes
  rw [String.ofList_injective h, decode?_encode] at hread
  exact (Option.some.inj hread).symm

end Base64
end JobSandbox
