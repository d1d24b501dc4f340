import JobSandbox.Proofs.Numeral

/-!
# Reading a numeral back

A numeral is read from its most significant digit on: whatever has been read is moved up by one
place and the next digit is added.  Reading knows nothing of how numerals are written, so that it
can tell what the written ones are worth: each of them is read back as the integer it was written
for, and no two integers share one.

## Main definitions

* `Numeral.read?` — the integer that a byte string stands for in a radix.
* `Numeral.IsNumeral` — the numeral of an integer, by what it looks like and what it is read as.

## Main results

* `read?_numeralBytes` — what was written is read back.
* `isNumeral_numeralBytes` — the numerals of the integers are what they should be.
* `numeral_round_trip` — **a radix has a text of its own for every integer, or refuses them all.**
-/

namespace JobSandbox
namespace Numeral

variable {base : ℕ}

/-! ### Reading -/

/-- The value of a digit, from `0` to `9` and on from `a` to `z`. -/
def digitValue? (b : UInt8) : Option ℕ :=
  if 48 ≤ b ∧ b ≤ 57 then some (b.toNat - 48)
  else if 97 ≤ b ∧ b ≤ 122 then some (b.toNat - 87)
  else none

/-- The number behind one more digit, which has to be below the radix. -/
def readDigit? (base n : ℕ) (b : UInt8) : Option ℕ :=
  (digitValue? b).bind fun d => if d < base then some (base * n + d) else none

/-- The number with these digits, most significant first. -/
def readDigits? (base : ℕ) (bytes : Bytes) : Option ℕ := bytes.foldlM (readDigit? base) 0

/-- The integer that a byte string stands for: digits, of which there has to be one, perhaps behind
a minus sign. -/
def read? (base : ℕ) (bytes : Bytes) : Option ℤ :=
  match bytes with
  | [] => none
  | b :: rest =>
    if b = minusByte then
      if rest = [] then none else (readDigits? base rest).map fun n : ℕ => -(n : ℤ)
    else (readDigits? base bytes).map fun n : ℕ => (n : ℤ)

/-! ### The look of a numeral -/

/-- A byte string without its sign. -/
def unsigned (bytes : Bytes) : Bytes :=
  if bytes.head? = some minusByte then bytes.tail else bytes

/-- The canonical numeral of an integer. -/
structure IsNumeral (base : ℕ) (value : ℤ) (bytes : Bytes) : Prop where
  sign : bytes.head? = some minusByte ↔ value < 0
  unsigned_ne_nil : unsigned bytes ≠ []
  /-- All digits are in lower case and below the radix. -/
  digits_lt : ∀ b ∈ unsigned bytes, ∃ d < base, digitValue? b = some d
  /-- A zero in front stands for itself. -/
  leading_zero : (unsigned bytes).head? = some 48 → value = 0 ∧ bytes = [48]
  reads_back : read? base bytes = some value

/-! ### Single digits -/

theorem digitValue?_digitByte : ∀ d < 36, digitValue? (digitByte d) = some d := by decide

theorem digitByte_ne_minusByte : ∀ d < 36, digitByte d ≠ minusByte := by decide

theorem digitByte_eq_zero : ∀ d < 36, digitByte d = 48 → d = 0 := by decide

theorem digitByte_lt : ∀ d < 36, digitByte d < 128 := by decide

theorem readDigit?_digitByte (hbase : base ≤ 36) {d : ℕ} (hd : d < base) (n : ℕ) :
    readDigit? base n (digitByte d) = some (base * n + d) := by
  rw [readDigit?, digitValue?_digitByte d (by omega), Option.bind_some, if_pos hd]

/-! ### What was written is read back -/

/-- Digits are read as the number they are the digits of. -/
theorem readDigits?_reverse_map (hbase : base ≤ 36) {ds : List ℕ} (hds : ∀ d ∈ ds, d < base) :
    readDigits? base (ds.map digitByte).reverse = some (Nat.ofDigits base ds) := by
  induction ds with
  | nil => rfl
  | cons d ds ih =>
    obtain ⟨hd, hds⟩ := List.forall_mem_cons.mp hds
    unfold readDigits? at ih ⊢
    rw [List.map_cons, List.reverse_cons, List.foldlM_append, ih hds]
    simp only [bind, Option.bind_some, List.foldlM_cons, List.foldlM_nil, pure]
    rw [readDigit?_digitByte hbase hd, Option.bind_some, Nat.ofDigits_cons, Nat.add_comm]

section Written

variable (hradix : IsRadix base)

include hradix

theorem exists_of_mem_digitBytes {n : ℕ} {b : UInt8} (h : b ∈ digitBytes base n) :
    ∃ d < base, b = digitByte d := by
  obtain ⟨d, hmem, rfl⟩ := List.mem_map.mp (List.mem_reverse.mp h)
  exact ⟨d, lt_of_mem_digitsOf hradix.1 hmem, rfl⟩

theorem minusByte_notMem_digitBytes (n : ℕ) : minusByte ∉ digitBytes base n := by
  intro hmem
  obtain ⟨d, hd, heq⟩ := exists_of_mem_digitBytes hradix hmem
  exact digitByte_ne_minusByte d (hd.trans_le hradix.2) heq.symm

theorem readDigits?_digitBytes (n : ℕ) : readDigits? base (digitBytes base n) = some n := by
  have hlt : ∀ d ∈ digitsOf base n, d < base := fun d hd => lt_of_mem_digitsOf hradix.1 hd
  rw [digitBytes, readDigits?_reverse_map hradix.2 hlt, ofDigits_digitsOf]

/-- **What was written is read back.** -/
theorem read?_numeralBytes (value : ℤ) : read? base (numeralBytes base value) = some value := by
  by_cases hneg : value < 0
  · rw [numeralBytes_of_neg hneg, read?, if_pos rfl, if_neg (digitBytes_ne_nil base _),
      readDigits?_digitBytes hradix, Option.map_some]
    congr 1
    omega
  · have hread := readDigits?_digitBytes hradix value.natAbs
    have hsign := minusByte_notMem_digitBytes hradix value.natAbs
    rw [numeralBytes_of_nonneg hneg]
    cases hdigits : digitBytes base value.natAbs with
    | nil => exact absurd hdigits (digitBytes_ne_nil base _)
    | cons b rest =>
      rw [hdigits] at hread hsign
      have hne : b ≠ minusByte := fun heq => hsign (heq ▸ List.mem_cons_self)
      simp only [read?, if_neg hne, hread, Option.map_some]
      congr 1
      omega

/-! ### What a written numeral looks like -/

theorem head?_digitBytes_ne (n : ℕ) : (digitBytes base n).head? ≠ some minusByte :=
  fun hhead => minusByte_notMem_digitBytes hradix n (List.mem_of_mem_head? hhead)

theorem unsigned_numeralBytes (value : ℤ) :
    unsigned (numeralBytes base value) = digitBytes base value.natAbs := by
  by_cases hneg : value < 0
  · rw [numeralBytes_of_neg hneg, unsigned, List.head?_cons, if_pos rfl, List.tail_cons]
  · rw [numeralBytes_of_nonneg hneg, unsigned, if_neg (head?_digitBytes_ne hradix _)]

/-- Only zero has a zero in front. -/
theorem eq_zero_of_head?_digitBytes {n : ℕ} (h : (digitBytes base n).head? = some 48) : n = 0 := by
  by_contra hn
  -- the digit in front is the last one that division yields, which is not zero
  have hdigits : digitsOf base n = Nat.digits base n := if_neg hn
  have hne : Nat.digits base n ≠ [] := Nat.digits_ne_nil_iff_ne_zero.mpr hn
  have hlast : (Nat.digits base n).getLast hne ≠ 0 := Nat.getLast_digit_ne_zero base hn
  have hlt : (Nat.digits base n).getLast hne < base :=
    Nat.digits_lt_base hradix.1 (List.getLast_mem hne)
  rw [digitBytes, hdigits, List.head?_reverse, List.getLast?_map,
    List.getLast?_eq_getLast_of_ne_nil hne, Option.map_some, Option.some.injEq] at h
  exact hlast (digitByte_eq_zero _ (hlt.trans_le hradix.2) h)

/-- **The numeral of an integer is canonical.** -/
theorem isNumeral_numeralBytes (value : ℤ) : IsNumeral base value (numeralBytes base value) where
  sign := by
    by_cases hneg : value < 0
    · simp [numeralBytes_of_neg hneg, hneg]
    · simp [numeralBytes_of_nonneg hneg, hneg, head?_digitBytes_ne hradix]
  unsigned_ne_nil := by
    rw [unsigned_numeralBytes hradix]
    exact digitBytes_ne_nil base _
  digits_lt := by
    rw [unsigned_numeralBytes hradix]
    intro b hmem
    obtain ⟨d, hd, rfl⟩ := exists_of_mem_digitBytes hradix hmem
    exact ⟨d, hd, digitValue?_digitByte d (hd.trans_le hradix.2)⟩
  leading_zero := by
    rw [unsigned_numeralBytes hradix]
    intro hhead
    have hzero := eq_zero_of_head?_digitBytes hradix hhead
    rw [Int.natAbs_eq_zero] at hzero
    subst hzero
    exact ⟨rfl, rfl⟩
  reads_back := read?_numeralBytes hradix value

/-! ### The numeral in its own buffer -/

/-- The buffer of a numeral has room for every integer in every radix. -/
theorem ofInt32?_eq (value : Int32) :
    ∃ rest, ofInt32? value base =
      .ok ⟨numeralBytes base value.toInt ++ 0 :: rest, (numeralBytes base value.toInt).length⟩ := by
  have hbase : 1 < base := hradix.1
  -- in radix two the magnitude has no more than 32 digits, and in others no more than in two
  have hpow : 2 ^ 31 < base ^ (31 + 1) :=
    lt_of_lt_of_le (by decide) (Nat.pow_le_pow_left hbase 32)
  have hlength := length_numeralBytes_le hbase hpow value
  have hroom : (numeralBytes base value.toInt).length < blank.length := by
    rw [blank, List.length_replicate, Contract.integerTextRoom]
    omega
  refine ⟨blank.drop ((numeralBytes base value.toInt).length + 1), ?_⟩
  rw [ofInt32?, writeInteger_of_room hradix value hroom]

end Written

/-! ### Numerals as text -/

theorem utf8EncodeChar_ofNat :
    ∀ n < 128, String.utf8EncodeChar (Char.ofNat n) = [UInt8.ofNat n] := by decide

/-- The text of a numeral has the bytes of the numeral. -/
theorem ofText_text {numeral : Numeral} (h : ∀ b ∈ numeral.bytes, b < 128) :
    Bytes.ofText numeral.text = numeral.bytes := by
  rw [Bytes.ofText, text, String.toList_ofList]
  generalize numeral.bytes = bytes at h ⊢
  induction bytes with
  | nil => rfl
  | cons b bytes ih =>
    obtain ⟨hb, hbytes⟩ := List.forall_mem_cons.mp h
    rw [List.map_cons, Bytes.ofChars_cons, ih hbytes, utf8EncodeChar_ofNat b.toNat hb,
      UInt8.ofNat_toNat, List.singleton_append]

theorem lt_of_mem_numeralBytes (hradix : IsRadix base) {value : ℤ} {b : UInt8}
    (h : b ∈ numeralBytes base value) : b < 128 := by
  have hdigit : ∀ b ∈ digitBytes base value.natAbs, b < 128 := by
    intro b hmem
    obtain ⟨d, hd, rfl⟩ := exists_of_mem_digitBytes hradix hmem
    exact digitByte_lt d (hd.trans_le hradix.2)
  by_cases hneg : value < 0
  · rw [numeralBytes_of_neg hneg, List.mem_cons] at h
    rcases h with rfl | hmem
    · decide
    · exact hdigit b hmem
  · rw [numeralBytes_of_nonneg hneg] at h
    exact hdigit b h

/-! ### The round trip -/

theorem bytes_mk (text rest : Bytes) : (⟨text ++ rest, text.length⟩ : Numeral).bytes = text :=
  List.take_left

theorem bytesWithNul_mk (text rest : Bytes) :
    (⟨text ++ 0 :: rest, text.length⟩ : Numeral).bytesWithNul = text ++ [0] := by
  rw [bytesWithNul, List.take_length_add_append, List.take_succ_cons, List.take_zero]

/-- What is refused is refused whatever the integer. -/
theorem ofInt32?_of_not_isRadix (value : Int32) (hradix : ¬IsRadix base) :
    ofInt32? value base = .error (.invalidBase base) := by
  simp only [ofInt32?, writeInteger, hradix, if_false]

theorem bytes_ofInt32 (hradix : IsRadix base) (value : Int32) :
    (ofInt32 value base).bytes = numeralBytes base value.toInt := by
  obtain ⟨rest, hrest⟩ := ofInt32?_eq hradix value
  rw [ofInt32_eq_of_ofInt32? hrest, bytes_mk]

/-- No two integers share a numeral. -/
theorem bytes_ofInt32_inj (hradix : IsRadix base) {value other : Int32}
    (h : (ofInt32 value base).bytes = (ofInt32 other base).bytes) : value = other := by
  rw [bytes_ofInt32 hradix, bytes_ofInt32 hradix] at h
  have hread := read?_numeralBytes hradix value.toInt
  rw [h, read?_numeralBytes hradix, Option.some.injEq] at hread
  exact (Int32.toInt_inj.mp hread).symm

/-- **A radix has a text of its own for every integer, or refuses them all.**  In a radix from 2
to 36 every integer is written, its text is canonical and is read back as the integer, and no other
integer has the same text.  In any other radix there is a cause of failure and no text. -/
theorem numeral_round_trip (value : Int32) (base : ℕ) :
    (2 ≤ base ∧ base ≤ 36 → ∃ numeral, ofInt32? value base = .ok numeral ∧
      ofInt32 value base = numeral ∧
      IsNumeral base value.toInt numeral.bytes ∧
      numeral.bytesWithNul = numeral.bytes ++ [0] ∧
      Bytes.ofText numeral.text = numeral.bytes ∧
      ∀ other : Int32, (ofInt32 other base).bytes = numeral.bytes → other = value) ∧
    (¬(2 ≤ base ∧ base ≤ 36) →
      ofInt32? value base = .error (.invalidBase base) ∧ ofInt32 value base = empty) := by
  constructor
  · intro hradix
    obtain ⟨rest, hwritten⟩ := ofInt32?_eq hradix value
    have hbytes := bytes_mk (numeralBytes base value.toInt) (0 :: rest)
    have hof := ofInt32_eq_of_ofInt32? hwritten
    refine ⟨_, hwritten, hof, ?_, ?_, ?_, ?_⟩
    · rw [hbytes]
      exact isNumeral_numeralBytes hradix value.toInt
    · rw [hbytes, bytesWithNul_mk]
    · apply ofText_text
      rw [hbytes]
      exact fun b => lt_of_mem_numeralBytes hradix
    · intro other hshared
      rw [← hof] at hshared
      exact bytes_ofInt32_inj hradix hshared
  · intro hrefused
    have hnone := ofInt32?_of_not_isRadix value hrefused
    refine ⟨hnone, ?_⟩
    rw [ofInt32, hnone]

/-- The largest magnitude in the smallest radix fills the buffer: a sign, a one, 31 zeros and the
terminator.  A radix above 36 has no text for it. -/
theorem numeral_round_trip_minValue :
    (∃ numeral, ofInt32? Int32.minValue 2 = .ok numeral ∧
      numeral.bytesWithNul = 45 :: 49 :: List.replicate 31 48 ++ [0] ∧
      numeral.bytesWithNul.length = blank.length ∧
      IsNumeral 2 (-2147483648) numeral.bytes) ∧
    ofInt32? Int32.minValue 37 = .error (.invalidBase 37) ∧
    ofInt32 Int32.minValue 37 = empty := by
  obtain ⟨numeral, hwritten, hof, hlook, -⟩ :=
    (numeral_round_trip Int32.minValue 2).1 (by decide)
  have hnul : (ofInt32 Int32.minValue 2).bytesWithNul =
      45 :: 49 :: List.replicate 31 48 ++ [0] := by decide
  rw [hof] at hnul
  refine ⟨⟨numeral, hwritten, hnul, ?_, hlook⟩,
    (numeral_round_trip Int32.minValue 37).2 (by decide)⟩
  rw [hnul]
  rfl

end Numeral
end JobSandbox
