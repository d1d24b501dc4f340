import JobSandbox.Proofs.Job.Transcript
import JobSandbox.Proofs.Numeral.RoundTrip
import JobSandbox.Proofs.Utf8

/-!
# Room for a numeral

A numeral can lack room in three places: for a digit, for its sign and for its terminator.  Each of
them is found out by a write that meets no free slot, and by then all slots are taken; so the error
is the same in all three, and it names the slot behind the last one.  What decides is the length of
the whole numeral alone.

The numeral of an integer is unique.  Whatever looks like one and is read back as the integer is
what the buffer holds; in radix ten it is the decimal text of the integer.

## Main definitions

* `Slots.Put` — what a number of bytes can come to that are put into slots one by one.

## Main results

* `put_putInteger` — digits, sign and terminator are one such number of bytes.
* `Numeral.isNumeral_iff` — an integer has one numeral in a radix.
* `Numeral.numeralBytes_ten` — the numeral in radix ten is the decimal text.
* `Request.logInteger?_eq` — and it is what is logged of an integer.
* `writeInteger_exact` — **a numeral is written exactly if there is room for it and its
  terminator, and every integer is logged as its decimal text.**
-/

namespace JobSandbox

variable {base : ℕ}

/-! ### Putting bytes into slots -/

namespace Slots

/-- The number of slots, taken or free. -/
def count (slots : Slots) : ℕ := slots.written.length + slots.free.length

/-- What putting `k` bytes into slots can come to: they are written, or all slots are taken. -/
inductive Put (slots : Slots) (k : ℕ) : Except Slots Slots → Prop where
  | done {slots' : Slots} (hwritten : slots'.written.length = slots.written.length + k)
      (hcount : slots'.count = slots.count) : Put slots k (.ok slots')
  | stuck {slots' : Slots} (hfull : slots'.free = []) (hcount : slots'.count = slots.count) :
      Put slots k (.error slots')

variable {slots : Slots} {j k : ℕ}

/-- Bytes behind bytes. -/
theorem Put.bind {result : Except Slots Slots} (h : slots.Put j result)
    {next : Slots → Except Slots Slots} (hnext : ∀ slots', Put slots' k (next slots')) :
    slots.Put (j + k) (result >>= next) := by
  cases h with
  | stuck hfull hcount => exact .stuck hfull hcount
  | @done slots' hwritten hcount =>
    show slots.Put (j + k) (next slots')
    have hrest := hnext slots'
    generalize next slots' = result at hrest
    cases hrest with
    | stuck hfull hcount' => exact .stuck hfull (hcount'.trans hcount)
    | done hwritten' hcount' => exact .done (by omega) (hcount'.trans hcount)

theorem put_nothing (slots : Slots) : slots.Put 0 (.ok slots) := .done rfl rfl

theorem put_putByte (b : UInt8) (slots : Slots) : slots.Put 1 (putByte b slots) := by
  obtain ⟨written, free⟩ := slots
  cases free with
  | nil => exact .stuck rfl rfl
  | cons slot free =>
    refine .done rfl ?_
    simp only [count, List.length_cons]
    omega

theorem put_putDigits (hbase : 1 < base) (n : ℕ) (written free : Bytes) :
    Put ⟨written, free⟩ (digitsOf base n).length (putDigits base n written free) := by
  rw [putDigits_eq hbase]
  dsimp only
  split
  · next hroom =>
    rw [List.length_map] at hroom
    refine .done ?_ ?_
    · simp only [List.length_append, List.length_reverse, List.length_map]
      omega
    · simp only [count, List.length_append, List.length_reverse, List.length_map, List.length_drop]
      omega
  · next hroom =>
    rw [List.length_map] at hroom
    refine .stuck rfl ?_
    simp only [count, List.length_append, List.length_reverse, List.length_take, List.length_map,
      List.length_nil]
    omega

/-- Digits, sign and terminator are as many bytes as the numeral has, and one more. -/
theorem put_putInteger (hbase : 1 < base) (value : Int32) (buffer : Bytes) :
    (ofBuffer buffer).Put ((numeralBytes base value.toInt).length + 1)
      (putInteger value base buffer) := by
  have hdigits := put_putDigits hbase value.toInt.natAbs [] buffer
  unfold putInteger
  by_cases hneg : value.toInt < 0
  · rw [numeralBytes_of_neg hneg, List.length_cons, length_digitBytes]
    simp only [hneg, if_true]
    rw [Nat.add_assoc]
    exact hdigits.bind fun slots => (put_putByte minusByte slots).bind fun slots =>
      put_putByte 0 slots
  · rw [numeralBytes_of_nonneg hneg, length_digitBytes]
    simp only [hneg, if_false]
    have hlast (slots : Slots) : slots.Put (0 + 1) (.ok slots >>= putByte 0) :=
      slots.put_nothing.bind fun slots => put_putByte 0 slots
    exact hdigits.bind hlast

end Slots

/-- **A buffer without room for a numeral and its terminator is reported by its length**, whatever
it was that found no slot. -/
theorem writeInteger_of_no_room (hradix : IsRadix base) (value : Int32) {buffer : Bytes}
    (hfull : buffer.length ≤ (numeralBytes base value.toInt).length) :
    (writeInteger value base buffer).1 =
      .error (.outOfBounds (buffer.length + 1) buffer.length) := by
  have hput := Slots.put_putInteger hradix.1 value buffer
  have hcount : (Slots.ofBuffer buffer).count = buffer.length := by
    simp [Slots.count, Slots.ofBuffer]
  unfold writeInteger
  rw [if_pos hradix]
  generalize putInteger value base buffer = result at hput
  cases hput with
  | @done slots hwritten hslots =>
    -- a numeral that was written has taken more slots than there are
    have hsum : slots.count = slots.written.length + slots.free.length := rfl
    omega
  | @stuck slots hfree hslots =>
    have hsum : slots.count = slots.written.length + slots.free.length := rfl
    rw [hfree, List.length_nil] at hsum
    have htaken : slots.written.length = buffer.length := by omega
    simp only [Slots.full, htaken]

namespace Numeral

/-! ### The one numeral of an integer -/

theorem eq_digitByte_of_digitValue? {b : UInt8} {d : ℕ} (h : digitValue? b = some d) :
    b = digitByte d := by
  unfold digitValue? at h
  simp only [UInt8.le_iff_toNat_le] at h
  split at h
  · next hdigit =>
    have hd : d < 10 ∧ 48 + d = b.toNat := by simp at h hdigit; omega
    rw [digitByte, if_pos hd.1, hd.2, UInt8.ofNat_toNat]
  · next hdigit =>
    split at h
    · next hletter =>
      have hd : ¬d < 10 ∧ 87 + d = b.toNat := by simp at h hletter; omega
      rw [digitByte, if_neg hd.1, hd.2, UInt8.ofNat_toNat]
    · cases h

/-- A text of digits is the text of some digits. -/
theorem exists_eq_map_digitByte {bytes : Bytes}
    (h : ∀ b ∈ bytes, ∃ d < base, digitValue? b = some d) :
    ∃ ds : List ℕ, bytes = ds.map digitByte ∧ ∀ d ∈ ds, d < base := by
  induction bytes with
  | nil => exact ⟨[], rfl, fun d hd => absurd hd List.not_mem_nil⟩
  | cons b bytes ih =>
    obtain ⟨⟨d, hd, hvalue⟩, hbytes⟩ := List.forall_mem_cons.mp h
    obtain ⟨ds, rfl, hds⟩ := ih hbytes
    refine ⟨d :: ds, ?_, List.forall_mem_cons.mpr ⟨hd, hds⟩⟩
    rw [List.map_cons, ← eq_digitByte_of_digitValue? hvalue]

/-- Digits that do not begin with zero are those of the number that they are read as. -/
theorem digitBytes_of_readDigits? (hradix : IsRadix base) {bytes : Bytes} {n : ℕ}
    (hdigits : ∀ b ∈ bytes, ∃ d < base, digitValue? b = some d) (hne : bytes ≠ [])
    (hhead : bytes.head? ≠ some 48) (hread : readDigits? base bytes = some n) :
    digitBytes base n = bytes := by
  obtain ⟨ds, rfl, hds⟩ := exists_eq_map_digitByte hdigits
  have hds' : ∀ d ∈ ds.reverse, d < base := fun d hd => hds d (List.mem_reverse.mp hd)
  have hback := readDigits?_reverse_map hradix.2 hds'
  rw [List.map_reverse, List.reverse_reverse, hread, Option.some.injEq] at hback
  have hlast : ∀ h : ds.reverse ≠ [], ds.reverse.getLast h ≠ 0 := by
    intro h hzero
    rw [List.getLast_reverse] at hzero
    refine hhead ?_
    rw [List.head?_map, List.head?_eq_some_head (List.reverse_ne_nil_iff.mp h), hzero]
    rfl
  have hnat : Nat.digits base n = ds.reverse := by
    rw [hback]
    exact Nat.digits_ofDigits base hradix.1 _ hds' hlast
  have hn : n ≠ 0 := by
    rintro rfl
    rw [Nat.digits_zero, eq_comm, List.reverse_eq_nil_iff] at hnat
    exact hne (by rw [hnat, List.map_nil])
  rw [digitBytes, digitsOf, if_neg hn, hnat, List.map_reverse, List.reverse_reverse]

/-- What stands behind the sign of a numeral is read as the magnitude. -/
theorem IsNumeral.readDigits?_unsigned {value : ℤ} {bytes : Bytes}
    (h : IsNumeral base value bytes) :
    readDigits? base (unsigned bytes) = some value.natAbs := by
  have hread := h.reads_back
  have hne := h.unsigned_ne_nil
  unfold unsigned at hne ⊢
  cases bytes with
  | nil => cases hread
  | cons b rest =>
    simp only [List.head?_cons, Option.some.injEq] at hne ⊢
    rw [read?] at hread
    by_cases hb : b = minusByte
    · rw [if_pos hb, List.tail_cons] at hne ⊢
      rw [if_pos hb, if_neg hne] at hread
      obtain ⟨n, hn, rfl⟩ := Option.map_eq_some_iff.mp hread
      rw [hn, Int.natAbs_neg, Int.natAbs_natCast]
    · rw [if_neg hb] at hne hread ⊢
      obtain ⟨n, hn, rfl⟩ := Option.map_eq_some_iff.mp hread
      rw [hn, Int.natAbs_natCast]

/-- **An integer has one numeral in a radix.** -/
theorem isNumeral_iff (hradix : IsRadix base) {value : ℤ} {bytes : Bytes} :
    IsNumeral base value bytes ↔ bytes = numeralBytes base value := by
  constructor
  · intro h
    by_cases hzero : (unsigned bytes).head? = some 48
    · obtain ⟨rfl, rfl⟩ := h.leading_zero hzero
      rfl
    · have hdigits := digitBytes_of_readDigits? hradix h.digits_lt h.unsigned_ne_nil hzero
        h.readDigits?_unsigned
      have hsign := h.sign
      unfold unsigned at hdigits
      by_cases hneg : value < 0
      · rw [numeralBytes_of_neg hneg, hdigits, if_pos (hsign.mpr hneg)]
        exact (List.cons_head?_tail (hsign.mpr hneg)).symm
      · rw [numeralBytes_of_nonneg hneg, hdigits, if_neg (mt hsign.mp hneg)]
  · rintro rfl
    exact isNumeral_numeralBytes hradix value

/-! ### Decimal text -/

/-- Up to radix sixteen, digits are those of the library. -/
theorem ofChars_toDigits (hbase : 1 < base) (hle : base ≤ 16) (n : ℕ) :
    Bytes.ofChars (Nat.toDigits base n) = digitBytes base n := by
  have hdigit : ∀ d < 16, Bytes.ofChars [d.digitChar] = [digitByte d] := by decide
  induction n using Nat.strong_induction_on with
  | _ n ih =>
    have hmod : n % base < 16 := (Nat.mod_lt n (by omega)).trans_le hle
    rw [digitBytes, digitsOf_eq hbase]
    rcases Nat.lt_or_ge n base with hlt | hge
    · rw [Nat.toDigits_of_lt_base hlt, hdigit n (by omega), Nat.div_eq_of_lt hlt, if_pos rfl,
        Nat.mod_eq_of_lt hlt]
      rfl
    · have hdiv : n / base ≠ 0 := (Nat.div_pos hge (by omega)).ne'
      rw [Nat.toDigits_of_base_le hbase hge, Bytes.ofChars_append, hdigit _ hmod,
        ih (n / base) (Nat.div_lt_self (by omega) hbase), if_neg hdiv, List.map_cons,
        List.reverse_cons]
      rfl

/-- **The numeral in radix ten is the decimal text.** -/
theorem numeralBytes_ten (value : ℤ) :
    numeralBytes 10 value = Bytes.ofText (toString value) := by
  have hnat (n : ℕ) : Bytes.ofText (toString n) = digitBytes 10 n := by
    rw [Nat.toString_eq_ofList_toDigits, Bytes.ofText, String.toList_ofList,
      ofChars_toDigits (by decide) (by decide)]
  cases value with
  | ofNat n =>
    rw [numeralBytes_of_nonneg (by simp)]
    exact (hnat n).symm
  | negSucc n =>
    have htext : toString (Int.negSucc n) = "-" ++ toString (n + 1) := rfl
    rw [numeralBytes_of_neg (Int.negSucc_lt_zero n), Int.natAbs_negSucc, ← hnat, htext,
      Bytes.ofText_append]
    rfl

end Numeral

/-! ### Exact room -/

/-- What is logged of an integer is its decimal text. -/
theorem Request.logInteger?_eq (value : Int32) :
    Request.logInteger? value = some (.log (Bytes.ofText (toString value.toInt))) := by
  rw [Request.logInteger?,
    writeInteger_of_room (by decide) value (length_numeralBytes_ten_lt value),
    Numeral.numeralBytes_ten]
  simp only [List.take_left]

/-- **A numeral is written exactly if there is room for it and its terminator.**  It then stands at
the front of the buffer, and nothing behind its terminator has changed; otherwise the error names
the slot behind the last.  The buffer for logged integers always has room, so that each of them is
one call, which carries the decimal text. -/
theorem writeInteger_exact {ν : Type} (value : Int32) :
    (∀ (base : ℕ) (buffer : Bytes), 2 ≤ base → base ≤ 36 →
      ∃ text : Bytes, (∀ bytes, Numeral.IsNumeral base value.toInt bytes ↔ bytes = text) ∧
        ((∃ length, (writeInteger value base buffer).1 = .ok length) ↔
          text.length < buffer.length) ∧
        (text.length < buffer.length → writeInteger value base buffer =
          (.ok text.length, text ++ 0 :: buffer.drop (text.length + 1))) ∧
        (buffer.length ≤ text.length → (writeInteger value base buffer).1 =
          .error (.outOfBounds (buffer.length + 1) buffer.length))) ∧
    Numeral.IsNumeral 10 value.toInt (Bytes.ofText (toString value.toInt)) ∧
    ∀ session : Session,
      (Job.logInteger value : Job ν Unit).run session =
        ⟨.ok (), [], { session with
          host := session.host.log (Bytes.ofText (toString value.toInt)) }⟩ ∧
      ((Job.logInteger value : Job ν Unit).run session).session.host.logs =
        session.host.logs ++ [toString value.toInt] := by
  refine ⟨fun base buffer hmin hmax => ?_, ?_, fun session => ?_⟩
  · have hradix : IsRadix base := ⟨hmin, hmax⟩
    have hfits (hroom : (numeralBytes base value.toInt).length < buffer.length) :=
      writeInteger_of_room hradix value hroom
    have hfull (hnone : buffer.length ≤ (numeralBytes base value.toInt).length) :=
      writeInteger_of_no_room hradix value hnone
    refine ⟨numeralBytes base value.toInt, fun bytes => Numeral.isNumeral_iff hradix, ?_, hfits,
      hfull⟩
    constructor
    · rintro ⟨length, hok⟩
      by_contra hroom
      rw [hfull (not_lt.mp hroom)] at hok
      cases hok
    · intro hroom
      exact ⟨_, congrArg Prod.fst (hfits hroom)⟩
  · rw [← Numeral.numeralBytes_ten]
    exact Numeral.isNumeral_numeralBytes (by decide) value.toInt
  · have hrun : (Job.logInteger value : Job ν Unit).run session =
        ⟨.ok (), [], { session with
          host := session.host.log (Bytes.ofText (toString value.toInt)) }⟩ := by
      rw [Job.logInteger, Request.logInteger?_eq]
      rfl
    refine ⟨hrun, ?_⟩
    rw [hrun]
    simp only [Host.logs, Host.calls_log, List.filterMap_append, List.filterMap_cons,
      List.filterMap_nil, HostCall.logged?, Option.map_some, Utf8.lossy_ofText]

/-- Three characters and a terminator need four bytes, and not three. -/
theorem writeInteger_exact_of_minus_twelve :
    writeInteger (-12) 10 [7, 7, 7, 7, 7] = (.ok 3, [45, 49, 50, 0, 7]) ∧
    (writeInteger (-12) 10 [7, 7, 7]).1 = .error (.outOfBounds 4 3) := by
  have hnumeral : Numeral.IsNumeral 10 (-12) [45, 49, 50] := (@writeInteger_exact Unit (-12)).2.1
  obtain ⟨text, htext, -, hfits, -⟩ :=
    (@writeInteger_exact Unit (-12)).1 10 [7, 7, 7, 7, 7] (by decide) (by decide)
  obtain ⟨text', htext', -, -, hfull⟩ :=
    (@writeInteger_exact Unit (-12)).1 10 [7, 7, 7] (by decide) (by decide)
  obtain rfl := (htext _).mp hnumeral
  obtain rfl := (htext' _).mp hnumeral
  exact ⟨hfits (by decide), hfull (by decide)⟩

end JobSandbox
