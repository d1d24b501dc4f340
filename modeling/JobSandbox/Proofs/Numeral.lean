import JobSandbox.Host
import Mathlib.Data.Nat.Digits.Lemmas

/-!
# The numeral in a buffer

Division leaves the digits of a number least significant first, and in that order they are put into
the buffer.  Read from the latest byte back, the buffer then holds them as they are read; the sign
comes last, so it is read first.  What the numeral of an integer is can thus be said without the
buffer, `numeralBytes`, and writing it means that the buffer has room for it and its terminator.

A number below the `k`-th power of the radix has no more than `k` digits.  For the integers that are
logged this means that their buffer is never too small: every one of them comes to be logged.

## Main definitions

* `digitsOf` — the digits of a number, least significant first; zero has one.
* `numeralBytes` — the numeral of an integer.

## Main results

* `putDigits_eq` — what putting digits into free slots comes to, with room and without.
* `writeInteger_of_room` — **a buffer with room for it holds the numeral, and the rest it held.**
* `length_numeralBytes_le` — how long the numeral of a 32-bit integer can be.
* `Request.exists_logInteger` — **every integer is logged.**
-/

namespace JobSandbox

variable {base : ℕ}

/-! ### Digits -/

/-- The digits of a number, least significant first; zero has one digit. -/
def digitsOf (base n : ℕ) : List ℕ := if n = 0 then [0] else Nat.digits base n

/-- Digits come out by division. -/
theorem digitsOf_eq (hbase : 1 < base) (n : ℕ) :
    digitsOf base n = n % base :: if n / base = 0 then [] else digitsOf base (n / base) := by
  rcases Nat.eq_zero_or_pos n with rfl | hpos
  · simp [digitsOf]
  · unfold digitsOf
    rw [if_neg hpos.ne', Nat.digits_def' hbase hpos]
    split
    · next hlast => rw [hlast, Nat.digits_zero]
    · rfl

theorem digitsOf_ne_nil (base n : ℕ) : digitsOf base n ≠ [] := by
  unfold digitsOf
  split
  · exact List.cons_ne_nil _ _
  · next hn => exact Nat.digits_ne_nil_iff_ne_zero.mpr hn

theorem lt_of_mem_digitsOf (hbase : 1 < base) {d n : ℕ} (h : d ∈ digitsOf base n) : d < base := by
  unfold digitsOf at h
  split at h
  · rw [List.mem_singleton] at h
    omega
  · exact Nat.digits_lt_base hbase h

theorem ofDigits_digitsOf (base n : ℕ) : Nat.ofDigits base (digitsOf base n) = n := by
  unfold digitsOf
  split
  · next hn => simp [hn]
  · exact Nat.ofDigits_digits base n

/-- Below a power of the radix there are no more digits than its exponent. -/
theorem length_digitsOf_le (hbase : 1 < base) {k n : ℕ} (hn : n < base ^ (k + 1)) :
    (digitsOf base n).length ≤ k + 1 := by
  unfold digitsOf
  split
  · simp
  · exact (Nat.digits_length_le_iff hbase n).mpr hn

/-! ### Putting digits into a buffer -/

/-- **What putting digits comes to.**  With room for all of them the most significant one comes to
stand in front; without it the slots are filled as far as they go. -/
theorem putDigits_eq (hbase : 1 < base) (n : ℕ) (written free : Bytes) :
    putDigits base n written free =
      let bytes := (digitsOf base n).map digitByte
      if bytes.length ≤ free.length then
        .ok ⟨bytes.reverse ++ written, free.drop bytes.length⟩
      else .error ⟨(bytes.take free.length).reverse ++ written, []⟩ := by
  induction free generalizing n written with
  | nil =>
    have hpos : 0 < (digitsOf base n).length :=
      List.length_pos_iff.mpr (digitsOf_ne_nil base n)
    simp only [putDigits, List.length_map, List.length_nil, List.take_zero, List.reverse_nil,
      List.nil_append]
    rw [if_neg (by omega)]
  | cons slot free ih =>
    rw [putDigits, digitsOf_eq hbase n]
    by_cases hlast : n / base = 0
    · simp [hlast]
    · rw [if_neg hlast, if_neg hlast, ih]
      simp only [List.map_cons, List.length_cons, Nat.add_le_add_iff_right, List.reverse_cons,
        List.append_assoc, List.singleton_append, List.drop_succ_cons, List.take_succ_cons]

/-! ### The numeral -/

/-- The digits of a number as they are read, most significant first. -/
def digitBytes (base n : ℕ) : Bytes := ((digitsOf base n).map digitByte).reverse

/-- The numeral of an integer: a minus sign if it is negative, then the digits of its magnitude. -/
def numeralBytes (base : ℕ) (value : ℤ) : Bytes :=
  (if value < 0 then [minusByte] else []) ++ digitBytes base value.natAbs

@[simp] theorem length_digitBytes (base n : ℕ) :
    (digitBytes base n).length = (digitsOf base n).length := by
  rw [digitBytes, List.length_reverse, List.length_map]

theorem digitBytes_ne_nil (base n : ℕ) : digitBytes base n ≠ [] := by
  simp [digitBytes, digitsOf_ne_nil]

theorem numeralBytes_of_neg {value : ℤ} (h : value < 0) :
    numeralBytes base value = minusByte :: digitBytes base value.natAbs := by
  rw [numeralBytes, if_pos h, List.singleton_append]

theorem numeralBytes_of_nonneg {value : ℤ} (h : ¬value < 0) :
    numeralBytes base value = digitBytes base value.natAbs := by
  rw [numeralBytes, if_neg h, List.nil_append]

theorem putByte_of_room (b : UInt8) (written : Bytes) {free : Bytes} (hroom : 0 < free.length) :
    putByte b ⟨written, free⟩ = .ok ⟨b :: written, free.drop 1⟩ := by
  cases free with
  | nil => simp at hroom
  | cons slot free => rfl

/-- Digits that find room. -/
theorem putDigits_of_room (hbase : 1 < base) {n : ℕ} {buffer : Bytes}
    (hroom : (digitBytes base n).length ≤ buffer.length) :
    putDigits base n [] buffer =
      .ok ⟨digitBytes base n, buffer.drop (digitBytes base n).length⟩ := by
  rw [length_digitBytes] at hroom ⊢
  rw [putDigits_eq hbase]
  simp only [List.length_map, hroom, if_true, List.append_nil, digitBytes]

/-- Digits, sign and terminator, as they are read from the latest byte back. -/
theorem putInteger_of_room (hbase : 1 < base) (value : Int32) {buffer : Bytes}
    (hroom : (numeralBytes base value.toInt).length < buffer.length) :
    putInteger value base buffer =
      .ok ⟨0 :: numeralBytes base value.toInt,
        buffer.drop ((numeralBytes base value.toInt).length + 1)⟩ := by
  by_cases hneg : value.toInt < 0
  · rw [numeralBytes_of_neg hneg] at hroom ⊢
    rw [List.length_cons] at hroom ⊢
    rw [putInteger, putDigits_of_room hbase (by omega)]
    simp only [hneg, if_true, bind, Except.bind]
    rw [putByte_of_room minusByte _ (by rw [List.length_drop]; omega), List.drop_drop]
    dsimp only
    rw [putByte_of_room 0 _ (by rw [List.length_drop]; omega), List.drop_drop]
  · rw [numeralBytes_of_nonneg hneg] at hroom ⊢
    rw [putInteger, putDigits_of_room hbase (by omega)]
    simp only [hneg, if_false, bind, Except.bind]
    rw [putByte_of_room 0 _ (by rw [List.length_drop]; omega), List.drop_drop]

/-- **A buffer with room for the numeral and its terminator holds them**, and behind them what it
held before. -/
theorem writeInteger_of_room (hradix : IsRadix base) (value : Int32) {buffer : Bytes}
    (hroom : (numeralBytes base value.toInt).length < buffer.length) :
    writeInteger value base buffer =
      (.ok (numeralBytes base value.toInt).length, numeralBytes base value.toInt ++
        0 :: buffer.drop ((numeralBytes base value.toInt).length + 1)) := by
  have hbase : 1 < base := hradix.1
  unfold writeInteger
  rw [if_pos hradix, putInteger_of_room hbase value hroom]
  rfl

/-- A 32-bit integer has a magnitude of at most `2 ^ 31`: below a higher power of the radix, the
exponent bounds its numeral. -/
theorem length_numeralBytes_le (hbase : 1 < base) {k : ℕ} (hpow : 2 ^ 31 < base ^ (k + 1))
    (value : Int32) : (numeralBytes base value.toInt).length ≤ k + 2 := by
  have hmagnitude : value.toInt.natAbs < base ^ (k + 1) := by
    have hlt := value.toInt_lt
    have hle := value.le_toInt
    omega
  have hdigits := length_digitsOf_le hbase hmagnitude
  by_cases hneg : value.toInt < 0
  · rw [numeralBytes_of_neg hneg, List.length_cons, length_digitBytes]
    omega
  · rw [numeralBytes_of_nonneg hneg, length_digitBytes]
    omega

/-- The buffer of a logged integer has room for every decimal numeral. -/
theorem length_numeralBytes_ten_lt (value : Int32) :
    (numeralBytes 10 value.toInt).length <
      (List.replicate Contract.logIntegerRoom (0 : UInt8)).length := by
  have hlength : (numeralBytes 10 value.toInt).length ≤ 9 + 2 :=
    length_numeralBytes_le (by decide) (by decide) value
  rw [List.length_replicate, Contract.logIntegerRoom]
  omega

/-- **Every integer is logged.** -/
theorem Request.exists_logInteger (value : Int32) :
    ∃ message, Request.logInteger? value = some (.log message) := by
  rw [Request.logInteger?,
    writeInteger_of_room (by decide) value (length_numeralBytes_ten_lt value)]
  exact ⟨_, rfl⟩

end JobSandbox
