/-!
# Byte strings

Datasets, messages and payloads are lists of bytes.  A number is stored in a fixed count of bytes,
least significant first; the same bytes can also be read most significant first, which is what the
word swap of `JobSandbox.Words` is about.

## Main definitions

* `Bytes.ofText` — the UTF-8 bytes of a text.
* `Bytes.upToNul` — a text that ends at its first zero byte.
* `Bytes.littleEndian`, `Bytes.bigEndian` — the number a byte string stands for.
* `Bytes.ofInt32`, `Bytes.toInt32` — 32-bit integers as four bytes.
-/

namespace JobSandbox

/-- A byte string. -/
abbrev Bytes := List UInt8

namespace Bytes

/-- The UTF-8 bytes of a list of characters. -/
def ofChars (cs : List Char) : Bytes := cs.flatMap String.utf8EncodeChar

/-- The UTF-8 bytes of a text. -/
def ofText (s : String) : Bytes := ofChars s.toList

@[simp] theorem ofChars_nil : ofChars [] = [] := rfl

@[simp] theorem ofChars_cons (c : Char) (cs : List Char) :
    ofChars (c :: cs) = String.utf8EncodeChar c ++ ofChars cs := rfl

@[simp] theorem ofChars_append (cs ds : List Char) :
    ofChars (cs ++ ds) = ofChars cs ++ ofChars ds := by
  simp [ofChars]

theorem ofText_append (s t : String) : ofText (s ++ t) = ofText s ++ ofText t := by
  simp [ofText]

/-! ### Terminated text -/

/-- The bytes before the first zero byte, or all of them. -/
def upToNul (bytes : Bytes) : Bytes := bytes.takeWhile (· != 0)

/-- The length of a terminated text; no text at all has length zero. -/
def textLength : Option Bytes → Nat
  | none => 0
  | some bytes => (upToNul bytes).length

@[simp] theorem textLength_none : textLength none = 0 := rfl

theorem zero_notMem_upToNul (bytes : Bytes) : (0 : UInt8) ∉ upToNul bytes := by
  have h : (upToNul bytes).all (· != 0) = true := List.all_takeWhile
  intro hz
  simpa using List.all_eq_true.mp h 0 hz

/-! ### Numbers in bytes -/

/-- The number with these digits in base 256, least significant first. -/
def littleEndian (bytes : Bytes) : Nat := bytes.foldr (fun b n => b.toNat + 256 * n) 0

/-- The number with these digits in base 256, most significant first. -/
def bigEndian (bytes : Bytes) : Nat := bytes.foldl (fun n b => 256 * n + b.toNat) 0

@[simp] theorem littleEndian_nil : littleEndian [] = 0 := rfl

@[simp] theorem littleEndian_cons (b : UInt8) (bs : Bytes) :
    littleEndian (b :: bs) = b.toNat + 256 * littleEndian bs := rfl

theorem bigEndian_append_singleton (bs : Bytes) (b : UInt8) :
    bigEndian (bs ++ [b]) = 256 * bigEndian bs + b.toNat := by
  simp [bigEndian]

/-- Reading backwards swaps the two orders. -/
theorem bigEndian_reverse (bs : Bytes) : bigEndian bs.reverse = littleEndian bs := by
  induction bs with
  | nil => rfl
  | cons b bs ih =>
    rw [List.reverse_cons, bigEndian_append_singleton, ih, littleEndian_cons, Nat.add_comm]

/-- The lowest `count` base-256 digits of `n`, least significant first. -/
def ofNat : (count n : Nat) → Bytes
  | 0, _ => []
  | count + 1, n => UInt8.ofNat n :: ofNat count (n / 256)

@[simp] theorem length_ofNat (count n : Nat) : (ofNat count n).length = count := by
  induction count generalizing n with
  | zero => rfl
  | succ count ih => simp [ofNat, ih]

theorem littleEndian_ofNat (count n : Nat) :
    littleEndian (ofNat count n) = n % Nat.pow 256 count := by
  induction count generalizing n with
  | zero => simp [ofNat, Nat.mod_one]
  | succ count ih =>
    have next : Nat.pow 256 (count + 1) = 256 * Nat.pow 256 count :=
      Nat.mul_comm (Nat.pow 256 count) 256
    rw [ofNat, littleEndian_cons, ih, next, Nat.mod_mul, UInt8.toNat_ofNat']

/-- A 32-bit integer as four bytes in two's complement. -/
def ofInt32 (v : Int32) : Bytes := ofNat 4 v.toUInt32.toNat

/-- The 32-bit integer that four bytes stand for in two's complement. -/
def toInt32 (bytes : Bytes) : Int32 := (UInt32.ofNat (littleEndian bytes)).toInt32

@[simp] theorem length_ofInt32 (v : Int32) : (ofInt32 v).length = 4 := length_ofNat _ _

theorem toInt32_ofInt32 (v : Int32) : toInt32 (ofInt32 v) = v := by
  have h : v.toUInt32.toNat % Nat.pow 256 4 = v.toUInt32.toNat :=
    Nat.mod_eq_of_lt v.toUInt32.toNat_lt
  rw [toInt32, ofInt32, littleEndian_ofNat, h]
  simp

end Bytes
end JobSandbox
