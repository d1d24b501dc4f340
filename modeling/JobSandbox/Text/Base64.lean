import JobSandbox.Bytes

/-!
# Base64 text

Three bytes are four digits of six bits, most significant first.  One or two bytes at the end give
two or three digits and are padded to four.  Reading accepts exactly what writing produces: padding
is wanted, and the bits of the last digit that no byte uses have to be zero.

## Main definitions

* `Base64.ofBytes` — the text of a byte string.
* `Base64.decode?` — the bytes of a text.
-/

namespace JobSandbox
namespace Base64

/-- The digits, in the order of their values. -/
def alphabet : List Char :=
  "ABCDEFGHIJKLMNOPQRSTUVWXYZabcdefghijklmnopqrstuvwxyz0123456789+/".toList

def padding : Char := '='

/-- The digit of a value below 64. -/
def digitChar (v : Nat) : Char :=
  if v < 26 then Char.ofNat (65 + v)
  else if v < 52 then Char.ofNat (71 + v)
  else if v < 62 then Char.ofNat (v - 4)
  else if v = 62 then '+'
  else '/'

/-- The value of a digit. -/
def digitValue? (c : Char) : Option Nat :=
  let n := c.toNat
  if 65 ≤ n ∧ n ≤ 90 then some (n - 65)
  else if 97 ≤ n ∧ n ≤ 122 then some (n - 71)
  else if 48 ≤ n ∧ n ≤ 57 then some (n + 4)
  else if c = '+' then some 62
  else if c = '/' then some 63
  else none

/-! ### Writing -/

/-- The digits of three bytes. -/
def encodeThree (a b c : UInt8) : List Char :=
  [digitChar (a.toNat / 4), digitChar (a.toNat % 4 * 16 + b.toNat / 16),
   digitChar (b.toNat % 16 * 4 + c.toNat / 64), digitChar (c.toNat % 64)]

/-- The padded digits of what is left after all threes. -/
def encodeLast : Bytes → List Char
  | [a] => [digitChar (a.toNat / 4), digitChar (a.toNat % 4 * 16), padding, padding]
  | [a, b] =>
    [digitChar (a.toNat / 4), digitChar (a.toNat % 4 * 16 + b.toNat / 16),
     digitChar (b.toNat % 16 * 4), padding]
  | _ => []

/-- Digits of a byte string behind those already written, the latest first. -/
def encodeOnto : (done : List Char) → Bytes → List Char
  | done, a :: b :: c :: rest => encodeOnto ((encodeThree a b c).reverse ++ done) rest
  | done, last => done.reverseAux (encodeLast last)

/-- The digits of a byte string. -/
def encode (bytes : Bytes) : List Char := encodeOnto [] bytes

def ofBytes (bytes : Bytes) : String := String.ofList (encode bytes)

/-! ### Reading -/

/-- The bytes of four digits that may end in padding; with padding, nothing may follow. -/
def decodeFour (a b c d : Char) (last : Bool) : Option Bytes := do
  let a ← digitValue? a
  let b ← digitValue? b
  if c = padding then
    if last ∧ d = padding ∧ b % 16 = 0 then some [UInt8.ofNat (a * 4 + b / 16)] else none
  else
    let c ← digitValue? c
    if d = padding then
      if last ∧ c % 4 = 0 then
        some [UInt8.ofNat (a * 4 + b / 16), UInt8.ofNat (b % 16 * 16 + c / 4)]
      else none
    else
      let d ← digitValue? d
      some [UInt8.ofNat (a * 4 + b / 16), UInt8.ofNat (b % 16 * 16 + c / 4),
        UInt8.ofNat (c % 4 * 64 + d)]

/-- Bytes of a text behind those already read, the latest first. -/
def decodeOnto : (done : Bytes) → List Char → Option Bytes
  | done, [] => some done.reverse
  | done, a :: b :: c :: d :: rest =>
    match decodeFour a b c d rest.isEmpty with
    | none => none
    | some bytes => decodeOnto (bytes.reverse ++ done) rest
  | _, _ => none

/-- The bytes of the digits of a text. -/
def decode? (digits : List Char) : Option Bytes := decodeOnto [] digits

/-! ### The two tables agree -/

theorem digitChar_eq_alphabet : ∀ v < 64, alphabet[v]? = some (digitChar v) := by decide

theorem digitValue?_digitChar : ∀ v < 64, digitValue? (digitChar v) = some v := by decide

end Base64
end JobSandbox
