import JobSandbox.Single
import JobSandbox.Text.Hex

/-!
# Reading JSON

A text is read into a document as far as it goes.  Where it stops being JSON the document is broken,
and the containers around that place are left open; what was read before is kept, because whoever
decodes the document may find a fault of shape further to the front.

Some texts are JSON to one who skips them and none to one who wants their value: strings with
unpaired surrogates, and numbers out of reach.  A document keeps them apart too.

## Main definitions

* `Numeric` — the value of a number: whole, or a double.
* `Document` — a text that was read.
* `Document.ofChars` — the document at the start of a text, and what follows it.
* `Document.isComplete`, `Document.isContent` — documents that can be skipped, and taken as values.
-/

namespace JobSandbox

/-! ### Numbers -/

/-- A number as it is written. -/
structure NumberText where
  negative : Bool
  whole : List Char
  /-- The digits behind the point, if there is one. -/
  fraction : Option (List Char)
  /-- The sign and digits of the exponent, if there is one. -/
  exponent : Option (Bool × List Char)
  deriving DecidableEq, Repr

/-- What a number stands for. -/
inductive Numeric where
  | natural (n : Nat)
  /-- The number `-n`, for `n` not zero. -/
  | negative (n : Nat)
  | real (x : Float)

namespace NumberText

def digitOf (c : Char) : Nat := c.toNat - 48

/-- One more than the largest significand. -/
def significandLimit : Nat := 0x10000000000000000

/-- Appends digits to a significand until it would outgrow its limit.  The answer is the
significand and the number of digits that were left out. -/
def gather : (significand : Nat) → List Char → Nat × Nat
  | significand, [] => (significand, 0)
  | significand, c :: cs =>
    let next := 10 * significand + digitOf c
    if next < significandLimit then gather next cs else (significand, (c :: cs).length)

/-- A power of ten as a double. -/
def power (k : Nat) : Float := Float.ofScientific 1 false k

/-- The largest power of ten that is a double. -/
def maxPower : Nat := 308

/-- Multiplies or divides a double by a power of ten, in steps that are doubles themselves.  There
is no value if it is out of reach. -/
def scale (x : Float) (exponent : Int) : Option Float :=
  if exponent.natAbs ≤ maxPower then
    if 0 ≤ exponent then
      let y := x * power exponent.toNat
      if y.isInf then none else some y
    else some (x / power exponent.natAbs)
  else if x == 0 then some x
  else if 0 ≤ exponent then none
  -- A double divided twice by the largest power is zero.
  else if exponent.natAbs ≤ 2 * maxPower then
    some (x / power maxPower / power (exponent.natAbs - maxPower))
  else some (x / power maxPower / power maxPower / power maxPower)

def withSign (negative : Bool) (x : Float) : Float := if negative then -x else x

/-- Exponents have to be 32-bit integers. -/
def exponentLimit : Int := 0x80000000

def saturate (e : Int) : Int := max (-exponentLimit) (min e (exponentLimit - 1))

def decimalOf (digits : List Char) : Nat := digits.foldl (fun n c => 10 * n + digitOf c) 0

/-- The double for a significand, a power of ten, and the exponent as it is written. -/
def real? (negative : Bool) (significand : Nat) (shift : Int) :
    Option (Bool × List Char) → Option Float
  | none => (scale significand.toUInt64.toFloat shift).map (withSign negative)
  | some (down, digits) =>
    let e := decimalOf digits
    if (e : Int) < exponentLimit then
      let shift := saturate (if down then shift - e else shift + e)
      (scale significand.toUInt64.toFloat shift).map (withSign negative)
    else if significand ≠ 0 ∧ !down then none
    else some (withSign negative 0)

/-- The value of a number.  It is whole if it is written without point and exponent, fits a 64-bit
integer and is not a negative zero; else it is a double.  There is none if it is out of reach. -/
def value? (number : NumberText) : Option Numeric :=
  let (significand, dropped) := gather 0 number.whole
  match number.fraction, number.exponent with
  | none, none =>
    if dropped ≠ 0 then (real? number.negative significand dropped none).map .real
    else if !number.negative then some (.natural significand)
    else if significand = 0 ∨ 0x8000000000000000 < significand then
      some (.real (withSign true significand.toUInt64.toFloat))
    else some (.negative significand)
  | none, some e => (real? number.negative significand dropped (some e)).map .real
  | some digits, e =>
    let (longer, left) := gather significand digits
    let shift : Int := dropped - (digits.length - left : Nat)
    (real? number.negative longer shift e).map .real

end NumberText

/-! ### Documents -/

/-- A text that was read, as far as it is JSON. -/
inductive Document where
  | null
  | bool (value : Bool)
  | number (text : NumberText)
  /-- A string, without a text if it has an unpaired surrogate. -/
  | string (text : Option String)
  | array (items : List Document) (closed : Bool)
  | object (fields : List (Option String × Document)) (closed : Bool)
  | broken

namespace Document

/-- White space between tokens. -/
def isGap (c : Char) : Bool := c == ' ' || c == '\n' || c == '\t' || c == '\r'

def skipGap (cs : List Char) : List Char := cs.dropWhile isGap

/-! ### Strings -/

/-- The code unit of four hexadecimal digits. -/
def unit? (a b c d : Char) : Option Nat := do
  let a ← Hex.valueOfCode? a.toNat
  let b ← Hex.valueOfCode? b.toNat
  let c ← Hex.valueOfCode? c.toNat
  let d ← Hex.valueOfCode? d.toNat
  pure (((16 * a + b) * 16 + c) * 16 + d)

/-- The character of a short escape. -/
def shortEscape? (c : Char) : Option Char :=
  if c = '"' ∨ c = '\\' ∨ c = '/' then some c
  else if c = 'b' then some (Char.ofNat 0x8)
  else if c = 'f' then some (Char.ofNat 0xc)
  else if c = 'n' then some '\n'
  else if c = 'r' then some '\r'
  else if c = 't' then some '\t'
  else none

/-- A string under way. -/
structure Literal where
  /-- The characters so far, the latest first. -/
  found : List Char := []
  /-- A leading surrogate that waits for its other half. -/
  lead : Option Nat := none
  /-- Whether all surrogates so far are paired. -/
  paired : Bool := true

namespace Literal

/-- A character that is no surrogate. -/
def char (literal : Literal) (c : Char) : Literal where
  found := c :: literal.found
  paired := literal.paired && literal.lead.isNone

/-- A code unit of an escape. -/
def unit (literal : Literal) (n : Nat) : Literal :=
  if 0xd800 ≤ n ∧ n < 0xdc00 then
    { found := literal.found, lead := some n, paired := literal.paired && literal.lead.isNone }
  else if 0xdc00 ≤ n ∧ n < 0xe000 then
    match literal.lead with
    | some high =>
      { found := Char.ofNat (0x10000 + (high - 0xd800) * 0x400 + (n - 0xdc00)) :: literal.found
        paired := literal.paired }
    | none => { found := literal.found, paired := false }
  else literal.char (Char.ofNat n)

/-- The text at the end of the string. -/
def finish (literal : Literal) : Option String :=
  if literal.paired && literal.lead.isNone then some (String.ofList literal.found.reverse)
  else none

end Literal

/-- Reads a string up to its closing quote.  The answer is its text and what follows, unless the
string has no end, a bare control character or a bad escape. -/
def readString : Literal → List Char → Option (Option String × List Char)
  | _, [] => none
  | literal, '"' :: rest => some (literal.finish, rest)
  | literal, '\\' :: 'u' :: a :: b :: c :: d :: rest =>
    match unit? a b c d with
    | some n => readString (literal.unit n) rest
    | none => none
  | literal, '\\' :: c :: rest =>
    match shortEscape? c with
    | some c => readString (literal.char c) rest
    | none => none
  | literal, c :: rest =>
    if c = '\\' ∨ c.toNat < 0x20 then none else readString (literal.char c) rest

/-! ### Numbers -/

/-- The digits at the start of a text, and what follows. -/
def digits (cs : List Char) : List Char × List Char :=
  (cs.takeWhile Char.isDigit, cs.dropWhile Char.isDigit)

/-- The exponent of a number, if there is one: at least one digit behind `e`. -/
def readExponent : List Char → Option (Option (Bool × List Char) × List Char)
  | c :: rest =>
    if c = 'e' ∨ c = 'E' then
      let (down, rest) := match rest with
        | '+' :: rest => (false, rest)
        | '-' :: rest => (true, rest)
        | rest => (false, rest)
      let (found, rest) := digits rest
      if found.isEmpty then none else some (some (down, found), rest)
    else some (none, c :: rest)
  | [] => some (none, [])

/-- The fraction of a number, if there is one: at least one digit behind the point. -/
def readFraction : List Char → Option (Option (List Char) × List Char)
  | '.' :: rest =>
    let (found, rest) := digits rest
    if found.isEmpty then none else some (some found, rest)
  | rest => some (none, rest)

/-- A number behind its sign.  There is no zero in front of other digits. -/
def readNumber (negative : Bool) (cs : List Char) : Option (NumberText × List Char) := do
  let (whole, rest) := digits cs
  if whole.isEmpty ∨ (whole.head? = some '0' ∧ whole.length ≠ 1) then none
  else
    let (fraction, rest) ← readFraction rest
    let (exponent, rest) ← readExponent rest
    pure (⟨negative, whole, fraction, exponent⟩, rest)

/-! ### Values -/

/-- A document that is one token, if the text goes on with the rest of that token. -/
def readWord (word : String) (document : Document) (cs : List Char) :
    Document × Option (List Char) :=
  if word.toList.isPrefixOf cs then (document, some (cs.drop word.length)) else (broken, none)

mutual

/-- The document at the start of a text.  What follows it is only known if it is complete.  Every
call reads at least one character or hands over to another that does, so twice the length of the
text and one more is `fuel` enough. -/
def readValue : (fuel : Nat) → List Char → Document × Option (List Char)
  | 0, _ => (broken, none)
  | fuel + 1, cs =>
    match skipGap cs with
    | [] => (broken, none)
    | c :: rest =>
      if c = '[' then
        let (items, closed, rest) := readItems fuel true rest
        (array items closed, rest)
      else if c = Char.ofNat 123 then
        let (fields, closed, rest) := readFields fuel true rest
        (object fields closed, rest)
      else if c = '"' then
        match readString {} rest with
        | some (text, rest) => (string text, some rest)
        | none => (broken, none)
      else if c = 'n' then readWord "ull" null rest
      else if c = 't' then readWord "rue" (bool true) rest
      else if c = 'f' then readWord "alse" (bool false) rest
      else
        match readNumber (c = '-') (if c = '-' then rest else c :: rest) with
        | some (text, rest) => (number text, some rest)
        | none => (broken, none)

/-- The items of an array, whether its bracket was found, and what follows. -/
def readItems : (fuel : Nat) → (first : Bool) → List Char →
    List Document × Bool × Option (List Char)
  | 0, _, _ => ([], false, none)
  | fuel + 1, first, cs =>
    match skipGap cs with
    | [] => ([], false, none)
    | c :: rest =>
      if c = ']' then ([], true, some rest)
      else if !first && c ≠ ',' then ([], false, none)
      else
        let start := if first then c :: rest else skipGap rest
        -- A comma in front of the bracket announces an item that is missing.
        if start.isEmpty ∨ (!first && start.head? = some ']') then ([], false, none)
        else
          match readValue fuel start with
          | (item, none) => ([item], false, none)
          | (item, some rest) =>
            let (items, closed, rest) := readItems fuel false rest
            (item :: items, closed, rest)

/-- The fields of an object, whether its brace was found, and what follows. -/
def readFields : (fuel : Nat) → (first : Bool) → List Char →
    List (Option String × Document) × Bool × Option (List Char)
  | 0, _, _ => ([], false, none)
  | fuel + 1, first, cs =>
    match skipGap cs with
    | [] => ([], false, none)
    | c :: rest =>
      if c = Char.ofNat 125 then ([], true, some rest)
      else if !first && c ≠ ',' then ([], false, none)
      else
        match if first then c :: rest else skipGap rest with
        | '"' :: rest =>
          match readString {} rest with
          | none => ([], false, none)
          | some (key, rest) =>
            match skipGap rest with
            | ':' :: rest =>
              match readValue fuel rest with
              | (value, none) => ([(key, value)], false, none)
              | (value, some rest) =>
                let (fields, closed, rest) := readFields fuel false rest
                ((key, value) :: fields, closed, rest)
            | _ => ([(key, broken)], false, none)
        | _ => ([], false, none)

end

/-- The document at the start of a text, and what follows it if it is complete. -/
def ofChars (cs : List Char) : Document × Option (List Char) := readValue (2 * cs.length + 1) cs

/-! ### What a document can be taken for -/

mutual

/-- Whether the text of a document is JSON when nobody looks at its strings and numbers. -/
def isComplete : Document → Bool
  | array items closed => closed && areComplete items
  | object fields closed => closed && fieldsComplete fields
  | broken => false
  | _ => true

def areComplete : List Document → Bool
  | [] => true
  | item :: items => item.isComplete && areComplete items

def fieldsComplete : List (Option String × Document) → Bool
  | [] => true
  | (_, value) :: fields => value.isComplete && fieldsComplete fields

end

mutual

/-- Whether a document has a value and is nested in no more than `room` levels. -/
def isContent : (room : Nat) → Document → Bool
  | 0, array _ _ => false
  | room + 1, array items closed => closed && areContent room items
  | 0, object _ _ => false
  | room + 1, object fields closed => closed && fieldsContent room fields
  | _, broken => false
  | _, string text => text.isSome
  | _, number text => text.value?.isSome
  | _, null => true
  | _, bool _ => true

def areContent (room : Nat) : List Document → Bool
  | [] => true
  | item :: items => item.isContent room && areContent room items

def fieldsContent (room : Nat) : List (Option String × Document) → Bool
  | [] => true
  | (key, value) :: fields => key.isSome && value.isContent room && fieldsContent room fields

end

end Document
end JobSandbox
