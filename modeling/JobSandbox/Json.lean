import JobSandbox.Single.Shortest
import JobSandbox.Text.Hex

/-!
# JSON text

Reports are written as JSON, in one line or indented.  Fields keep the order in which they are
given.  In a string only the quote, the backslash and the control characters below the space are
escaped.  A number in single precision is written as its shortest decimal with at least one digit
behind the point, and as `null` if it is not finite.

## Main definitions

* `Json` — what can be written.
* `Json.chars`, `Json.text` — the text in one line.
* `Json.indented`, `Json.prettyText` — the text with one field or item per line.
-/

namespace JobSandbox

/-- A JSON value to be written. -/
inductive Json where
  | null
  | bool (value : Bool)
  | int (value : Int)
  | single (value : Single)
  | string (text : String)
  | array (items : List Json)
  | object (fields : List (String × Json))

namespace Json

def nat (n : Nat) : Json := int n

/-- A value that may be absent. -/
def optional {α : Type} (write : α → Json) : Option α → Json
  | none => null
  | some value => write value

/-! ### Scalars -/

/-- Decimals are positional from a millionth up to below ten million millions. -/
def decimalStyle : DecimalStyle := ⟨-6, 12⟩

/-- A character as it stands in a string. -/
def escapeChar (c : Char) : List Char :=
  if c = '"' then ['\\', '"']
  else if c = '\\' then ['\\', '\\']
  else if 0x20 ≤ c.toNat then [c]
  else if c.toNat = 0x8 then ['\\', 'b']
  else if c.toNat = 0x9 then ['\\', 't']
  else if c.toNat = 0xa then ['\\', 'n']
  else if c.toNat = 0xc then ['\\', 'f']
  else if c.toNat = 0xd then ['\\', 'r']
  else ['\\', 'u', '0', '0', Hex.digitChar (c.toNat / 16), Hex.digitChar (c.toNat % 16)]

def stringChars (s : String) : List Char := '"' :: (s.toList.flatMap escapeChar ++ ['"'])

def intChars (i : Int) : List Char :=
  if i < 0 then '-' :: Nat.toDigits 10 i.natAbs else Nat.toDigits 10 i.natAbs

def singleChars (x : Single) : List Char :=
  if x.isFinite then (x.render decimalStyle).toList else "null".toList

def boolChars (b : Bool) : List Char := if b then "true".toList else "false".toList

/-- The braces of an object. -/
def openBrace : Char := Char.ofNat 123

def closeBrace : Char := Char.ofNat 125

/-! ### In one line -/

mutual

/-- A value in one line, without blanks. -/
def chars : Json → List Char
  | null => "null".toList
  | bool b => boolChars b
  | int i => intChars i
  | single x => singleChars x
  | string s => stringChars s
  | array [] => ['[', ']']
  | array (item :: items) => '[' :: (item.chars ++ itemsChars items)
  | object [] => [openBrace, closeBrace]
  | object ((key, value) :: fields) =>
    openBrace :: (stringChars key ++ ':' :: (value.chars ++ fieldsChars fields))

/-- The items behind the first, and the bracket. -/
def itemsChars : List Json → List Char
  | [] => [']']
  | item :: items => ',' :: (item.chars ++ itemsChars items)

/-- The fields behind the first, and the brace. -/
def fieldsChars : List (String × Json) → List Char
  | [] => [closeBrace]
  | (key, value) :: fields =>
    ',' :: (stringChars key ++ ':' :: (value.chars ++ fieldsChars fields))

end

def text (json : Json) : String := String.ofList json.chars

/-! ### Indented -/

/-- The start of a line at a depth. -/
def newLine (depth : Nat) : List Char := '\n' :: List.replicate (2 * depth) ' '

mutual

/-- A value with its items and fields on lines of their own, one step further in than `depth`. -/
def indented (depth : Nat) : Json → List Char
  | null => "null".toList
  | bool b => boolChars b
  | int i => intChars i
  | single x => singleChars x
  | string s => stringChars s
  | array [] => ['[', ']']
  | array (item :: items) =>
    '[' :: (newLine (depth + 1) ++ item.indented (depth + 1) ++ itemsIndented depth items)
  | object [] => [openBrace, closeBrace]
  | object ((key, value) :: fields) =>
    openBrace :: (newLine (depth + 1) ++ stringChars key ++ [':', ' '] ++
      value.indented (depth + 1) ++ fieldsIndented depth fields)

/-- The items behind the first, and the bracket. -/
def itemsIndented (depth : Nat) : List Json → List Char
  | [] => newLine depth ++ [']']
  | item :: items =>
    ',' :: (newLine (depth + 1) ++ item.indented (depth + 1) ++ itemsIndented depth items)

/-- The fields behind the first, and the brace. -/
def fieldsIndented (depth : Nat) : List (String × Json) → List Char
  | [] => newLine depth ++ [closeBrace]
  | (key, value) :: fields =>
    ',' :: (newLine (depth + 1) ++ stringChars key ++ [':', ' '] ++
      value.indented (depth + 1) ++ fieldsIndented depth fields)

end

def prettyText (json : Json) : String := String.ofList (json.indented 0)

end Json
end JobSandbox
