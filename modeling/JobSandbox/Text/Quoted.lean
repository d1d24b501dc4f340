import JobSandbox.Text.Printable

/-!
# Quotations

A text or a character between quotes, with escapes for what would not show: the short escapes for
NUL, tab, line feed and carriage return, a backslash in front of a backslash and of the quote
itself, and the code point in braces for any other character that is not shown as it is.  The other
kind of quote needs no escape.

## Main definitions

* `escapeChar` — one character, within a given kind of quote.
* `quoteText`, `quoteChar` — a whole quotation.
-/

namespace JobSandbox

def doubleQuote : Char := '"'

def singleQuote : Char := Char.ofNat 39

/-- The escape of a character by its code point. -/
def codePointEscape (c : Char) : List Char :=
  '\\' :: 'u' :: Char.ofNat 123 :: (Nat.toDigits 16 c.toNat ++ [Char.ofNat 125])

/-- How `c` stands in a quotation between `quote`s. -/
def escapeChar (quote c : Char) : List Char :=
  if c = Char.ofNat 0 then ['\\', '0']
  else if c = '\t' then ['\\', 't']
  else if c = '\r' then ['\\', 'r']
  else if c = '\n' then ['\\', 'n']
  else if c = '\\' ∨ c = quote then ['\\', c]
  else if isShown c then [c]
  else codePointEscape c

/-- Characters between two quotes. -/
def quoteChars (quote : Char) (cs : List Char) : List Char :=
  quote :: (cs.flatMap (escapeChar quote) ++ [quote])

/-- A text in double quotes. -/
def quoteText (s : String) : String := String.ofList (quoteChars doubleQuote s.toList)

/-- A character in single quotes. -/
def quoteChar (c : Char) : String := String.ofList (quoteChars singleQuote [c])

end JobSandbox
