import JobSandbox.Single

/-!
# The shortest decimal of a number

A finite number is the nearest one of its format for every real in an interval around it, whose ends
belong to it when the significand is even.  The text of the number is the decimal in that interval
with the fewest digits, and of those the one nearest to the number, the even one of two.

A decimal with few digits is a multiple of a large power of ten, so the powers are tried from the
largest down: if the interval holds a multiple of one at all, it holds a neighbour of the number
itself.  Every number of the format is a multiple of the least power tried.

All quantities are kept in units of `2 ^ (minScale - 2)`, in which the ends of the interval are
whole.

## Main definitions

* `Single.Interval`, `Single.interval` — the reals that are rounded to a number.
* `Single.shortest` — its shortest decimal, as digits and a power of ten.
* `DecimalStyle.render` — such a decimal as a text, in positional or scientific notation.
-/

namespace JobSandbox
namespace Single

/-! ### The interval -/

/-- The reals that are rounded to a number, and the number itself. -/
structure Interval where
  low : Nat
  value : Nat
  high : Nat
  /-- Whether the two ends belong to the interval. -/
  closed : Bool
  deriving DecidableEq, Repr

/-- The interval of a finite number.  Below the least significand of an exponent the numbers lie
half as far apart. -/
def interval (x : Single) : Interval :=
  let unit := 1 <<< x.scaleUp
  let m := x.significand
  { low := (if m = fieldUnit ∧ 0 < x.scaleUp then 4 * m - 1 else 4 * m - 2) * unit
    value := 4 * m * unit
    high := (4 * m + 2) * unit
    closed := m % 2 == 0 }

/-- Whether the interval holds `n / d`. -/
def Interval.holds (i : Interval) (n d : Nat) : Bool :=
  if i.closed then i.low * d ≤ n && n ≤ i.high * d else i.low * d < n && n < i.high * d

/-! ### Digits -/

/-- A decimal `digits * 10 ^ exponent`. -/
structure Decimal where
  digits : Nat
  exponent : Int
  deriving DecidableEq, Repr

/-- How many units one is. -/
def one : Nat := 1 <<< 151

/-- The multiple of `10 ^ k` in the interval that is nearest to its number, if there is one. -/
def multiple? (i : Interval) (k : Int) : Option Nat :=
  let step := one * Nat.pow 10 k.toNat
  let d := Nat.pow 10 (-k).toNat
  let below := i.value * d / step
  let above := below + 1
  match i.holds (below * step) d, i.holds (above * step) d with
  | true, true =>
    let down := i.value * d - below * step
    let up := above * step - i.value * d
    some (if down < up ∨ (down = up ∧ below % 2 = 0) then below else above)
  | true, false => some below
  | false, true => some above
  | false, false => none

/-- The shortest decimal of an interval, trying powers of ten downwards from `k`. -/
def search (i : Interval) : (steps : Nat) → (k : Int) → Decimal
  | 0, k => ⟨(multiple? i k).getD 0, k⟩
  | steps + 1, k =>
    match multiple? i k with
    | some digits => ⟨digits, k⟩
    | none => search i steps (k - 1)

/-- The largest power of ten that a number of the format can reach. -/
def maxPower : Nat := 38

/-- The shortest decimal of a finite number other than zero. -/
def shortest (x : Single) : Decimal := search x.interval (maxPower + 149) maxPower

end Single

/-! ### Text -/

/-- Where positional notation is used: for decimals whose first digit counts `10 ^ e` with
`least ≤ e ≤ greatest`. -/
structure DecimalStyle where
  least : Int
  greatest : Int
  deriving DecidableEq, Repr

namespace DecimalStyle

/-- The digits with a point behind the first one, if there are more. -/
def pointAfterFirst : List Char → List Char
  | [] => []
  | [c] => [c]
  | c :: cs => c :: '.' :: cs

/-- An exponent with its sign. -/
def exponentText (e : Int) : List Char :=
  (if e < 0 then '-' else '+') :: Nat.toDigits 10 e.natAbs

/-- Digits of a decimal in positional notation, with at least one digit behind the point. -/
def positional (digits : List Char) (exponent : Int) : List Char :=
  if 0 ≤ exponent then digits ++ List.replicate exponent.toNat '0' ++ ['.', '0']
  else
    let places := (-exponent).toNat
    let padded := List.replicate (places + 1 - digits.length) '0' ++ digits
    padded.take (padded.length - places) ++ '.' :: padded.drop (padded.length - places)

/-- A decimal as a text. -/
def render (style : DecimalStyle) (decimal : Single.Decimal) : List Char :=
  let digits := Nat.toDigits 10 decimal.digits
  let e : Int := decimal.exponent + digits.length - 1
  if style.least ≤ e ∧ e ≤ style.greatest then positional digits decimal.exponent
  else pointAfterFirst digits ++ 'e' :: exponentText e

end DecimalStyle

namespace Single

/-- A finite number as a text. -/
def render (style : DecimalStyle) (x : Single) : String :=
  let magnitude :=
    if x.significand = 0 then ['0', '.', '0'] else style.render x.shortest
  String.ofList (if x.isNegative then '-' :: magnitude else magnitude)

end Single
end JobSandbox
