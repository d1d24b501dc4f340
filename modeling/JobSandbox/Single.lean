/-!
# Single-precision numbers

Progress and pauses are numbers in the binary32 format.  Jobs pass them through to the host without
looking at them, so they are kept as their bits: a sign, eight bits of exponent and twenty-three of
fraction.  A quotient of two naturals is rounded to the nearest number of the format, to the even
one of two that are equally near.

## Main definitions

* `Single` — the bits; `isFinite`, `isNaN` — their classes.
* `Single.ofRatio` — the number nearest to a quotient.
* `Single.significand`, `Single.scale` — a finite number as `significand * 2 ^ scale`.
-/

namespace JobSandbox

/-- A number in the binary32 format, by its bits. -/
structure Single where
  bits : UInt32
  deriving DecidableEq, Repr, Inhabited

namespace Single

/-- The least exponent of two: all finite numbers are multiples of `2 ^ minScale`. -/
def minScale : Int := -149

/-- One unit of the exponent field.  It is also the leading bit that a significand has in front of
the fraction field, except below the least exponent. -/
def fieldUnit : Nat := 0x800000

def isNegative (x : Single) : Bool := x.bits.toNat / 0x80000000 == 1

def exponentField (x : Single) : Nat := x.bits.toNat / fieldUnit % 0x100

def fractionField (x : Single) : Nat := x.bits.toNat % fieldUnit

def isFinite (x : Single) : Bool := x.exponentField != 255

def isNaN (x : Single) : Bool := x.exponentField == 255 && x.fractionField != 0

/-- The whole-number part of a finite number, by its absolute value. -/
def significand (x : Single) : Nat :=
  if x.exponentField = 0 then x.fractionField else fieldUnit + x.fractionField

/-- The power of two a finite number's significand is scaled by, from `minScale` up. -/
def scaleUp (x : Single) : Nat := x.exponentField - 1

def scale (x : Single) : Int := minScale + x.scaleUp

/-! ### Rounding a quotient -/

/-- The natural nearest to `n / d`, the even one of two. -/
def nearestEven (n d : Nat) : Nat :=
  let q := n / d
  if 2 * (n % d) < d then q
  else if d < 2 * (n % d) then q + 1
  else q + q % 2

/-- `n / d` in units of `2 ^ k`, rounded to the nearest natural. -/
def inUnits (n d : Nat) (k : Int) : Nat :=
  if 0 ≤ k then nearestEven n (d <<< k.toNat) else nearestEven (n <<< (-k).toNat) d

/-- The least exponent whose unit makes `n / d` a number of at most 24 bits. -/
def unitExponent (n d : Nat) : Int :=
  let k : Int := (Nat.log2 n : Int) - Nat.log2 d - 24
  let k := if n <<< (-k).toNat < d <<< (k.toNat + 24) then k else k + 1
  max k minScale

/-- The number of the format that is nearest to `n / d`; infinity if it is out of reach. -/
def ofRatio (n d : Nat) : Single :=
  if n = 0 ∨ d = 0 then ⟨0⟩
  else
    let k := unitExponent n d
    -- The fields run on into each other, so a significand that rounds up to the next power of two
    -- carries into the exponent.
    let bits := inUnits n d k + (k - minScale).toNat * fieldUnit
    if bits < 255 * fieldUnit then ⟨UInt32.ofNat bits⟩ else ⟨0x7f800000⟩

theorem nearestEven_one (n : Nat) : nearestEven n 1 = n := by
  simp [nearestEven, Nat.mod_one]

end Single
end JobSandbox
