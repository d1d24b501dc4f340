import JobSandbox.Contract

/-!
# Addresses

Addresses and lengths are natural numbers below `addressSpace`.  Arithmetic on them is checked: a
sum or product that leaves the address space has no value.  Rounding up to a power of two is done by
adding the mask of the low bits and clearing them again, so it fails exactly when that sum does.

## Main definitions

* `add?`, `mul?` — checked sum and product.
* `alignUp?` — the next multiple of a power of two, by mask.
* `pagesFor` — how many whole pages cover a number of bytes.
-/

namespace JobSandbox
namespace Address

/-- One more than the largest address. -/
def addressSpace : Nat := 0x10000000000000000

/-- The sum of two addresses, if it is an address. -/
def add? (a b : Nat) : Option Nat :=
  if a + b < addressSpace then some (a + b) else none

/-- The product of two addresses, if it is an address. -/
def mul? (a b : Nat) : Option Nat :=
  if a * b < addressSpace then some (a * b) else none

/-- The bits of `a` that are not in `mask`. -/
def clear (a mask : Nat) : Nat := a &&& ((addressSpace - 1) ^^^ mask)

/-- The least multiple of `unit` that is at least `a`, for `unit` a power of two: adding
`unit - 1` passes no multiple but the one sought, and clearing the low bits goes down to it. -/
def alignUp? (a unit : Nat) : Option Nat :=
  (add? a (unit - 1)).map (clear · (unit - 1))

/-- The number of pages that cover `n` bytes. -/
def pagesFor (n : Nat) : Nat := (n + Contract.pageSize - 1) / Contract.pageSize

/-! ### Checked arithmetic -/

theorem add?_eq_some_iff {a b c : Nat} : add? a b = some c ↔ c = a + b ∧ a + b < addressSpace := by
  unfold add?
  split <;> simp_all [eq_comm]

theorem add?_eq_none_iff {a b : Nat} : add? a b = none ↔ addressSpace ≤ a + b := by
  unfold add?
  split <;> simp <;> omega

theorem mul?_eq_some_iff {a b c : Nat} : mul? a b = some c ↔ c = a * b ∧ a * b < addressSpace := by
  unfold mul?
  split <;> simp_all [eq_comm]

theorem mul?_eq_none_iff {a b : Nat} : mul? a b = none ↔ addressSpace ≤ a * b := by
  unfold mul?
  split <;> simp <;> omega

/-! ### Pages -/

@[simp] theorem pagesFor_zero : pagesFor 0 = 0 := rfl

theorem pagesFor_pos {n : Nat} (h : 0 < n) : 0 < pagesFor n := by
  unfold pagesFor Contract.pageSize
  omega

theorem le_pagesFor_mul (n : Nat) : n ≤ pagesFor n * Contract.pageSize := by
  unfold pagesFor Contract.pageSize
  omega

end Address
end JobSandbox
