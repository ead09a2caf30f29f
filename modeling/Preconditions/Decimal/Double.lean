/-!
# Finite doubles

A double is a sign and `significand * 2 ^ exponent`, with a significand below `2 ^ 53` and an exponent from
`-1074` to `971`. An exact quotient is rounded to the nearest double, a tie to the even significand; past
the largest double there is no value.
-/

namespace Preconditions.Decimal

-- powers are core's own, also where another library brings its own
attribute [local instance (high)] instPowNat

structure Double where
  negative : Bool
  significand : Nat
  exponent : Int
deriving DecidableEq, Repr

namespace Double

def zero : Double := ⟨false, 0, -1074⟩

def withSign (negative : Bool) (x : Double) : Double := { x with negative }

def isZero (x : Double) : Bool := x.significand == 0

/-- The nearest whole number to `n / d`, of two equally near ones the even one. -/
def roundQuotient (n d : Nat) : Nat :=
  let q := n / d
  if 2 * (n % d) < d then q else if d < 2 * (n % d) then q + 1 else q + q % 2

/-- `n * 2 ^ k`, or `n` where `k` is negative: the two sides of a comparison take `k` and `-k`. -/
def scaled (n : Nat) (k : Int) : Nat := n * 2 ^ k.toNat

/-- The exponent at which the significand of `n / d` has 53 bits, or the least exponent. -/
def exponentOf (n d : Nat) : Int :=
  let e : Int := n.log2 - d.log2 - 53
  max (-1074) (if scaled n (-(e + 53)) < scaled d (e + 53) then e else e + 1)

def ofQuotient (n d : Nat) : Option Double :=
  let e := exponentOf n d
  let m := roundQuotient (scaled n (-e)) (scaled d e)
  let (m, e) := if m = 2 ^ (53 : Nat) then (2 ^ (52 : Nat), e + 1) else (m, e)
  if n = 0 then some zero else if 971 < e then none else some ⟨false, m, e⟩

def ofNat (n : Nat) : Option Double := ofQuotient n 1

def mul (x y : Double) : Option Double :=
  let e := x.exponent + y.exponent
  ofQuotient (scaled (x.significand * y.significand) e) (scaled 1 (-e))

def div (x y : Double) : Option Double :=
  let e := x.exponent - y.exponent
  ofQuotient (scaled x.significand e) (scaled y.significand (-e))

def greatestPower : Nat := 308

def divPower (x : Double) (k : Nat) : Option Double :=
  if greatestPower < k then
    if x.isZero then some x
    else do (← x.div (← ofNat (10 ^ greatestPower))).divPower (k - greatestPower)
  else do x.div (← ofNat (10 ^ k))
termination_by k
decreasing_by simp only [greatestPower] at *; omega

/-- Multiplication by `10 ^ k`; past the greatest power of ten only zero has a product. -/
def mulPower (x : Double) (k : Nat) : Option Double :=
  if greatestPower < k then if x.isZero then some x else none
  else do x.mul (← ofNat (10 ^ k))

/-- The double of `n * 10 ^ k`: `n` is rounded first, then the product or quotient. -/
def ofDecimal (n : Nat) (k : Int) : Option Double := do
  let x ← ofNat n
  if k < 0 then x.divPower (-k).toNat else x.mulPower k.toNat

end Double

end Preconditions.Decimal
