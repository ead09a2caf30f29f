import Preconditions.Decimal.Double

/-!
# Doubles as decimal texts

A double is written with the fewest decimal digits that read back to it; of the candidates with that many
digits the nearest is taken, and of two equally near ones the even one.
-/

namespace Preconditions.Decimal

-- powers are core's own, also where another library brings its own
attribute [local instance (high)] instPowNat

structure Scientific where
  digits : Nat
  exponent : Int
deriving DecidableEq, Repr

namespace Scientific

def compareBinary (a : Nat) (i : Int) (n : Nat) (j : Int) : Ordering :=
  compare (a * 10 ^ i.toNat * 2 ^ (-j).toNat) (n * 2 ^ j.toNat * 10 ^ (-i).toNat)

/-- Whether the nearest double to a decimal number is the magnitude of `x`. The numbers of which this is so
reach half way to either neighbour; both ends belong to `x` when its significand is even. -/
def readsBack (x : Double) (s : Scientific) : Bool :=
  let below := if x.significand = 2 ^ (52 : Nat) && -1074 < x.exponent then 1 else 2
  let low := compareBinary s.digits s.exponent (4 * x.significand - below) (x.exponent - 2)
  let high := compareBinary s.digits s.exponent (4 * x.significand + 2) (x.exponent - 2)
  let closed := x.significand % 2 == 0
  (low == .gt || closed && low == .eq) && (high == .lt || closed && high == .eq)

/-- The least `k` with the magnitude of `x` below `10 ^ k`, for a nonzero `x`. -/
def scale (x : Double) : Int :=
  let k := (x.significand.log2 + x.exponent) * 30103 / 100000 + 1
  if compareBinary 1 k x.significand x.exponent == .gt then k else k + 1

def onGrid (x : Double) (k : Int) : Option Scientific :=
  let n := x.significand * 2 ^ x.exponent.toNat * 10 ^ (-k).toNat
  let d := 2 ^ (-x.exponent).toNat * 10 ^ k.toNat
  let below : Scientific := ⟨n / d, k⟩
  let above : Scientific := ⟨n / d + 1, k⟩
  match readsBack x below, readsBack x above with
  | true, true => some ⟨Double.roundQuotient n d, k⟩
  | true, false => some below
  | false, true => some above
  | false, false => none

def exact (x : Double) : Scientific :=
  ⟨x.significand * 2 ^ x.exponent.toNat * 5 ^ (-x.exponent).toNat, min x.exponent 0⟩

def trimmed : Nat → Scientific → Scientific
  | 0, s => s
  | fuel + 1, s => if s.digits % 10 = 0 then trimmed fuel ⟨s.digits / 10, s.exponent + 1⟩ else s

/-- Seventeen digits always read back. -/
def digitLimit : Nat := 17

def shortest (x : Double) : Scientific :=
  if x.isZero then ⟨0, 0⟩
  else
    let top := scale x
    let found := (List.range digitLimit).findSome? fun (n : Nat) => onGrid x (top - (n + 1))
    trimmed digitLimit (found.getD (exact x))

/-- The decimal exponents of the leading digit for which a number is written without a power of ten. -/
def positional (e : Int) : Bool := -5 ≤ e && e ≤ 15

def text (s : Scientific) : List Char :=
  let ds := Nat.toDigits 10 s.digits
  let e := s.exponent + ds.length - 1
  if positional e then
    if 0 ≤ s.exponent then ds ++ List.replicate s.exponent.toNat '0' ++ ['.', '0']
    else if 0 ≤ e then ds.take (e + 1).toNat ++ '.' :: ds.drop (e + 1).toNat
    else ['0', '.'] ++ List.replicate (-e - 1).toNat '0' ++ ds
  else
    let power := 'e' :: (if e < 0 then '-' else '+') :: Nat.toDigits 10 e.natAbs
    ds.take 1 ++ (if ds.length = 1 then [] else '.' :: ds.drop 1) ++ power

end Scientific

def Double.text (x : Double) : List Char :=
  (if x.negative then ['-'] else []) ++ (Scientific.shortest x).text

end Preconditions.Decimal
