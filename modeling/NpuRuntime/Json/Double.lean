/-! # Doubles
Binary floating-point magnitudes in exact arithmetic: a mantissa below 2^53 times a power of two
between 2^-1074 and 2^971. Results are rounded to the nearest magnitude, and of two equally near
ones to that with the even mantissa. -/
namespace NpuRuntime

structure Magnitude where
  mantissa : Nat
  exponent : Int
  deriving DecidableEq, Repr

namespace Magnitude

def minExponent : Int := -1074

def maxExponent : Int := 971

def zero : Magnitude := ⟨0, minExponent⟩

/-- The ratio `num / den` divided by `2 ^ e`, as a ratio again. -/
def shifted (num den : Nat) (e : Int) : Nat × Nat :=
  if e ≥ 0 then (num, den <<< e.toNat) else (num <<< (-e).toNat, den)

/-- The quotient rounded to the nearest whole number, a half to the even one. -/
def roundHalfEven (num den : Nat) : Nat :=
  let q := num / den
  let r := num % den
  if 2 * r > den ∨ 2 * r = den ∧ q % 2 = 1 then q + 1 else q

/-- The power of two that leaves 53 bits of `num / den` before the point, or the least one. -/
def fittingExponent (num den : Nat) : Int :=
  let e : Int := (num.log2 : Int) - den.log2 - 53
  let (a, b) := shifted num den e
  max (if a / b ≥ 1 <<< 53 then e + 1 else e) minExponent

/-- The magnitude nearest to `num / den`, unless it is too large. -/
def nearest? (num den : Nat) : Option Magnitude :=
  if num = 0 then some zero
  else
    let e := fittingExponent num den
    let (a, b) := shifted num den e
    let m := roundHalfEven a b
    let r : Magnitude := if m = 1 <<< 53 then ⟨1 <<< 52, e + 1⟩ else ⟨m, e⟩
    if r.exponent > maxExponent then none else some r

def ratio (x : Magnitude) : Nat × Nat := shifted x.mantissa 1 (-x.exponent)

def mul? (x y : Magnitude) : Option Magnitude :=
  nearest? (x.ratio.1 * y.ratio.1) (x.ratio.2 * y.ratio.2)

def div (x y : Magnitude) : Magnitude :=
  (nearest? (x.ratio.1 * y.ratio.2) (x.ratio.2 * y.ratio.1)).getD zero

/-- The largest power of ten with a magnitude of its own. -/
def maxPowerOfTen : Nat := 308

def powerOfTen (n : Nat) : Magnitude := (nearest? (Nat.pow 10 n) 1).getD zero

/-- Applies a power of ten in steps that have a magnitude; every step rounds. A magnitude that is
divided reaches zero after a few steps. -/
def scale? : Nat → Magnitude → Int → Option Magnitude
  | 0, x, _ => some x
  | steps + 1, x, e =>
    if e.natAbs ≤ maxPowerOfTen then
      if e ≥ 0 then mul? x (powerOfTen e.toNat) else some (div x (powerOfTen e.natAbs))
    else if x.mantissa = 0 then some x
    else if e ≥ 0 then none
    else scale? steps (div x (powerOfTen maxPowerOfTen)) (e + maxPowerOfTen)

/-- `significand * 10 ^ e`, rounded at each step, unless it is too large. -/
def ofDecimal? (significand : Nat) (e : Int) : Option Magnitude :=
  (nearest? significand 1).bind fun x => scale? 8 x e

/-- Least `j` such that `num * 10 ^ j` reaches `den`, counted from `j`. -/
def shortfall (num den : Nat) : Nat → Nat → Nat
  | 0, j => j
  | fuel + 1, j => if num * Nat.pow 10 j ≥ den then j else shortfall num den fuel (j + 1)

/-- The power of ten of the first digit of a magnitude that is not zero. -/
def decimalExponent (x : Magnitude) : Int :=
  let (num, den) := x.ratio
  if num ≥ den then ((Nat.toDigits 10 (num / den)).length : Int) - 1
  else -(shortfall num den 400 1 : Nat)

/-- The bounds of what rounds to `x`, in quarters of its last place. -/
def bounds (x : Magnitude) : Nat × Nat :=
  let m := 4 * x.mantissa
  (if x.mantissa = 1 <<< 52 ∧ x.exponent > minExponent then m - 1 else m - 2, m + 2)

/-- Compares `c * 10 ^ k` with `n` quarters of the last place of `x`, as two whole numbers. -/
def compared (x : Magnitude) (c : Nat) (k : Int) (n : Nat) : Nat × Nat :=
  let (qa, qb) := shifted n 1 (2 - x.exponent)
  let (ta, tb) := if k ≥ 0 then (c * Nat.pow 10 k.toNat, 1) else (c, Nat.pow 10 (-k).toNat)
  (ta * qb, qa * tb)

/-- Whether the decimal `c * 10 ^ k` rounds to `x`; the ends belong to an even mantissa. -/
def readsBack (x : Magnitude) (c : Nat) (k : Int) : Bool :=
  let (lo, hi) := x.bounds
  let (a, b) := x.compared c k lo
  let (c', d) := x.compared c k hi
  if x.mantissa % 2 = 0 then b ≤ a && c' ≤ d else b < a && c' < d

/-- How far `c * 10 ^ k` lies from `x`, on a scale that depends on `k` only. -/
def distance (x : Magnitude) (c : Nat) (k : Int) : Nat :=
  let (a, b) := x.compared c k (4 * x.mantissa)
  (a - b) + (b - a)

/-- The better of the two neighbours of `x` on the grid of `10 ^ k`, if one reads back. -/
def onGrid? (x : Magnitude) (k : Int) : Option Nat :=
  let (a, b) := x.compared 1 k (4 * x.mantissa)
  let low := b / a
  match readsBack x low k, readsBack x (low + 1) k with
  | true, false => some low
  | false, true => some (low + 1)
  | false, false => none
  | true, true =>
    let dl := distance x low k
    let dh := distance x (low + 1) k
    some (if dl < dh ∨ dl = dh ∧ low % 2 = 0 then low else low + 1)

/-- The first grid from `k` downwards that holds a decimal which reads back. -/
def firstGrid (x : Magnitude) : Nat → Int → Nat × Int
  | 0, k => ((onGrid? x k).getD 0, k)
  | fuel + 1, k =>
    match onGrid? x k with
    | some c => (c, k)
    | none => firstGrid x fuel (k - 1)

/-- Fewest digits that read back, and the power of ten of the first of them. -/
def shortest (x : Magnitude) : List Char × Int :=
  let (c, k) := firstGrid x 17 x.decimalExponent
  let digits := Nat.toDigits 10 c
  ((digits.reverse.dropWhile (· == '0')).reverse, k + (digits.length : Int) - 1)

/-- Digits with a point: at least one stands on each side of it. -/
def plainText (digits : List Char) (e : Int) : List Char :=
  if e < 0 then '0' :: '.' :: List.replicate (e.natAbs - 1) '0' ++ digits
  else
    let whole := e.toNat + 1
    if digits.length ≤ whole then
      digits ++ List.replicate (whole - digits.length) '0' ++ ['.', '0']
    else digits.take whole ++ '.' :: digits.drop whole

def exponentText (digits : List Char) (e : Int) : List Char :=
  let mantissa := match digits with
    | [] => []
    | [d] => [d]
    | d :: rest => d :: '.' :: rest
  mantissa ++ 'e' :: (if e < 0 then '-' else '+') :: Nat.toDigits 10 e.natAbs

/-- Written plainly if the first digit stands between the fifth decimal place and the sixteenth
whole place. -/
def text (x : Magnitude) : List Char :=
  if x.mantissa = 0 then ['0', '.', '0']
  else
    let (digits, e) := x.shortest
    if -5 ≤ e ∧ e ≤ 15 then plainText digits e else exponentText digits e

end Magnitude

structure Double where
  negative : Bool
  magnitude : Magnitude
  deriving DecidableEq, Repr

def Double.text (d : Double) : String :=
  String.ofList (if d.negative then '-' :: d.magnitude.text else d.magnitude.text)

end NpuRuntime
