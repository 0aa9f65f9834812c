import NpuRuntime.Json.Basic

/-! # Numerals
A number as it is written, and the value it stands for. Whole numbers of 64 bits are kept exactly;
all others become doubles, with as many leading digits as 64 bits hold. -/
namespace NpuRuntime.Json

structure Numeral where
  negative : Bool
  whole : List Char
  fraction : Option (List Char)
  /-- Whether the exponent is positive, and its digits. -/
  exponent : Option (Bool × List Char)
  deriving DecidableEq, Repr

namespace Numeral

def digitValue (c : Char) : Nat := c.toNat - '0'.toNat

/-- Appends digits as long as the number stays at most `max`; also how many were left out. -/
def gather (max : Nat) : Nat → List Char → Nat × Nat
  | n, [] => (n, 0)
  | n, c :: rest =>
    if n * 10 + digitValue c > max then (n, rest.length + 1)
    else gather max (n * 10 + digitValue c) rest

def maxSignificand : Nat := UInt64.size - 1

/-- An exponent beyond this is not computed with. -/
def maxExponent : Nat := UInt32.size / 2 - 1

def double? (n : Numeral) (significand : Nat) (e : Int) : Option Number :=
  (Magnitude.ofDecimal? significand e).map fun m => .double ⟨n.negative, m⟩

/-- A double whose significand and power of ten are known but for the written exponent. -/
def withExponent? (n : Numeral) (significand : Nat) (e : Int) : Option Number :=
  match n.exponent with
  | none => n.double? significand e
  | some (positive, digits) =>
    let (x, left) := gather maxExponent 0 digits
    if left = 0 then n.double? significand (if positive then e + x else e - x)
    else if significand ≠ 0 ∧ positive then none
    else some (.double ⟨n.negative, .zero⟩)

/-- The value, unless it is beyond the range of doubles. A negative zero is a double. -/
def value? (n : Numeral) : Option Number :=
  let (significand, left) := gather maxSignificand 0 n.whole
  match n.fraction with
  | some digits =>
    let (s, unread) := gather maxSignificand significand digits
    n.withExponent? s ((left : Int) - (digits.length - unread : Nat))
  | none =>
    if n.exponent.isSome ∨ left ≠ 0 then n.withExponent? significand left
    else if !n.negative then some (.int significand)
    else if significand = 0 ∨ significand > UInt64.size / 2 then n.double? significand 0
    else some (.int (-significand))

end Numeral

end NpuRuntime.Json
