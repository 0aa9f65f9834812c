import NpuRuntime.Fault
import NpuRuntime.Text.Basic

/-! # Device selections
Lists such as `0-3,5,7`: numbers and inclusive ranges. A selection is rising, so order, repetition
and overlap of the tokens leave no trace. -/
namespace NpuRuntime

namespace Selection

/-- The longest text of a selection, of options and of mount names, in bytes. -/
def maxInput : Nat := 128

def checkLength (s : String) : Except Fault Unit :=
  if s.utf8ByteSize > maxInput then .error (.inputTooLong s.utf8ByteSize maxInput) else .ok ()

/-- Drops each element that equals the one before it. -/
def dropRepeats : List Nat → List Nat
  | [] => []
  | [a] => [a]
  | a :: b :: rest => if a = b then dropRepeats (b :: rest) else a :: dropRepeats (b :: rest)

end Selection

/-- The chosen device numbers, rising. -/
structure Devices where
  ids : List Nat
  deriving DecidableEq, Repr

namespace Devices

open Selection

def empty : Devices := ⟨[]⟩

def size (d : Devices) : Nat := d.ids.length

def isEmpty (d : Devices) : Bool := d.ids.isEmpty

def borders (token : String) : Except Fault (Nat × Nat) :=
  match (Text.pieces '-' token).map Text.trim with
  | [left, right] =>
    match Text.word? left, Text.word? right with
    | none, _ => .error (.invalidRange (.left left token))
    | some _, none => .error (.invalidRange (.right right token))
    | some a, some b =>
      if b > maxRangeBorder then .error (.invalidRange (.tooFar b))
      else if a > b then .error (.invalidRange (.reversed a b))
      else .ok (a, b)
  | _ => .error (.invalidRange (.shape token))

def ofToken (token : String) : Except Fault (List Nat) :=
  if token.toList.contains '-' then do
    let (a, b) ← borders token
    return List.range' a (b + 1 - a)
  else match Text.word? token with
    | some n => .ok [n]
    | none => .error (.invalidDeviceId token)

def ofIds (ids : List Nat) : Devices := ⟨dropRepeats (ids.mergeSort (· ≤ ·))⟩

def parse (s : String) : Except Fault Devices := do
  checkLength s
  let parts ← ((Text.pieces ',' s).map Text.trim).mapM ofToken
  return ofIds parts.flatten

end Devices

end NpuRuntime
