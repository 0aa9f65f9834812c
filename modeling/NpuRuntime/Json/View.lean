import NpuRuntime.Json.Basic

/-! # Looking into JSON values
Each view gives what a value holds if it is of the wanted kind. -/
namespace NpuRuntime.Json

def text? : Json → Option String
  | .string s => some s
  | _ => none

def bool? : Json → Option Bool
  | .bool b => some b
  | _ => none

def int? : Json → Option Int
  | .number (.int n) => some n
  | _ => none

def nat? (v : Json) : Option Nat := v.int?.bind Int.toNat?

def items? : Json → Option (List Json)
  | .array items => some items
  | _ => none

def members? : Json → Option Members
  | .object ms => some ms
  | _ => none

/-- A member of an object. -/
def member? (v : Json) (name : String) : Option Json := v.members?.bind fun ms => get? ms name

/-- The texts in an array. -/
def texts? (v : Json) : Option (List String) := v.items?.bind fun vs => vs.mapM text?

end NpuRuntime.Json
