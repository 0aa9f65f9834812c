import NpuRuntime.Selection.Devices
import NpuRuntime.Text.Lowercase

/-! # Mount list names -/
namespace NpuRuntime.MountNames

def default : String := "base"

def isPlain (c : Char) : Bool := c.isLower || c.isDigit || c == '_' || c == '-'

/-- A trimmed name in small letters, if it is a plain one. -/
def ofToken (token : String) : Except Fault String :=
  let name := Text.lowercase (Text.trim token)
  if name ≠ "" ∧ name.toList.all isPlain then .ok name else .error (.invalidMountName name)

def parse (s : String) : Except Fault (List String) :=
  if Text.trim s = "" then .ok [default]
  else do
    Selection.checkLength s
    (Text.pieces ',' s).mapM ofToken

end NpuRuntime.MountNames
