import NpuRuntime.Failure
import NpuRuntime.Path

/-! # The runtime's command line
Only the bundle and the `create` command matter here; all else is for the runtime itself. -/
namespace NpuRuntime.Creation

/-- The joined command line is shorter than this. -/
def maxCommandLine : Nat := 65535

/-- A command line of plain characters only. -/
def checkArguments (argv : List String) : Except Failure Unit :=
  if Text.isPlain (String.intercalate " " argv) 0 maxCommandLine (PathText.whiteList ++ " ") then
    .ok ()
  else .error (.of .badCommandLine)

structure Arguments where
  bundle : Option String := none
  create : Bool := false
  deriving DecidableEq, Repr

namespace Arguments

/-- The value inside an argument of the form `--bundle=…`. -/
def inlineBundle? (arg : String) : Option String :=
  (Text.after? "--bundle=" arg).orElse fun _ => Text.after? "-b=" arg

def withBundle (a : Arguments) (flag value : String) : Except Failure Arguments :=
  if value = "" then .error (.of (.emptyBundle flag)) else .ok { a with bundle := some value }

/-- Reads arguments from the left. What follows a bundle flag is its value, whatever it looks
like. -/
def scan (a : Arguments) : List String → Except Failure Arguments
  | [] => .ok a
  | arg :: rest =>
    if arg = "--bundle" ∨ arg = "-b" then
      match rest with
      | [] => .error (.of (.emptyBundle arg))
      | value :: rest => do scan (← a.withBundle arg value) rest
    else if arg = "create" then scan { a with create := true } rest
    else match inlineBundle? arg with
      | some value => do scan (← a.withBundle arg value) rest
      | none => scan a rest

/-- Reads a command line, program name first. -/
def parse (argv : List String) : Except Failure Arguments := scan {} (argv.drop 1)

end Arguments

end NpuRuntime.Creation
