import NpuRuntime.Selection.Devices

/-! # Runtime options
A comma list of names from a fixed set; the first unknown name refuses the whole list. -/
namespace NpuRuntime

inductive RuntimeOption where
  /-- The host's driver is not mounted into the container. -/
  | noDriver
  /-- The devices are virtual slices. -/
  | virtual
  deriving DecidableEq, Repr

namespace RuntimeOption

def name : RuntimeOption → String
  | noDriver => "NODRV"
  | virtual => "VIRTUAL"

def ofName (s : String) : Except Fault RuntimeOption :=
  match s with
  | "NODRV" => .ok noDriver
  | "VIRTUAL" => .ok virtual
  | _ => .error (.invalidOption s)

theorem ofName_name (o : RuntimeOption) : ofName o.name = .ok o := by cases o <;> rfl

end RuntimeOption

/-- Distinct options in the order in which they were first seen. -/
structure RuntimeOptions where
  list : List RuntimeOption
  deriving DecidableEq, Repr

namespace RuntimeOptions

def empty : RuntimeOptions := ⟨[]⟩

def add (o : RuntimeOptions) (x : RuntimeOption) : RuntimeOptions :=
  if o.list.contains x then o else ⟨o.list ++ [x]⟩

def isVirtual (o : RuntimeOptions) : Bool := o.list.contains .virtual

def isEmpty (o : RuntimeOptions) : Bool := o.list.isEmpty

/-- Names are exact and case counts; an empty text is an empty set. -/
def parse (s : String) : Except Fault RuntimeOptions :=
  if s = "" then .ok empty
  else do
    Selection.checkLength s
    let options ← (Text.pieces ',' s).mapM fun t => RuntimeOption.ofName (Text.trim t)
    return options.foldl add empty

def text (o : RuntimeOptions) : String := Text.join ',' (o.list.map RuntimeOption.name)

theorem parse_empty : parse "" = .ok empty := rfl

end RuntimeOptions

end NpuRuntime
