import NpuRuntime.Failure
import NpuRuntime.Json.Reader

/-! # Container states
What a hook is told about its container: an object, or its two values in an array. -/
namespace NpuRuntime.Bundle

open Json (Raw)

structure State where
  pid : Int
  bundle : String
  deriving DecidableEq, Repr

namespace State

def documentName : String := "config.json"

def readPid (v : Raw) : Except Json.Fault Int := v.toInt Int32.minValue.toInt Int32.maxValue.toInt

def take (name : String) (v : Raw) (s : State) : Except Json.Fault State :=
  match name with
  | "pid" => return { s with pid := ← readPid v }
  | "bundle" => return { s with bundle := ← v.toText }
  | _ => do v.pass; return s

def shape : Raw.Shape := ⟨["pid", "bundle"], []⟩

/-- The values of an array, which must end after the second one. -/
def readItems (items : List Raw) (stop : Option Json.Fault) : Except Json.Fault State :=
  let ended (f : Json.Fault) : Json.Fault := stop.getD f
  match items with
  | [] => .error (ended .misshapen)
  | [pid] => do
    let _ ← readPid pid
    throw (ended .misshapen)
  | [pid, bundle] => do
    let pid ← readPid pid
    let bundle ← bundle.toText
    match stop with
    | some f => throw f
    | none => return ⟨pid, bundle⟩
  | pid :: bundle :: _ => do
    let _ ← readPid pid
    let _ ← bundle.toText
    throw .malformed

def read (v : Raw) : Except Json.Fault State :=
  match v with
  | .array items stop => readItems items stop
  | _ => v.toRecord Json.maxDepth shape (fun _ => take) ⟨0, ""⟩

def ofBytes (bytes : List UInt8) : Except Failure State :=
  (Json.readDocument read bytes).mapError fun f => ⟨[.stateText], .document f⟩

end State

end NpuRuntime.Bundle
