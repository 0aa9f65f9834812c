import NpuRuntime.Json.Printer
import NpuRuntime.Json.Reader

/-! # Devices and device rules
A device node of a container, and the rule that lets the container use it. -/
namespace NpuRuntime.Bundle

open Json (Members)
open Json.Raw (toText toBool toInt toNat toOption toRecord toJson)

/-- Numbers that a document stores in 64 bits. -/
def minInteger : Int := Int64.minValue.toInt
def maxInteger : Int := Int64.maxValue.toInt

def maxWord : Nat := UInt32.size - 1

structure Rule where
  allow : Bool
  kind : Option String := none
  major : Option Int := none
  minor : Option Int := none
  access : Option String := none
  other : Members := []
  deriving DecidableEq, Repr

structure Device where
  path : String
  kind : String
  major : Option Int := none
  minor : Option Int := none
  fileMode : Option Nat := none
  uid : Option Nat := none
  gid : Option Nat := none
  other : Members := []
  deriving DecidableEq, Repr

namespace Rule

def take (depth : Nat) (name : String) (v : Json.Raw) (r : Rule) : Except Json.Fault Rule :=
  match name with
  | "allow" => return { r with allow := ← v.toBool }
  | "type" => return { r with kind := ← v.toOption toText }
  | "major" => return { r with major := ← v.toOption (toInt minInteger maxInteger) }
  | "minor" => return { r with minor := ← v.toOption (toInt minInteger maxInteger) }
  | "access" => return { r with access := ← v.toOption toText }
  | _ => return { r with other := Json.put r.other name (← v.toJson depth) }

def shape : Json.Raw.Shape := ⟨["allow"], ["type", "major", "minor", "access"]⟩

def read (depth : Nat) (v : Json.Raw) : Except Json.Fault Rule :=
  v.toRecord depth shape take { allow := false }

def toJson (r : Rule) : Json := .object <|
  [("allow", .bool r.allow)] ++ Json.optional "type" (r.kind.map .string) ++
    Json.optional "major" (r.major.map fun n => .number (.int n)) ++
    Json.optional "minor" (r.minor.map fun n => .number (.int n)) ++
    Json.optional "access" (r.access.map .string) ++ r.other

end Rule

namespace Device

def access : String := "rwm"

def take (depth : Nat) (name : String) (v : Json.Raw) (d : Device) : Except Json.Fault Device :=
  match name with
  | "path" => return { d with path := ← v.toText }
  | "type" => return { d with kind := ← v.toText }
  | "major" => return { d with major := ← v.toOption (toInt minInteger maxInteger) }
  | "minor" => return { d with minor := ← v.toOption (toInt minInteger maxInteger) }
  | "fileMode" => return { d with fileMode := ← v.toOption (toNat maxWord) }
  | "uid" => return { d with uid := ← v.toOption (toNat maxWord) }
  | "gid" => return { d with gid := ← v.toOption (toNat maxWord) }
  | _ => return { d with other := Json.put d.other name (← v.toJson depth) }

def shape : Json.Raw.Shape := ⟨["path", "type"], ["major", "minor", "fileMode", "uid", "gid"]⟩

def read (depth : Nat) (v : Json.Raw) : Except Json.Fault Device :=
  v.toRecord depth shape take { path := "", kind := "" }

def toJson (d : Device) : Json := .object <|
  [("path", .string d.path), ("type", .string d.kind)] ++
    Json.optional "major" (d.major.map fun n => .number (.int n)) ++
    Json.optional "minor" (d.minor.map fun n => .number (.int n)) ++
    Json.optional "fileMode" (d.fileMode.map fun n => .number (.int n)) ++
    Json.optional "uid" (d.uid.map fun n => .number (.int n)) ++
    Json.optional "gid" (d.gid.map fun n => .number (.int n)) ++ d.other

def rule (d : Device) : Rule :=
  { allow := true, kind := some d.kind, major := d.major, minor := d.minor, access := some access }

end Device

end NpuRuntime.Bundle
