import NpuRuntime.Bundle.Spec
import NpuRuntime.Failure

/-! # Reading container documents -/
namespace NpuRuntime.Bundle

open Json (Members)
open Json.Raw (Shape toText toOption toList toRecord)

def readTexts (depth : Nat) (v : Json.Raw) : Except Json.Fault (List String) :=
  v.toList depth fun _ => toText

namespace Process

def take (depth : Nat) (name : String) (v : Json.Raw) (p : Process) : Except Json.Fault Process :=
  match name with
  | "env" => return { p with env := ← v.toOption (readTexts depth) }
  | _ => return { p with other := Json.put p.other name (← v.toJson depth) }

def shape : Shape := ⟨[], ["env"]⟩

def read (depth : Nat) (v : Json.Raw) : Except Json.Fault Process := v.toRecord depth shape take {}

end Process

namespace Root

def take (depth : Nat) (name : String) (v : Json.Raw) (r : Root) : Except Json.Fault Root :=
  match name with
  | "path" => return { r with path := ← v.toText }
  | _ => return { r with other := Json.put r.other name (← v.toJson depth) }

def shape : Shape := ⟨["path"], []⟩

def read (depth : Nat) (v : Json.Raw) : Except Json.Fault Root :=
  v.toRecord depth shape take { path := "" }

end Root

namespace Hook

def take (depth : Nat) (name : String) (v : Json.Raw) (h : Hook) : Except Json.Fault Hook :=
  match name with
  | "path" => return { h with path := ← v.toText }
  | "args" => return { h with args := ← v.toOption (readTexts depth) }
  | _ => return { h with other := Json.put h.other name (← v.toJson depth) }

def shape : Shape := ⟨["path"], ["args"]⟩

def read (depth : Nat) (v : Json.Raw) : Except Json.Fault Hook :=
  v.toRecord depth shape take { path := "" }

end Hook

namespace Hooks

def take (depth : Nat) (name : String) (v : Json.Raw) (h : Hooks) : Except Json.Fault Hooks :=
  match name with
  | "prestart" => return { h with prestart := ← v.toOption (toList depth Hook.read) }
  | "poststop" => return { h with poststop := ← v.toOption (toList depth Hook.read) }
  | _ => return { h with other := Json.put h.other name (← v.toJson depth) }

def shape : Shape := ⟨[], ["prestart", "poststop"]⟩

def read (depth : Nat) (v : Json.Raw) : Except Json.Fault Hooks := v.toRecord depth shape take {}

end Hooks

namespace Resources

def take (depth : Nat) (name : String) (v : Json.Raw) (r : Resources) :
    Except Json.Fault Resources :=
  match name with
  | "devices" => return { r with devices := ← v.toOption (toList depth Rule.read) }
  | _ => return { r with other := Json.put r.other name (← v.toJson depth) }

def shape : Shape := ⟨[], ["devices"]⟩

def read (depth : Nat) (v : Json.Raw) : Except Json.Fault Resources :=
  v.toRecord depth shape take {}

end Resources

namespace Linux

def take (depth : Nat) (name : String) (v : Json.Raw) (l : Linux) : Except Json.Fault Linux :=
  match name with
  | "devices" => return { l with devices := ← v.toOption (toList depth Device.read) }
  | "resources" => return { l with resources := ← v.toOption (Resources.read depth) }
  | _ => return { l with other := Json.put l.other name (← v.toJson depth) }

def shape : Shape := ⟨[], ["devices", "resources"]⟩

def read (depth : Nat) (v : Json.Raw) : Except Json.Fault Linux := v.toRecord depth shape take {}

end Linux

/-- A document as it is in the file, whose process and root may still be missing. -/
structure Sections where
  process : Option Process := none
  root : Option Root := none
  hooks : Option Hooks := none
  linux : Option Linux := none
  other : Members := []
  deriving DecidableEq, Repr

namespace Sections

def take (depth : Nat) (name : String) (v : Json.Raw) (s : Sections) :
    Except Json.Fault Sections :=
  match name with
  | "process" => return { s with process := ← v.toOption (Process.read depth) }
  | "root" => return { s with root := ← v.toOption (Root.read depth) }
  | "hooks" => return { s with hooks := ← v.toOption (Hooks.read depth) }
  | "linux" => return { s with linux := ← v.toOption (Linux.read depth) }
  | _ => return { s with other := Json.put s.other name (← v.toJson depth) }

def shape : Shape := ⟨[], ["process", "root", "hooks", "linux"]⟩

def read (depth : Nat) (v : Json.Raw) : Except Json.Fault Sections := v.toRecord depth shape take {}

/-- The document, if it has a process and a root. -/
def complete (s : Sections) : Except Cause Spec :=
  match s.process, s.root with
  | none, _ => .error .noProcess
  | some _, none => .error .noRoot
  | some process, some root => .ok ⟨process, root, s.hooks, s.linux, s.other⟩

end Sections

/-- Reads a document. A process and a root are required once all of it has been read. -/
def Spec.ofBytes (bytes : List UInt8) : Except Failure Spec :=
  match Json.readDocument (Sections.read Json.maxDepth) bytes with
  | .error f => .error ⟨[.specText], .document f⟩
  | .ok s => s.complete.mapError Failure.of

end NpuRuntime.Bundle
