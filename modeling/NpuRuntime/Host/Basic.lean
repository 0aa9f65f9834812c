import NpuRuntime.Host.Walk

/-! # The host
What one process sees: the files, its current directory, who it acts for and its environment.
Every question about a path starts its walk afresh. File names, link targets and variables are
Unicode text; files hold bytes. -/
namespace NpuRuntime

/-- The process's own identity is the one whose rights count when a file is used. -/
structure Host extends Identity where
  files : Files
  /-- None once the directory has been removed. -/
  cwd : Option Path := some []
  /-- Who started the process. -/
  real : Identity := {}
  environment : List (String × String) := []
  deriving DecidableEq, Repr

namespace Host

abbrev effective (h : Host) : Identity := h.toIdentity

def value? (h : Host) (name : String) : Option String :=
  (h.environment.find? fun v => v.1 == name).map Prod.snd

def walkAs (h : Host) (who : Identity) (r : Route) : Except Errno Walk :=
  if r.size ≥ Path.maxText then .error .nameTooLong
  else if r.size = 0 then .error .noEntry
  else if r.absolute then h.files.walk who Files.maxLinks [] r.names r.endsInSlash []
  else match h.cwd with
    | none => .error .noEntry
    | some cwd => h.files.walk who Files.maxLinks cwd r.names r.endsInSlash []

def walk (h : Host) (r : Route) : Except Errno Walk := h.walkAs h.effective r

/-- The path a route leads to, all links followed. -/
def canonical (h : Host) (r : Route) : Except Errno Path := return (← h.walk r).reached

def nodeAs (h : Host) (who : Identity) (r : Route) : Except Errno Node := do
  let w ← h.walkAs who r
  match h.files.node? w.reached with
  | some n => return n
  | none => throw .noEntry

/-- The node a route leads to, all links followed. -/
def node (h : Host) (r : Route) : Except Errno Node := h.nodeAs h.effective r

def exists? (h : Host) (r : Route) : Bool := (h.node r).isOk

/-- Where the link at a path points, as written. -/
def linkTarget (h : Host) (r : Route) : Except Errno String := do
  match r.names.getLast? with
  | none => throw .invalid
  | some name =>
    let dir ← h.walk { r with names := r.names.dropLast, endsInSlash := true }
    match h.files.node? (dir.reached ++ [name]) with
    | none => throw .noEntry
    | some n => match n.kind with
      | .link target => return target
      | _ => throw .invalid

def read (h : Host) (r : Route) : Except Errno Content := do
  let n ← h.node r
  if !n.permits h.effective .read then throw .access
  match n.kind with
  | .file c => return c
  | .reporter => return ⟨[], 0⟩
  | .directory => throw .isDirectory
  | _ => throw .noDevice

/-- The path of a file that may be written. -/
def writable (h : Host) (r : Route) : Except Errno Path := do
  let p ← h.canonical r
  let n ← h.node r
  if n.isDirectory then throw .isDirectory
  if !n.permits h.effective .write then throw .access
  return p

/-- Gives the file at a path new content and leaves all else about it alone. -/
def store (h : Host) (p : Path) (bytes : List UInt8) : Host :=
  match h.files.node? p with
  | some n => { h with files := h.files.put p { n with kind := .file ⟨bytes, 0⟩ } }
  | none => h

end Host

end NpuRuntime
