import NpuRuntime.Mount.Helper

/-! # Starting a program
The program takes this process's place, so coming back means failure. -/
namespace NpuRuntime.Launch

open Query

/-- Directories for names without a slash when no variable says otherwise. -/
def defaultSearch : String := "/bin:/usr/bin"

/-- The interpreter that a script names in its first line. -/
def interpreter? (content : Content) : Option String :=
  match content.bytes with
  | 0x23 :: 0x21 :: rest =>
    let line := Text.trimChars (Utf8.lenient (rest.takeWhile (· != 0x0a))).toList
    let program := line.takeWhile fun c => !Text.isBlank c
    if program.isEmpty then none else some (String.ofList program)
  | _ => none

/-- Loads the file at a path into this process. Plain files are never in a format that can be
loaded. -/
def load (h : Host) (path : String) : Except Errno Unit := do
  let n ← h.node (Route.read path)
  if !n.isFile || !n.permits h.effective .execute then throw .access
  match n.kind with
  | .reporter => return
  | .file content =>
    match interpreter? content with
    | some program =>
      let _ ← h.node (Route.read program)
      throw .notExecutable
    | none => throw .notExecutable
  | _ => throw .access

/-- Tries paths in order. A missing one lets the search go on, and so does a forbidden one, which
then decides the outcome. -/
def loadFirst (h : Host) (forbidden : Bool) (last : Errno) : List String → Except Errno String
  | [] => .error (if forbidden then .access else last)
  | path :: rest =>
    match load h path with
    | .ok () => .ok path
    | .error .access => loadFirst h true .access rest
    | .error .noEntry => loadFirst h forbidden .noEntry rest
    | .error .notDirectory => loadFirst h forbidden .notDirectory rest
    | .error e => .error e

/-- The path by which a program was started. -/
def start (h : Host) (program : String) : Except Errno String :=
  if program = "" then .error .noEntry
  else if program.toList.contains '/' then (load h program).map fun () => program
  else
    let search := (h.value? "PATH").getD defaultSearch
    loadFirst h false .noEntry ((Text.pieces ':' search).map fun dir => PathText.join dir program)

def hasZero (s : String) : Bool := s.toList.contains (Char.ofNat 0)

variable {σ ω : Type}

/-- Replaces this process; the result is the path by which the program was started. -/
def exec (h : Host) (i : Invocation) : Act σ ω Failure String := do
  note ⟨.info, .execution, "exec " ++ i.program ++ " " ++ String.intercalate " " i.args⟩
  let failed (e : ExecFault) : Failure := .of (.notStarted i.program e)
  if (i.program :: i.args).any hasZero then throw (failed .zeroByte)
  match start h i.program with
  | .ok path => return path
  | .error e => throw (failed (.errno e))

end NpuRuntime.Launch
