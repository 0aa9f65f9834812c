import NpuRuntime.Failure
import NpuRuntime.Query.Basic
import NpuRuntime.Trust.Basic

/-! # Mount lists
Trusted files with one host path a line. A list that is bad in itself fails; a line that names
nothing to mount is passed over. -/
namespace NpuRuntime

open Query

/-- Host paths to mount into a container. -/
structure Mounts where
  files : List String
  directories : List String
  deriving DecidableEq, Repr

namespace Mounts

variable {σ ω : Type}

def empty : Mounts := ⟨[], []⟩

def append (a b : Mounts) : Mounts := ⟨a.files ++ b.files, a.directories ++ b.directories⟩

/-- Lines in one list, blank ones included. -/
def maxEntries : Nat := 128

def listSuffix : String := "list"

/-- What one line of a list adds, or the text under which it is passed over. -/
def ofLine (h : Host) (line : String) : Except String Mounts :=
  match PathText.absolute? h.cwd line with
  | none => .error (Text.quoted line)
  | some path =>
    match h.node (Route.read path) with
    | .error _ => .error path
    | .ok n =>
      if n.isFile then .ok ⟨[path], []⟩
      else if n.isDirectory then .ok ⟨[], [path]⟩
      else .error path

/-- The mounts of the lines from number `count` on. -/
def ofLines (h : Host) (list : Path) : Nat → List String → Act σ ω Failure Mounts
  | _, [] => return empty
  | count, line :: rest => do
    if count ≥ maxEntries then throw (.ofFault (.tooMany .mountEntries (count + 1) maxEntries))
    let line := Text.trim line
    let here ← if line = "" then pure empty
      else match ofLine h line with
        | .ok m => pure m
        | .error shown => do
          note ⟨.debug, .mounts, list.text ++ ": skipping " ++ shown⟩
          pure empty
    return here.append (← ofLines h list (count + 1) rest)

/-- The text of a list. -/
def listText (h : Host) (list : Path) : Except Failure String :=
  match h.read (Route.ofPath list) with
  | .error e => .error (.ofSystem (.readingList list.text) e)
  | .ok content => match Utf8.text? content.toList with
    | some text => .ok text
    | none => .error ⟨[.readingList list.text], .notText⟩

/-- Reads the list of this name. -/
def readList (h : Host) (dir name : String) : Act σ ω Failure Mounts := do
  let file := PathText.join dir (name ++ "." ++ listSuffix)
  let list ← MonadExcept.ofExcept ((Trust.realFile h file).mapError Failure.ofPath)
  let text ← MonadExcept.ofExcept (listText h list)
  ofLines h list 0 (Text.lines text)

def readNamed (h : Host) (dir : Path) : List String → Act σ ω Failure Mounts
  | [] => return empty
  | name :: rest => do
    let here ← mapFailure (Failure.within (.mountList name)) (readList h dir.text name)
    return here.append (← readNamed h dir rest)

/-- Reads the named lists of a trusted directory, one after the other. -/
def readLists (h : Host) (dir : String) (names : List String) : Act σ ω Failure Mounts := do
  let real ← MonadExcept.ofExcept <| (Trust.realDirectory h dir).mapError fun r =>
    (Failure.ofPath r).within (.listDirectory dir)
  readNamed h real names

theorem append_empty (m : Mounts) : m.append empty = m := by simp [append, empty]

end Mounts

end NpuRuntime
