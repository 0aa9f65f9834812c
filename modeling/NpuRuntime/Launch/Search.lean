import NpuRuntime.Failure
import NpuRuntime.Query.Basic
import NpuRuntime.Trust.Basic

/-! # Finding the runtime
A name is sought in all directories before the next name. The first hit decides: if it is not
trusted, no other is taken. -/
namespace NpuRuntime.Launch

open Query

/-- The parts of a path: its names without single dots, a leading slash and a leading dot. -/
def partCount (name : String) : Nat :=
  let leadingDot := (Text.pieces '/' name).head? = some "."
  let r := Route.read name
  (r.names.filter (· ≠ ".")).length + if r.absolute || leadingDot then 1 else 0

/-- A leading `~` stands for the home directory, if there is one. -/
def expandHome (home : Option String) (dir : String) : String :=
  match home with
  | none => dir
  | some home =>
    if home ≠ "" ∧ (Text.pieces '/' dir).head? = some "~" then
      ((Route.read dir).names.drop 1 |>.filter (· ≠ ".")).foldl PathText.join home
    else dir

/-- Where a name may be found, in order. A name of several parts is taken from the current
directory only. -/
def candidates (h : Host) (cwd : Path) (search name : String) : List String :=
  if partCount name > 1 then [PathText.join cwd.text name]
  else (Text.pieces ':' search).map fun dir =>
    PathText.join (expandHome (h.value? "HOME") dir) name

/-- A regular file that whoever started this process may execute. -/
def isProgram (h : Host) (path : String) : Bool :=
  if path.toList.contains (Char.ofNat 0) then false
  else match h.node (Route.read path), h.nodeAs h.real (Route.read path) with
    | .ok seen, .ok real => seen.isFile && real.permits h.real .execute
    | _, _ => false

/-- The first hit for a name. -/
def hit? (h : Host) (cwd : Path) (search name : String) : Option String :=
  (candidates h cwd search name).find? (isProgram h)

/-- The trusted file behind the first hit for the first name that has any. -/
def find (h : Host) (names : List String) (search : String) : Except Failure Path :=
  if search = "" then .error (.of (.noSearchList names))
  else match h.cwd with
    | none => .error (.ofSystem .searchDirectory .noEntry)
    | some cwd => match names.findSome? (hit? h cwd search) with
      | none => .error (.of (.noneFound names))
      | some found => match h.canonical (Route.read found) with
        | .error e => .error (.ofSystem (.resolving found) e)
        | .ok real => (Trust.realFile h real.text).mapError Failure.ofRejection

variable {σ ω : Type}

def findRuntime (h : Host) (names : List String) (search : String) : Act σ ω Failure Path := do
  let runtime ← MonadExcept.ofExcept (find h names search)
  note ⟨.debug, .execution, "runtime: " ++ runtime.text⟩
  return runtime

/-- The same with the directories of the variable `PATH`. -/
def findRuntimeInPath (h : Host) (names : List String) : Act σ ω Failure Path :=
  findRuntime h names ((h.value? "PATH").getD "")

end NpuRuntime.Launch
