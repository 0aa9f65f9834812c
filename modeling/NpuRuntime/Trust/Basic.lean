import NpuRuntime.Host.Basic
import NpuRuntime.Trust.Rejection

/-! # Trusting a path
A path is trusted when nobody but the superuser and the current user can change what it names:
its text is plain, and the node it leads to and, on request, every directory above it have a
trusted owner and no write bits for others. -/
namespace NpuRuntime

structure Policy where
  allowDirectory : Bool := false
  checkParents : Bool := false
  allowSymlink : Bool := false
  /-- For files only; none skips the check. -/
  sizeLimit : Option Nat := none
  deriving DecidableEq, Repr

namespace Policy

def defaultSizeLimit : Nat := 100

def maxSizeLimit : Nat := 102400

/-- A regular file below trusted directories, no links, the default ceiling. -/
def file : Policy := ⟨false, true, false, some defaultSizeLimit⟩

/-- A directory or a file below trusted directories, no links. -/
def directory : Policy := ⟨true, true, false, none⟩

def withSymlinks (p : Policy) : Policy := { p with allowSymlink := true }

def withSizeLimit (p : Policy) (megabytes : Nat) : Policy := { p with sizeLimit := some megabytes }

end Policy

namespace Trust

/-- No more than this many ancestors are looked at. -/
def maxDepth : Nat := 99

def megabyte : Nat := 1024 * 1024

/-- The names of a plain path, seen from the root. No file is looked at, so a current directory
that has an upward step of its own cannot be used. -/
def absolute (h : Host) (text : String) : Except Rejection Path :=
  if !PathText.isSafe text then .error (.invalidPath text)
  else
    let r := Route.read text
    match (if r.absolute then some [] else h.cwd) with
    | none => .error (.notFound ".")
    | some base =>
      let names := (base ++ r.names).filter (· ≠ ".")
      if names.contains ".." then .error (.invalidPath (PathText.join (Path.text base) text))
      else if (names.getLast?.getD "").utf8ByteSize ≥ Path.maxName then .error (.invalidPath text)
      else .ok names

/-- The checks shared by a target and each of its ancestors. -/
def checkNode (h : Host) (p : Path) (allowDirectory allowSymlink : Bool) :
    Except Rejection (Path × Node) :=
  match h.canonical (Route.ofPath p) with
  | .error e => .error (.ofErrno p.text e)
  | .ok real =>
    if real ≠ p ∧ !allowSymlink then .error (.symlink p.text)
    else match h.node (Route.ofPath real) with
      | .error e => .error (.ofErrno p.text e)
      | .ok n =>
        if !(n.isFile || allowDirectory && n.isDirectory) then .error (.notRegular p.text)
        else if n.setsId then .error (.setId p.text)
        else if n.writableByOthers then .error (.writable p.text (n.mode &&& 0o7777))
        else if n.uid ≠ 0 ∧ n.uid ≠ h.user then .error (.owner p.text n.uid)
        else .ok (real, n)

/-- Checks directories in turn; `left` of them may be looked at. -/
def checkEach (h : Host) (allowSymlink : Bool) : Nat → List Path → Except Rejection Unit
  | _, [] => .ok ()
  | 0, _ :: _ => .error (.tooDeep maxDepth)
  | left + 1, p :: rest => do
    let _ ← checkNode h p true allowSymlink
    checkEach h allowSymlink left rest

def checkAncestors (h : Host) (allowSymlink : Bool) (p : Path) : Except Rejection Unit :=
  checkEach h allowSymlink maxDepth p.ancestors

def checkSize (limit : Option Nat) (real : Path) (n : Node) : Except Rejection Unit :=
  match limit with
  | none => .ok ()
  | some mb =>
    if n.isFile ∧ n.size > mb * megabyte then .error (.tooLarge real.text n.size) else .ok ()

def checkLimit (limit : Option Nat) : Except Rejection Unit :=
  match limit with
  | none => .ok ()
  | some mb => if mb > Policy.maxSizeLimit then .error (.invalidSizeLimit mb) else .ok ()

/-- The canonical form of a trusted path. Both chains of directories are checked: the one that was
named and the one that the links lead to. -/
def validate (h : Host) (text : String) (policy : Policy) : Except Rejection Path := do
  checkLimit policy.sizeLimit
  let p ← absolute h text
  let (real, n) ← checkNode h p policy.allowDirectory policy.allowSymlink
  checkSize policy.sizeLimit real n
  if policy.checkParents then
    checkAncestors h policy.allowSymlink p
    if real ≠ p then checkAncestors h policy.allowSymlink real
  return real

/-- A path given as bytes must be text to be trusted. -/
def validateBytes (h : Host) (bytes : List UInt8) (policy : Policy) : Except Rejection Path :=
  match Utf8.text? bytes with
  | some text => validate h text policy
  | none => .error (.invalidPath (Utf8.lenient bytes))

def realFile (h : Host) (text : String) : Except Rejection Path := validate h text Policy.file

/-- A trusted path, once it proves to be a directory. -/
def onlyDirectory (h : Host) (real : Path) : Except Rejection Path :=
  match h.node (Route.ofPath real) with
  | .ok n => if n.isDirectory then .ok real else .error (.notRegular real.text)
  | .error _ => .error (.notRegular real.text)

def realDirectory (h : Host) (text : String) : Except Rejection Path := do
  onlyDirectory h (← validate h text Policy.directory)

theorem checkEach_nil (h : Host) (allowSymlink : Bool) (left : Nat) :
    checkEach h allowSymlink left [] = .ok () := by
  cases left <;> rfl

end Trust

end NpuRuntime
