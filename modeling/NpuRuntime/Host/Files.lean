import NpuRuntime.Path

/-! # Files
Nodes with an owner and mode bits, kept by the path that leads to them. -/
namespace NpuRuntime

/-- Stored bytes and the zeros that follow them. -/
structure Content where
  bytes : List UInt8
  zeros : Nat := 0
  deriving DecidableEq, Repr

namespace Content

def size (c : Content) : Nat := c.bytes.length + c.zeros

def toList (c : Content) : List UInt8 := c.bytes ++ List.replicate c.zeros 0

/-- Longer content is cut, shorter content continues with zeros. -/
def resize (c : Content) (n : Nat) : Content :=
  ⟨c.bytes.take n, n - min n c.bytes.length⟩

end Content

inductive Kind where
  | file (content : Content)
  /-- A regular file that reports how it was started when it is executed. -/
  | reporter
  | directory
  | link (target : String)
  | charDevice (major minor : Nat)
  | blockDevice (major minor : Nat)
  | fifo
  | socket
  deriving DecidableEq, Repr

structure Node where
  kind : Kind
  mode : Nat
  uid : Nat := 0
  gid : Nat := 0
  deriving DecidableEq, Repr

/-- A user and all groups that he acts for. -/
structure Identity where
  user : Nat := 0
  groups : List Nat := [0]
  deriving DecidableEq, Repr

inductive Permit where
  | read
  | write
  | execute
  deriving DecidableEq, Repr

def Permit.bit : Permit → Nat
  | read => 4
  | write => 2
  | execute => 1

namespace Node

def rootDirectory : Node := ⟨.directory, 0o755, 0, 0⟩

def isDirectory (n : Node) : Bool := n.kind matches .directory

def isFile (n : Node) : Bool := n.kind matches .file _ | .reporter

def size (n : Node) : Nat :=
  match n.kind with
  | .file c => c.size
  | _ => 0

def setsId (n : Node) : Bool := n.mode &&& 0o6000 != 0

def writableByOthers (n : Node) : Bool := n.mode &&& 0o022 != 0

/-- The class of mode bits that applies: the owner's, a group's, or that of all others. -/
def classShift (n : Node) (who : Identity) : Nat :=
  if who.user = n.uid then 6 else if n.gid ∈ who.groups then 3 else 0

/-- The superuser needs an execute bit of some class on a plain file, and nothing else. -/
def permits (n : Node) (who : Identity) (p : Permit) : Bool :=
  if who.user = 0 then p != .execute || n.isDirectory || n.mode &&& 0o111 != 0
  else (n.mode >>> n.classShift who) &&& p.bit != 0

end Node

/-- Nodes by path. The first entry for a path counts. -/
structure Files where
  entries : List (Path × Node)
  deriving DecidableEq, Repr

namespace Files

def bare : Files := ⟨[([], Node.rootDirectory)]⟩

def node? (fs : Files) (p : Path) : Option Node :=
  (fs.entries.find? fun e => e.1 == p).map Prod.snd

def put (fs : Files) (p : Path) (n : Node) : Files :=
  if fs.entries.any (·.1 == p) then ⟨fs.entries.map fun e => if e.1 == p then (p, n) else e⟩
  else ⟨fs.entries ++ [(p, n)]⟩

/-- Removes a path with all that lies below it. -/
def remove (fs : Files) (p : Path) : Files :=
  ⟨fs.entries.filter fun e => !p.isPrefixOf e.1⟩

end Files

end NpuRuntime
