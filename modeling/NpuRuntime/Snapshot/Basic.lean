import NpuRuntime.Host.Basic
import NpuRuntime.Json.View
import NpuRuntime.Text.Utf8

/-! # Snapshots
A description of a host as a JSON value: its files, the current directory, the user and the
environment. What a description leaves out has a default. -/
namespace NpuRuntime.Snapshot

def textOr (v : Json) (name default : String) : String :=
  ((v.member? name).bind Json.text?).getD default

def natOr (v : Json) (name : String) (default : Nat) : Nat :=
  ((v.member? name).bind Json.nat?).getD default

def octal? (s : String) : Option Nat :=
  if s ≠ "" ∧ s.toList.all (fun c => '0' ≤ c ∧ c ≤ '7') then some (Nat.ofDigitChars 8 s.toList 0)
  else none

def hexDigit (c : Char) : Nat :=
  if c.isDigit then c.toNat - '0'.toNat else c.toLower.toNat - 'a'.toNat + 10

def hexBytes : List Char → List UInt8
  | a :: b :: rest => UInt8.ofNat (hexDigit a * 16 + hexDigit b) :: hexBytes rest
  | _ => []

def ofHex (s : String) : List UInt8 := hexBytes s.toList

/-- Bytes under a name, given as text or in hexadecimal. -/
def bytes? (v : Json) (name : String) : Option (List UInt8) :=
  match (v.member? (name ++ "_hex")).bind Json.text? with
  | some hex => some (ofHex hex)
  | none => ((v.member? name).bind Json.text?).map Utf8.bytesOf

/-- The content of a file: text so many times over, or bytes, cut or continued to a size. -/
def content (v : Json) : Content :=
  let bytes := match (v.member? "hex").bind Json.text? with
    | some hex => ofHex hex
    | none =>
      let text := Utf8.bytesOf (textOr v "text" "")
      (List.replicate (natOr v "repeat" 1) text).flatten
  match (v.member? "size").bind Json.nat? with
  | some n => Content.resize ⟨bytes, 0⟩ n
  | none => ⟨bytes, 0⟩

def kind (v : Json) : Kind :=
  match textOr v "kind" "file" with
  | "dir" => .directory
  | "link" => .link (textOr v "target" "")
  | "char" => .charDevice (natOr v "major" 0) (natOr v "minor" 0)
  | "block" => .blockDevice (natOr v "major" 0) (natOr v "minor" 0)
  | "fifo" => .fifo
  | "socket" => .socket
  | "probe" => .reporter
  | _ => .file (content v)

def defaultMode : Kind → Nat
  | .directory | .reporter => 0o755
  | _ => 0o644

def node (v : Json) : Node :=
  let k := kind v
  { kind := k
    mode := ((v.member? "mode").bind fun m => m.text?.bind octal?).getD (defaultMode k)
    uid := natOr v "uid" 0
    gid := natOr v "gid" 0 }

/-- Puts a node in place of whatever is there. -/
def replace (fs : Files) (p : Path) (n : Node) : Files := (fs.remove p).put p n

/-- Makes the directories that lead down from `here`. A link to a directory is followed. -/
def descend (fs : Files) (here : Path) : List String → Files × Path
  | [] => (fs, here)
  | name :: rest =>
    let p := here ++ [name]
    let made := replace fs p Node.rootDirectory
    match fs.node? p with
    | none => descend made p rest
    | some n =>
      if n.isDirectory then descend fs p rest
      else match fs.walk {} Files.maxLinks [] p true [] with
        | .ok w => descend fs w.reached rest
        | .error _ => descend made p rest

/-- Adds a node. A directory that is there keeps its content. -/
def plant (fs : Files) (p : Path) (n : Node) : Files :=
  match p.getLast? with
  | none => if n.isDirectory then fs.put [] n else fs
  | some name =>
    let (fs, parent) := descend fs [] p.dropLast
    let place := parent ++ [name]
    let kept := n.isDirectory && ((fs.node? place).any Node.isDirectory)
    if kept then fs.put place n else replace fs place n

def pathOf (s : String) : Path := (Route.read s).names.filter (· ≠ ".")

def addEntry (fs : Files) (v : Json) : Files := plant fs (pathOf (textOr v "path" "/")) (node v)

def addEntries (fs : Files) (v : Option Json) : Files :=
  ((v.bind Json.items?).getD []).foldl addEntry fs

def directory (fs : Files) (s : String) : Path :=
  let p := pathOf s
  match fs.walk {} Files.maxLinks [] p false [] with
  | .ok w => w.reached
  | .error _ => p

def environment (v : Option Json) : List (String × String) :=
  ((v.bind Json.members?).getD []).filterMap fun m => m.2.text?.map fun value => (m.1, value)

def hostOn (fs : Files) (v : Json) : Host :=
  { files := fs
    cwd := some (directory fs (textOr v "cwd" "/"))
    user := natOr v "euid" 0
    environment := environment (v.member? "env") }

def host (v : Json) : Host := hostOn (addEntries Files.bare (v.member? "fs")) v

end NpuRuntime.Snapshot
