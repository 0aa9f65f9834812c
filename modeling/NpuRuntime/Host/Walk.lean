import NpuRuntime.Host.Errno
import NpuRuntime.Host.Files

/-! # Walking a path
Names are looked up one by one from a directory, as the kernel does. A link is replaced by its
target; at most `maxLinks` of them are followed. -/
namespace NpuRuntime

/-- Where a walk ended, and the directories in which it looked up a name, in order. -/
structure Walk where
  reached : Path
  searched : List Path
  deriving DecidableEq, Repr

namespace Files

def maxLinks : Nat := 40

def maxComponent : Nat := 255

/-- Ends a walk; after a trailing slash only a directory will do. -/
def arrive (fs : Files) (here : Path) (slash : Bool) (searched : List Path) : Except Errno Walk :=
  match fs.node? here with
  | none => .error .noEntry
  | some n => if slash && !n.isDirectory then .error .notDirectory else .ok ⟨here, searched⟩

/-- The way on from a directory: the names to look up there, whether only a directory will do in
the end, and the directories searched so far. -/
abbrev Onward := Path → List String → Bool → List Path → Except Errno Walk

/-- Looks names up as far as the first link. What comes behind it is up to `follow`; without that,
no more links are followed. -/
def stretch (fs : Files) (who : Identity) (follow : Option Onward) (here : Path)
    (names : List String) (slash : Bool) (searched : List Path) : Except Errno Walk :=
  match names with
  | [] => fs.arrive here slash searched
  | name :: rest =>
    match fs.node? here with
    | none => .error .noEntry
    | some dir =>
      if !dir.isDirectory then .error .notDirectory
      else if !dir.permits who .execute then .error .access
      else if name = "." then fs.stretch who follow here rest slash searched
      else if name = ".." then fs.stretch who follow here.dropLast rest slash searched
      else if name.utf8ByteSize > maxComponent then .error .nameTooLong
      else
        match fs.node? (here ++ [name]) with
        | none => .error .noEntry
        | some node =>
          match node.kind with
          | .link target =>
            match follow with
            | none => .error .linkLoop
            | some follow =>
              let r := Route.read target
              if r.size = 0 then .error .noEntry
              else
                follow (if r.absolute then [] else here) (r.names ++ rest)
                  (if rest.isEmpty then slash || r.endsInSlash else slash) (searched ++ [here])
          | _ => fs.stretch who follow (here ++ [name]) rest slash (searched ++ [here])

/-- Looks names up one by one and follows at most `links` links. -/
def walk (fs : Files) (who : Identity) (links : Nat) : Onward :=
  match links with
  | 0 => fs.stretch who none
  | links + 1 => fs.stretch who (some (fs.walk who links))

end Files

end NpuRuntime
