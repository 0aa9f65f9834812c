import NpuRuntime.Text.Basic

/-! # Paths
A `Path` lists the names that lead down from the root. A `Route` is a path as somebody wrote it,
before any directory has been looked at. -/
namespace NpuRuntime

/-- The names from the root down; the root itself is `[]`. -/
abbrev Path := List String

namespace Path

def text (p : Path) : String := "/" ++ String.intercalate "/" p

/-- The proper ancestors of a path, the nearest one first. -/
def ancestors (p : Path) : List Path :=
  ((List.range p.length).map fun n => p.take n).reverse

theorem length_ancestors (p : Path) : (ancestors p).length = p.length := by simp [ancestors]

/-- The longest path text that any call accepts is shorter than this. -/
def maxText : Nat := 4096

/-- A last name must be shorter than this. -/
def maxName : Nat := 256

end Path

/-- A path as written. `size` is the length of its text in bytes. -/
structure Route where
  absolute : Bool
  names : List String
  endsInSlash : Bool
  size : Nat
  deriving DecidableEq, Repr

namespace Route

def read (s : String) : Route where
  absolute := s.toList.head? == some '/'
  names := (Text.pieces '/' s).filter (· ≠ "")
  endsInSlash := s.toList.getLast? == some '/'
  size := s.utf8ByteSize

def ofPath (p : Path) : Route := ⟨true, p, p.isEmpty, p.text.utf8ByteSize⟩

end Route

namespace PathText

/-- `name` seen from the directory `base`; an absolute name stands for itself. -/
def join (base name : String) : String :=
  if name.toList.head? = some '/' then name
  else if base = "" ∨ base.toList.getLast? = some '/' then base ++ name
  else base ++ "/" ++ name

/-- Whether the piece at this place names something: a dot does so only at the front. -/
private def stands (first : Bool) (piece : String) : Bool :=
  piece ≠ "" && (first || piece ≠ ".")

/-- Drops trailing pieces that name nothing. `first` says that the last piece left is the front. -/
private def settle (rooted : Bool) : List String → List String
  | [] => []
  | p :: rest => if stands (!rooted && rest.isEmpty) p then p :: rest else settle rooted rest

/-- The directory part of a path text; the root and the empty text have none. -/
def parent? (s : String) : Option String :=
  let rooted := s.toList.head? = some '/'
  let all := (Text.pieces '/' s).reverse
  let body := settle rooted (if rooted then all.dropLast else all)
  match body with
  | [] => none
  | _ :: above =>
    let text := Text.join '/' (settle rooted above).reverse
    some (if rooted then "/" ++ text else text)

/-- The absolute form of a non-empty text, made without looking at any file: empty pieces and
single dots go, `..` stays, and so do a trailing slash and exactly two leading ones. -/
def absolute? (cwd : Option Path) (s : String) : Option String :=
  let r := Route.read s
  let names := r.names.filter (· ≠ ".")
  let base? := if r.absolute then
      let two := s.toList.take 2 = ['/', '/'] ∧ s.toList.take 3 ≠ ['/', '/', '/']
      some (if two then "//" else "/")
    else cwd.map Path.text
  if s = "" then none
  else base?.map fun base =>
    let full := names.foldl join base
    if r.endsInSlash then join full "" else full

end PathText

/-- ASCII letters and digits and the characters of `extra`, more than `min` and fewer than `max`
bytes of them. -/
def Text.isPlain (s : String) (min max : Nat) (extra : String) : Bool :=
  min < s.utf8ByteSize && s.utf8ByteSize < max &&
    s.toList.all fun c => c.isAlphanum || extra.toList.contains c

namespace PathText

/-- What a path may hold besides ASCII letters and digits. -/
def whiteList : String := "-_./~"

/-- Neither empty nor overlong, of plain characters only, and without two dots in a row. -/
def isSafe (s : String) : Bool :=
  !Text.holds s ".." && Text.isPlain s 0 Path.maxText whiteList

end PathText

end NpuRuntime
