import NpuRuntime.Text.Blank

/-! # Cutting text
Splitting at a separator, joining again, and reading plain decimal numbers. -/
namespace NpuRuntime.Text

/-- The stretches between separators; there is always at least one. -/
def pieces (sep : Char) (s : String) : List String :=
  (s.toList.splitOn sep).map String.ofList

def join (sep : Char) (parts : List String) : String :=
  String.ofList ([sep].intercalate (parts.map String.toList))

theorem join_pieces (sep : Char) (s : String) : join sep (pieces sep s) = s := by
  simp [join, pieces, Function.comp_def, List.intercalate_splitOn]

/-- What stands before and after the first separator, if there is one. -/
def cut? (sep : Char) (s : String) : Option (String × String) :=
  match s.toList.dropWhile (· != sep) with
  | [] => none
  | _ :: rest => some (String.ofList (s.toList.takeWhile (· != sep)), String.ofList rest)

def occurs (part : List Char) : List Char → Bool
  | [] => part.isEmpty
  | c :: rest => part.isPrefixOf (c :: rest) || occurs part rest

def holds (s part : String) : Bool := occurs part.toList s.toList

def after? (lead s : String) : Option String :=
  if lead.toList.isPrefixOf s.toList then some (String.ofList (s.toList.drop lead.length)) else none

/-- A non-empty run of ASCII digits. -/
def digits? (cs : List Char) : Option Nat :=
  if !cs.isEmpty && cs.all Char.isDigit then some (Nat.ofDigitChars 10 cs 0) else none

def natural? (s : String) : Option Nat := digits? s.toList

/-- A decimal number below 2^32; one plus sign may lead it. -/
def word? (s : String) : Option Nat :=
  let digits := match s.toList with
    | '+' :: rest => rest
    | cs => cs
  (digits? digits).filter (· < UInt32.size)

/-- Lines end at each newline; a last line without one counts unless it is empty. -/
def lines (s : String) : List String :=
  let all := pieces '\n' s
  if all.getLast? = some "" then all.dropLast else all

theorem natural?_empty : natural? "" = none := by decide

end NpuRuntime.Text
