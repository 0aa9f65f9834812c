import NpuRuntime.Json.Numeral
import NpuRuntime.Text.Utf8

/-! # JSON as it is written
A document is read into a tree that keeps what was seen up to the first place where the text goes
wrong. What is wrong first then depends on who reads the tree: one reader looks at the characters
of a string, another passes over them. -/
namespace NpuRuntime.Json

open Utf8 (Piece)

/-- One element of a string. -/
inductive Mark where
  | char (c : Char)
  /-- A `\u` escape: one 16-bit unit. -/
  | unit (n : Nat)
  | broken (bytes : List UInt8)
  deriving DecidableEq, Repr

/-- A string, and what cut it short. -/
structure RawText where
  marks : List Mark
  stop : Option Fault
  deriving DecidableEq, Repr

inductive Raw where
  | null
  | bool (b : Bool)
  | number (n : Numeral)
  /-- The text ends inside a number. -/
  | cutNumber
  | text (t : RawText)
  | array (items : List Raw) (stop : Option Fault)
  | object (members : List (RawText × Raw)) (stop : Option Fault)
  | fault (f : Fault)
  deriving Repr

namespace Raw

def isSpace (c : Char) : Bool := c == ' ' || c == '\n' || c == '\t' || c == '\r'

def skip : List Piece → List Piece
  | .char c :: rest => if isSpace c then skip rest else .char c :: rest
  | s => s

def hexValue? (c : Char) : Option Nat :=
  if c.isDigit then some (c.toNat - '0'.toNat)
  else if 'a' ≤ c ∧ c ≤ 'f' then some (c.toNat - 'a'.toNat + 10)
  else if 'A' ≤ c ∧ c ≤ 'F' then some (c.toNat - 'A'.toNat + 10)
  else none

def unit? (a b c d : Char) : Option Nat := do
  return (((← hexValue? a) * 16 + (← hexValue? b)) * 16 + (← hexValue? c)) * 16 + (← hexValue? d)

def escape? : Char → Option Char
  | '"' => some '"'
  | '\\' => some '\\'
  | '/' => some '/'
  | 'b' => some (Char.ofNat 8)
  | 'f' => some (Char.ofNat 12)
  | 'n' => some '\n'
  | 'r' => some '\r'
  | 't' => some '\t'
  | _ => none

def byteCount (s : List Piece) : Nat := (s.flatMap fun p => p.bytes).length

/-- The rest of a string after its opening quote. -/
def readText (acc : List Mark) : List Piece → RawText × List Piece
  | [] => (⟨acc.reverse, some .truncated⟩, [])
  | .char '"' :: rest => (⟨acc.reverse, none⟩, rest)
  | .char '\\' :: .char 'u' :: .char a :: .char b :: .char c :: .char d :: rest =>
    match unit? a b c d with
    | some n => readText (.unit n :: acc) rest
    | none => (⟨acc.reverse, some .malformed⟩, [])
  | .char '\\' :: .char 'u' :: rest =>
    (⟨acc.reverse, some (if byteCount rest < 4 then .truncated else .malformed)⟩, [])
  | .char '\\' :: .char e :: rest =>
    match escape? e with
    | some c => readText (.char c :: acc) rest
    | none => (⟨acc.reverse, some .malformed⟩, [])
  | [.char '\\'] => (⟨acc.reverse, some .truncated⟩, [])
  | .char '\\' :: .broken _ :: _ => (⟨acc.reverse, some .malformed⟩, [])
  | .char c :: rest =>
    if c.toNat < 0x20 then (⟨acc.reverse, some .malformed⟩, [])
    else readText (.char c :: acc) rest
  | .broken bytes :: rest => readText (.broken bytes :: acc) rest

def takeDigits : List Piece → List Char × List Piece
  | .char c :: rest =>
    if c.isDigit then ((c :: (takeDigits rest).1), (takeDigits rest).2) else ([], .char c :: rest)
  | s => ([], s)

/-- A number that lacks a digit here. -/
def lacksDigit (s : List Piece) : Raw × List Piece :=
  (if s.isEmpty then .cutNumber else .fault .malformed, [])

def readExponent (n : Numeral) (s : List Piece) : Raw × List Piece :=
  let mark : Option (List Piece) := match s with
    | .char 'e' :: rest => some rest
    | .char 'E' :: rest => some rest
    | _ => none
  match mark with
  | none => (.number n, s)
  | some rest =>
    let (positive, rest) := match rest with
      | .char '+' :: rest => (true, rest)
      | .char '-' :: rest => (false, rest)
      | _ => (true, rest)
    match takeDigits rest with
    | ([], rest) => lacksDigit rest
    | (digits, rest) => (.number { n with exponent := some (positive, digits) }, rest)

def readFraction (n : Numeral) : List Piece → Raw × List Piece
  | .char '.' :: rest => match takeDigits rest with
    | ([], rest) => lacksDigit rest
    | (digits, rest) => readExponent { n with fraction := some digits } rest
  | s => readExponent n s

/-- A number from its first digit on. No digit may follow a leading zero. -/
def readNumber (negative : Bool) (s : List Piece) : Raw × List Piece :=
  match takeDigits s with
  | ([], rest) => lacksDigit rest
  | ('0' :: _ :: _, _) => (.fault .malformed, [])
  | (digits, rest) => readFraction ⟨negative, digits, none, none⟩ rest

/-- The rest of a literal name. -/
def readWord (v : Raw) : List Char → List Piece → Raw × List Piece
  | [], s => (v, s)
  | _ :: _, [] => (.fault .truncated, [])
  | c :: more, p :: rest => if p = .char c then readWord v more rest else (.fault .malformed, [])

mutual
/-- Reads one value; `fuel` bounds the nesting and the number of elements together. -/
def readValue (fuel : Nat) (s : List Piece) : Raw × List Piece :=
  match fuel with
  | 0 => (.fault .malformed, [])
  | fuel + 1 => match skip s with
    | [] => (.fault .truncated, [])
    | .broken _ :: _ => (.fault .malformed, [])
    | .char c :: rest => match c with
      | 'n' => readWord .null ['u', 'l', 'l'] rest
      | 't' => readWord (.bool true) ['r', 'u', 'e'] rest
      | 'f' => readWord (.bool false) ['a', 'l', 's', 'e'] rest
      | '"' => let (t, rest) := readText [] rest; (.text t, rest)
      | '-' => readNumber true rest
      | '[' => readItems fuel [] rest
      | '\x7b' => readMembers fuel [] rest
      | c => if c.isDigit then readNumber false (.char c :: rest) else (.fault .malformed, [])

/-- The rest of an array; `acc` holds the items read, the last one first. -/
def readItems (fuel : Nat) (acc : List Raw) (s : List Piece) : Raw × List Piece :=
  match fuel with
  | 0 => (.array acc.reverse (some .malformed), [])
  | fuel + 1 => match skip s with
    | [] => (.array acc.reverse (some .truncated), [])
    | .char ']' :: rest => (.array acc.reverse none, rest)
    | .char ',' :: rest =>
      if acc.isEmpty then (.array [] (some .malformed), [])
      else let (v, rest) := readValue fuel rest; readItems fuel (v :: acc) rest
    | s =>
      if acc.isEmpty then let (v, rest) := readValue fuel s; readItems fuel [v] rest
      else (.array acc.reverse (some .malformed), [])

def readMembers (fuel : Nat) (acc : List (RawText × Raw)) (s : List Piece) : Raw × List Piece :=
  match fuel with
  | 0 => (.object acc.reverse (some .malformed), [])
  | fuel + 1 => match skip s with
    | [] => (.object acc.reverse (some .truncated), [])
    | .char '\x7d' :: rest => (.object acc.reverse none, rest)
    | s =>
      let next : Option (List Piece) :=
        if acc.isEmpty then some s
        else match s with
          | .char ',' :: rest => some (skip rest)
          | _ => none
      match next with
      | some [] => (.object acc.reverse (some .truncated), [])
      | some (.char '"' :: rest) =>
        let (name, rest) := readText [] rest
        match skip rest with
        | [] => (.object ((name, .fault .truncated) :: acc).reverse none, [])
        | .char ':' :: rest =>
          let (v, rest) := readValue fuel rest
          readMembers fuel ((name, v) :: acc) rest
        | _ => (.object ((name, .fault .malformed) :: acc).reverse none, [])
      | _ => (.object acc.reverse (some .malformed), [])
end

end Raw

/-- A whole document, and whether something other than blanks follows its value. -/
structure Document where
  value : Raw
  trailing : Bool

/-- Every step down or along uses up at least half a character, which bounds the fuel. -/
def Document.read (bytes : List UInt8) : Document :=
  let s := Utf8.decode bytes
  let (v, rest) := Raw.readValue (2 * s.length + 2) s
  ⟨v, !(Raw.skip rest).isEmpty⟩

end NpuRuntime.Json
