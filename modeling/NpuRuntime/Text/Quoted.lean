import NpuRuntime.Text.Hidden
import NpuRuntime.Text.Utf8

/-! # Quoted text
Text between double quotes, with the characters that would mislead a reader written as escapes. -/
namespace NpuRuntime.Text

def hexDigits (n : Nat) : List Char := Nat.toDigits 16 n

def quoteChar (c : Char) : List Char :=
  match c with
  | '"' => ['\\', '"']
  | '\\' => ['\\', '\\']
  | '\n' => ['\\', 'n']
  | '\r' => ['\\', 'r']
  | '\t' => ['\\', 't']
  | _ =>
    if c.toNat = 0 then ['\\', '0']
    else if isHidden c then '\\' :: 'u' :: '\x7b' :: hexDigits c.toNat ++ ['\x7d']
    else [c]

def quoted (s : String) : String :=
  String.ofList ('"' :: s.toList.flatMap quoteChar ++ ['"'])

def quotedList (xs : List String) : String :=
  "[" ++ String.intercalate ", " (xs.map quoted) ++ "]"

def quotedByte (b : UInt8) : List Char :=
  let digits := (hexDigits b.toNat).map Char.toUpper
  '\\' :: 'x' :: if digits.length < 2 then '0' :: digits else digits

/-- Text that may hold broken characters: their bytes are written in hexadecimal. -/
def quotedBytes (bytes : List UInt8) : String :=
  let body := (Utf8.decode bytes).flatMap fun
    | .char c => quoteChar c
    | .broken bs => bs.flatMap quotedByte
  String.ofList ('"' :: body ++ ['"'])

end NpuRuntime.Text
