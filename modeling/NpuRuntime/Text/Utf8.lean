/-! # UTF-8
Bytes are read one at a time. A character that breaks off is kept as the bytes that could still
have begun one, so that reading loses nothing: strict and lenient readings differ only in what
they make of those bytes. -/
namespace NpuRuntime.Utf8

inductive Piece where
  | char (c : Char)
  | broken (bytes : List UInt8)
  deriving DecidableEq, Repr

/-- A character under way: `owed` bytes are missing, and the next lies in `low … high`. -/
structure Pending where
  owed : Nat
  low : Nat
  high : Nat
  value : Nat
  taken : List UInt8
  deriving DecidableEq, Repr

/-- Pieces read so far, the last one first, and the character under way. -/
structure Reading where
  pieces : List Piece
  pending : Option Pending
  deriving DecidableEq, Repr

def start : Reading := ⟨[], none⟩

/-- A byte with no character under way. -/
def lead (ps : List Piece) (b : UInt8) : Reading :=
  let n := b.toNat
  let opened (owed low high value : Nat) : Reading := ⟨ps, some ⟨owed, low, high, value, [b]⟩⟩
  if n < 0x80 then ⟨.char (Char.ofNat n) :: ps, none⟩
  else if n < 0xc2 then ⟨.broken [b] :: ps, none⟩
  else if n < 0xe0 then opened 1 0x80 0xbf (n - 0xc0)
  else if n = 0xe0 then opened 2 0xa0 0xbf 0
  else if n = 0xed then opened 2 0x80 0x9f 0xd
  else if n < 0xf0 then opened 2 0x80 0xbf (n - 0xe0)
  else if n = 0xf0 then opened 3 0x90 0xbf 0
  else if n < 0xf4 then opened 3 0x80 0xbf (n - 0xf0)
  else if n = 0xf4 then opened 3 0x80 0x8f 4
  else ⟨.broken [b] :: ps, none⟩

def push (r : Reading) (b : UInt8) : Reading :=
  match r.pending with
  | none => lead r.pieces b
  | some p =>
    if p.low ≤ b.toNat ∧ b.toNat ≤ p.high then
      let value := p.value * 64 + (b.toNat - 0x80)
      if p.owed ≤ 1 then ⟨.char (Char.ofNat value) :: r.pieces, none⟩
      else ⟨r.pieces, some ⟨p.owed - 1, 0x80, 0xbf, value, b :: p.taken⟩⟩
    else lead (.broken p.taken.reverse :: r.pieces) b

def finish (r : Reading) : List Piece :=
  match r.pending with
  | none => r.pieces.reverse
  | some p => (.broken p.taken.reverse :: r.pieces).reverse

def decode (bytes : List UInt8) : List Piece := finish (bytes.foldl push start)

def encode (cs : List Char) : List UInt8 := cs.flatMap String.utf8EncodeChar

def Piece.char? : Piece → Option Char
  | .char c => some c
  | .broken _ => none

/-- Each broken part is replaced by one character. -/
def Piece.orElse (c : Char) : Piece → Char
  | .char d => d
  | .broken _ => c

def Piece.bytes : Piece → List UInt8
  | .char c => String.utf8EncodeChar c
  | .broken bs => bs

/-- The text that `bytes` spell, if every one of them belongs to a character. -/
def text? (bytes : List UInt8) : Option String :=
  ((decode bytes).mapM Piece.char?).map String.ofList

/-- The text of `bytes` with U+FFFD in each broken place. -/
def lenient (bytes : List UInt8) : String :=
  String.ofList ((decode bytes).map (Piece.orElse (Char.ofNat 0xfffd)))

def bytesOf (s : String) : List UInt8 := encode s.toList

end NpuRuntime.Utf8
