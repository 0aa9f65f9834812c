import NpuRuntime.Json.Raw

/-! # Reading typed values out of JSON text
Readers go through a tree in the order of the text and report the first thing that is wrong. -/
namespace NpuRuntime.Json

/-- Arrays and objects nest at most this deep. -/
def maxDepth : Nat := 127

namespace RawText

/-- The bytes that marks spell. A high surrogate must be followed by a low one. -/
def spell (stop : Option Fault) (acc : List UInt8) : List Mark → Except Fault (List UInt8)
  | [] => match stop with
    | some f => .error f
    | none => .ok acc.reverse
  | .char c :: rest => spell stop ((Utf8.encode [c]).reverse ++ acc) rest
  | .broken bytes :: rest => spell stop (bytes.reverse ++ acc) rest
  | .unit n :: rest =>
    if 0xdc00 ≤ n ∧ n ≤ 0xdfff then .error .malformed
    else if 0xd800 ≤ n ∧ n ≤ 0xdbff then
      match rest with
      | .unit low :: rest =>
        if 0xdc00 ≤ low ∧ low ≤ 0xdfff then
          let c := Char.ofNat (0x10000 + (n - 0xd800) * 1024 + (low - 0xdc00))
          spell stop ((Utf8.encode [c]).reverse ++ acc) rest
        else .error .malformed
      | [] => .error (stop.getD .malformed)
      | _ => .error .malformed
    else spell stop ((Utf8.encode [Char.ofNat n]).reverse ++ acc) rest

/-- The text, once it has been read to its end and is valid UTF-8. -/
def read (t : RawText) : Except Fault String := do
  match Utf8.text? (← spell t.stop [] t.marks) with
  | some s => return s
  | none => throw .malformed

end RawText

namespace Raw

mutual
/-- A value that is kept as it is; `depth` levels may be opened. -/
def toJson (depth : Nat) : Raw → Except Fault Json
  | .null => .ok .null
  | .bool b => .ok (.bool b)
  | .number n => match n.value? with
    | some v => .ok (.number v)
    | none => .error .malformed
  | .cutNumber => .error .truncated
  | .text t => return .string (← t.read)
  | .fault f => .error f
  | .array items stop =>
    match depth with
    | 0 => .error .malformed
    | depth + 1 => do
      let vs ← itemsToJson depth items
      match stop with
      | some f => throw f
      | none => return .array vs
  | .object members stop =>
    match depth with
    | 0 => .error .malformed
    | depth + 1 => do
      let ms ← membersToJson depth [] members
      match stop with
      | some f => throw f
      | none => return .object ms

def itemsToJson (depth : Nat) : List Raw → Except Fault (List Json)
  | [] => .ok []
  | v :: rest => do
    let v ← toJson depth v
    return v :: (← itemsToJson depth rest)

def membersToJson (depth : Nat) (acc : Members) : List (RawText × Raw) → Except Fault Members
  | [] => .ok acc
  | (name, v) :: rest => do
    let name ← name.read
    let v ← toJson depth v
    membersToJson depth (put acc name v) rest
end

mutual
/-- Checks a value that nobody keeps: it must be well formed, and no more than that. -/
def pass : Raw → Except Fault Unit
  | .null | .bool _ | .number _ => .ok ()
  | .cutNumber => .error .malformed
  | .text t => match t.stop with
    | some f => .error f
    | none => .ok ()
  | .fault f => .error f
  | .array items stop => do
    passItems items
    match stop with
    | some f => throw f
    | none => return
  | .object members stop => do
    passMembers members
    match stop with
    | some f => throw f
    | none => return

def passItems : List Raw → Except Fault Unit
  | [] => .ok ()
  | v :: rest => do
    pass v
    passItems rest

def passMembers : List (RawText × Raw) → Except Fault Unit
  | [] => .ok ()
  | (name, v) :: rest => do
    match name.stop with
    | some f => throw f
    | none => pure ()
    pass v
    passMembers rest
end

/-- What is wrong with a value of an unwanted kind. Text and numbers are read before their kind
shows. -/
def misfit : Raw → Fault
  | .fault f => f
  | .cutNumber => .truncated
  | .number n => if n.value?.isSome then .misshapen else .malformed
  | .text t => match t.read with
    | .error f => f
    | .ok _ => .misshapen
  | _ => .misshapen

def toText : Raw → Except Fault String
  | .text t => t.read
  | v => .error v.misfit

def toBool : Raw → Except Fault Bool
  | .bool b => .ok b
  | v => .error v.misfit

/-- A whole number of `low … high`. -/
def toInt (low high : Int) : Raw → Except Fault Int
  | .number n => match n.value? with
    | some (.int i) => if low ≤ i ∧ i ≤ high then .ok i else .error .misshapen
    | some (.double _) => .error .misshapen
    | none => .error .malformed
  | v => .error v.misfit

def toNat (most : Nat) (v : Raw) : Except Fault Nat := return (← v.toInt 0 most).toNat

/-- Null stands for nothing. -/
def toOption {α : Type} (f : Raw → Except Fault α) : Raw → Except Fault (Option α)
  | .null => .ok none
  | v => some <$> f v

def toList {α : Type} (depth : Nat) (one : Nat → Raw → Except Fault α) :
    Raw → Except Fault (List α)
  | .array items stop =>
    match depth with
    | 0 => .error .malformed
    | depth + 1 => do
      let xs ← items.mapM (one depth)
      match stop with
      | some f => throw f
      | none => return xs
  | v => .error v.misfit

/-- The names of a record's fields. -/
structure Shape where
  required : List String
  optional : List String

def Shape.knows (s : Shape) (name : String) : Bool :=
  s.required.contains name || s.optional.contains name

/-- Members in the order of the text. A known name may come once, and a required one must come. -/
def eachMember {α : Type} (shape : Shape) (take : String → Raw → α → Except Fault α)
    (stop : Option Fault) (seen : List String) (acc : α) :
    List (RawText × Raw) → Except Fault α
  | [] => match stop with
    | some f => .error f
    | none => if shape.required.all seen.contains then .ok acc else .error .misshapen
  | (name, v) :: rest => do
    let name ← name.read
    if shape.knows name && seen.contains name then throw .misshapen
    let acc ← take name v acc
    eachMember shape take stop (name :: seen) acc rest

/-- An object read into a record: `take` stores one member. -/
def toRecord {α : Type} (depth : Nat) (shape : Shape)
    (take : Nat → String → Raw → α → Except Fault α) (init : α) : Raw → Except Fault α
  | .object members stop =>
    match depth with
    | 0 => .error .malformed
    | depth + 1 => eachMember shape (take depth) stop [] init members
  | v => .error v.misfit

end Raw

/-- Reads a whole document with `f`. -/
def readDocument {α : Type} (f : Raw → Except Fault α) (bytes : List UInt8) : Except Fault α := do
  let d := Document.read bytes
  let a ← f d.value
  if d.trailing then throw .malformed
  return a

/-- Reads a whole document as a plain value. -/
def ofBytes (bytes : List UInt8) : Except Fault Json := readDocument (Raw.toJson maxDepth) bytes

end NpuRuntime.Json
