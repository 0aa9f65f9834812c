import NpuRuntime.Query.Basic

/-! # A service with written answers
Replies are looked up by function and arguments. Which reply of a sequence comes next depends only
on how often that function was asked with the same arguments. -/
namespace NpuRuntime.Query.Scripted

inductive Value where
  | nothing
  | ids (list : List Int)
  | number (n : Int)
  | text (s : String)
  | chip (c : ChipInfo)
  deriving DecidableEq, Repr

inductive Reply where
  | value (v : Value)
  | status (code : Int)
  | badValue (n : Int)
  | absent (words : String)
  /-- The argument plus a number, in 32 bits. -/
  | offset (n : Int)
  deriving DecidableEq, Repr

/-- Replies of one function by argument key; the key `*` stands for all others. The replies of a
key are given one after the other, and the last one stays. -/
abbrev Replies := List (String × List Reply)

structure Script where
  replies : Entry → Replies

def defaultReplies (e : Entry) : Replies :=
  let one (v : Value) : Replies := [("*", [.value v])]
  match e with
  | .start | .destroy => one .nothing
  | .cardList => one (.ids [0])
  | .deviceCount => one (.number 1)
  | .logicId => one (.number 0)
  | .logicIdOf => [("*", [.offset 0])]
  | .create => one (.number 100)
  | .productType => one (.text "")
  | .chipInfo => one (.chip ⟨"Ascend", "910B", ""⟩)

/-- The status of a call that no reply fits. -/
def unwritten : Int := -8001

def entry? : Call → Option Entry
  | .start => some .start
  | .shutdown => none
  | .cardList => some .cardList
  | .deviceCount _ => some .deviceCount
  | .logicId .. => some .logicId
  | .logicIdOf _ => some .logicIdOf
  | .create .. => some .create
  | .destroy .. => some .destroy
  | .productType .. => some .productType
  | .chipInfo .. => some .chipInfo

def arguments : Call → List Int
  | .start | .shutdown | .cardList => []
  | .deviceCount c => [c]
  | .logicIdOf p => [p]
  | .logicId c d | .create c d _ | .productType c d | .chipInfo c d => [c, d]
  | .destroy c d s => [c, d, s]

def key (c : Call) : String := Text.join ',' ((arguments c).map toString)

/-- How often each function was asked with each key. -/
abbrev Counts := List ((Entry × String) × Nat)

def count (counts : Counts) (k : Entry × String) : Nat :=
  ((counts.find? fun c => c.1 == k).map Prod.snd).getD 0

def bump (counts : Counts) (k : Entry × String) : Counts :=
  (k, count counts k + 1) :: counts.filter fun c => c.1 != k

/-- The reply to the `n`-th of several equal questions, counted from 0. -/
def pick (replies : List Reply) (n : Nat) : Reply :=
  (replies[min n (replies.length - 1)]?).getD (.status unwritten)

def word (n : Int) : Nat := (n % UInt32.size).toNat

/-- The answer that a value gives to a call, if it is one. -/
def answer? : (c : Call) → Value → Option c.Answer
  | .start, .nothing => some ()
  | .destroy .., .nothing => some ()
  | .cardList, .ids list => some list
  | .deviceCount _, .number n => some n
  | .logicId .., .number n => some (Int32.ofInt n)
  | .logicIdOf _, .number n => some (word n)
  | .create .., .number n => some (word n)
  | .productType .., .text s => some s
  | .chipInfo .., .chip c => some c
  | _, _ => none

def resolve (c : Call) (e : Entry) : Reply → Except Fault c.Answer
  | .value v => match answer? c v with
    | some a => .ok a
    | none => .error (.driverStatus e unwritten)
  | .status code => .error (.driverStatus e code)
  | .badValue n => .error (.driverValue e n)
  | .absent words => .error (.driverAbsent (.loader (some words)))
  | .offset n => match answer? c (.number ((arguments c).headD 0 + n)) with
    | some a => .ok a
    | none => .error (.driverStatus e unwritten)

def lookUp (replies : Replies) (k : String) : List Reply :=
  match replies.find? (·.1 == k) with
  | some r => r.2
  | none => ((replies.find? (·.1 == "*")).map Prod.snd).getD []

def service (script : Script) : Service Counts where
  respond c counts :=
    match c with
    | .shutdown => ({ result := .ok () }, counts)
    | c => match entry? c with
      | none => ({ result := .error (.driverStatus .start unwritten) }, counts)
      | some e =>
        let k := key c
        let reply := pick (lookUp (script.replies e) k) (count counts (e, k))
        ({ result := resolve c e reply }, bump counts (e, k))

theorem pick_singleton (r : Reply) (n : Nat) : pick [r] n = r := by simp [pick]

end NpuRuntime.Query.Scripted
