import NpuRuntime.Failure
import NpuRuntime.Slice.Basic

/-! # Freeing a slice from the command line -/
namespace NpuRuntime.Slice

open Query

def maxId : Nat := 65535

def argumentCount : Nat := 3

/-- An id in plain digits. A number that does not fit in 32 bits fails to be read at all. -/
def readId (arg : String) : Except Failure Nat :=
  match Text.natural? arg with
  | none => .error (.of (.badId arg))
  | some n =>
    if n ≥ UInt32.size then .error ⟨[.readingId arg], .numberTooLarge⟩
    else if n > maxId then .error (.of (.idTooLarge n maxId))
    else .ok n

/-- The slice that a command line names, program name first. -/
def ofArguments (argv : List String) : Except Failure Slice :=
  match argv.drop 1 with
  | [card, device, slice] => do
    let card ← readId card
    let device ← readId device
    let slice ← readId slice
    return ⟨card, device, slice⟩
  | ids => .error (.of (.argumentCount argumentCount ids.length))

def runDestruction {σ ω : Type} (svc : Service σ) (argv : List String) : Act σ ω Failure Unit := do
  let s ← MonadExcept.ofExcept (ofArguments argv)
  mapFailure (fun f => (Failure.ofFault f).within (.destroyingSlice s.slice)) (destroy svc s)

end NpuRuntime.Slice
