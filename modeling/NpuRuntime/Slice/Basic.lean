import NpuRuntime.Query.Search
import NpuRuntime.Slice.Request

/-! # Slices
Splitting a physical device, and freeing the slice again. Each is one driver session. -/
namespace NpuRuntime

open Query

structure Slice where
  card : Int
  device : Int
  slice : Nat
  deriving DecidableEq, Repr

namespace Slice

variable {σ ω : Type}

/-- The arguments by which the helper that frees it finds a slice. -/
def arguments (s : Slice) : List String :=
  [toString s.card, toString s.device, toString s.slice]

def split (svc : Service σ) (r : Request) : Act σ ω Fault Slice := do
  let (card, device) ← findDevice svc r.physical
  let slice ← ask svc (.create card device r.template)
  note ⟨.info, .slices, s!"vnpu split done: phy {r.physical} card {card} device {device} " ++
    s!"template {r.template} vdevice {slice}"⟩
  return ⟨card, device, slice⟩

def create (svc : Service σ) (r : Request) : Act σ ω Fault Slice :=
  withSession svc id (split svc r)

def free (svc : Service σ) (s : Slice) : Act σ ω Fault Unit := do
  ask svc (.destroy s.card s.device s.slice)
  note ⟨.info, .slices, s!"vdevice {s.slice} destroyed on card {s.card} device {s.device}"⟩

def destroy (svc : Service σ) (s : Slice) : Act σ ω Fault Unit := withSession svc id (free svc s)

end Slice

end NpuRuntime
