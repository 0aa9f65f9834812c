import NpuRuntime.Proofs.Query.Asking
import NpuRuntime.Slice.Basic

/-! # Slices that were made
The slices of a run are those for which the driver answered that they were made. Splitting a device
hands over exactly what it made, also when the session around it ends badly. -/
namespace NpuRuntime

open Query

variable {σ ω : Type} {svc : Service σ}

namespace Query

/-- The slice that an answered call made. -/
def Event.slice? : Event → Option Slice
  | ⟨.create card device _, .ok slice⟩ => some ⟨card, device, slice⟩
  | _ => none

theorem Event.slice?_of_isCreate {e : Event} (he : e.call.isCreate = false) : e.slice? = none := by
  obtain ⟨c, result⟩ := e
  cases c <;> first | rfl | cases he

theorem Event.slice?_create (card device : Int) (template : String) (result : Except Fault Nat) :
    Event.slice? ⟨.create card device template, result⟩ =
      result.toOption.map (Slice.mk card device) := by
  cases result <;> rfl

/-- The slices that the driver made in a run, in order. -/
def Run.slices (r : Run σ ω) : List Slice := r.trace.filterMap Event.slice?

@[simp] theorem slices_noted (r : Run σ ω) (ls : List Record) : (r.noted ls).slices = r.slices :=
  rfl

theorem slices_answered (svc : Service σ) (r : Run σ ω) (c : Call) : (r.answered svc c).slices =
    r.slices ++ (Event.slice? ⟨c, (svc.respond c r.memory).1.result⟩).toList := by
  rw [Run.slices, trace_answered, List.filterMap_append, Run.slices]
  cases he : Event.slice? ⟨c, (svc.respond c r.memory).1.result⟩ <;> simp [he]

theorem slices_answered_of_isCreate (svc : Service σ) (r : Run σ ω) {c : Call}
    (hc : c.isCreate = false) : (r.answered svc c).slices = r.slices := by
  rw [slices_answered, Event.slice?_of_isCreate hc]
  simp

/-- Calls that make no slice leave the slices as they were. -/
theorem slices_of_calls {r q : Run σ ω}
    (h : (Frame.calls fun c => c.isCreate = false).Holds r q) : q.slices = r.slices := by
  obtain ⟨made, ht, hm⟩ := h
  have hn : made.filterMap Event.slice? = [] :=
    List.filterMap_eq_nil_iff.mpr fun e he => Event.slice?_of_isCreate (hm e he)
  rw [Run.slices, ht, List.filterMap_append, hn, List.append_nil, Run.slices]

end Query

namespace Slice

/-- Splitting hands over what it made. -/
theorem slices_split (q : Request) (r : Run σ ω) : (outcome (split svc q) r).2.slices =
    r.slices ++ (outcome (split svc q) r).1.toOption.toList := by
  have hf := Asks.within (F := Frame.calls fun c => c.isCreate = false)
    (fun _ hc => Frame.admits_calls svc (Call.isCreate_of_isQuestion hc))
    (Asks.findDevice q.physical : Asks svc (findDevice svc q.physical : Act σ ω Fault _)) r
  have hs := slices_of_calls hf
  unfold split
  rw [outcome_bind]
  generalize outcome (findDevice svc q.physical) r = o at hs ⊢
  rcases o with ⟨f | ⟨card, device⟩, t⟩
  · simp [hs, Except.toOption]
  · have ha := slices_answered svc t (.create card device q.template)
    have hw := outcome_ask (ω := ω) svc (.create card device q.template) t
    rw [Event.slice?_create] at ha
    dsimp only at hs ⊢
    rw [outcome_bind, hw]
    cases hr : (svc.respond (.create card device q.template) t.memory).1.result with
    | error f => simpa [hr, hs, Except.toOption] using ha
    | ok slice =>
      simp only [outcome_bind, outcome_note, outcome_pure, slices_noted]
      simpa [hr, hs, Except.toOption] using ha

/-- So does its session. -/
theorem slices_create (svc : Service σ) (q : Request) (r : Run σ ω) :
    (outcome (create svc q) r).2.slices =
      r.slices ++ (outcome (create svc q) r).1.toOption.toList := by
  unfold create
  rw [outcome_withSession]
  have hs := slices_answered_of_isCreate svc r (rfl : Call.start.isCreate = false)
  split
  · simp [hs, Except.toOption]
  · rw [slices_noted, slices_answered_of_isCreate _ _ rfl, slices_split, slices_noted, hs]

/-- What is being worked on does not change. -/
theorem work_create (svc : Service σ) (q : Request) (r : Run σ ω) :
    (outcome (create svc q) r).2.work = r.work := by
  have admits (c : Call) : (Frame.still (σ := σ) (ω := ω)).Admits svc c := Frame.admits_work svc c
  have within : Frame.still.Within (create svc q : Act σ ω Fault Slice) := by
    refine Frame.Within.withSession (admits _) (admits _) ?_
    refine ((Asks.findDevice q.physical).within fun c _ => admits c).bind fun place => ?_
    exact (Frame.within_ask (admits _)).bind fun _ => (Frame.within_note _).bind fun _ =>
      Frame.within_pure _
  exact (within r).symm

end Slice

end NpuRuntime
