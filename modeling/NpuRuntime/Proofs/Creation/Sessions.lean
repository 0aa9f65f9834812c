import NpuRuntime.Proofs.Creation.Adding
import NpuRuntime.Proofs.Creation.Writing
import NpuRuntime.Proofs.Query.Sessions
import NpuRuntime.Proofs.Slice.Freed

/-! # Calls stand in sessions
A preparation opens up to two sessions, one to split a device and one to list the nodes that manage
the devices; freeing a slice opens one. Wherever these stop, a session that was opened is closed,
and no call is made outside of one. -/
namespace NpuRuntime.Query

variable {σ ω : Type} {svc : Service σ}

theorem inner_split (q : Slice.Request) : (inner svc : Frame σ ω).Within (Slice.split svc q) := by
  refine (Asks.findDevice q.physical).inner.bind fun ⟨card, device⟩ => ?_
  exact (Frame.within_ask (admits_inner rfl)).bind fun _ =>
    (Frame.within_note _).bind fun _ => Frame.within_pure _

theorem sessions_create (q : Slice.Request) :
    (sessions svc : Frame σ ω).Within (Slice.create svc q) := within_sessions (inner_split q)

theorem inner_free (slice : Slice) : (inner svc : Frame σ ω).Within (Slice.free svc slice) :=
  (Frame.within_ask (admits_inner rfl)).bind fun _ => Frame.within_note _

theorem sessions_destroy (slice : Slice) :
    (sessions svc : Frame σ ω).Within (Slice.destroy svc slice) :=
  within_sessions (inner_free slice)

theorem sessions_runDestruction (argv : List String) :
    (sessions svc : Frame σ ω).Within (Slice.runDestruction svc argv) :=
  (Frame.within_ofExcept _).bind fun slice => (sessions_destroy slice).mapFailure _

end NpuRuntime.Query

namespace NpuRuntime.Creation

open Query NpuRuntime.Bundle

variable {σ : Type} {h : Host} {s : Settings} {svc : Service σ}

theorem spans_inner : Spans (inner svc) h svc where
  device r _ _ := (inner svc).refl r
  question _ hc := admits_inner (Call.isInner_of_isQuestion hc)

theorem sessions_addHook : (sessions svc).Within (addHook h s : Edit σ Unit) := by
  intro r
  obtain ⟨f, hf⟩ | ⟨_, ls, _, hr⟩ := addHook_cases h s r
  · rw [hf]
    exact (sessions svc).refl r
  · rw [hr]
    exact (sessions svc).noted r ls

theorem sessions_addSliceTo (slice : Slice) :
    (sessions svc).Within (addSliceTo s slice : Edit σ Unit) := by
  intro r
  obtain ⟨ls, hr⟩ := outcome_addSliceTo (s := s) slice r
  rw [hr]
  exact (sessions svc).noted r ls

theorem sessions_addSlice : (sessions svc).Within (addSlice h s svc) := by
  intro r
  rw [outcome_addSlice]
  split
  · exact (sessions svc).refl r
  · exact (sessions svc).refl r
  · exact ((sessions_create _).mapFailure _).bind (fun slice => sessions_addSliceTo slice) r

theorem sessions_addDevices : (sessions svc).Within (addDevices h s svc) :=
  within_addDevices (fun r _ _ => (sessions svc).refl r)
    (within_sessions spans_inner.addChipNodes)

theorem sessions_checkCount (what : Counted) (count : Nat) :
    (sessions svc).Within (checkCount what count : Edit σ Unit) := by
  unfold checkCount
  split
  · exact Frame.within_throw _
  · exact Frame.within_pure _

theorem sessions_mutate : (sessions svc).Within (mutate h s svc) :=
  sessions_addHook.bind fun _ => Frame.within_current.bind fun _ =>
    (sessions_checkCount _ _).bind fun _ => (sessions_addSlice.mapFailure _).bind fun _ =>
      (sessions_addDevices.mapFailure _).bind fun _ => (sessions svc).refl

theorem sessions_changeAt (file : Path) : (sessions svc).Within (changeAt s svc file) := by
  intro r
  rw [outcome_changeAt]
  cases Spec.load r.work file with
  | error f => exact (sessions svc).refl r
  | ok spec =>
    have hm : InSessions svc r (outcome (mutate r.work s svc) (r.over spec)).2 :=
      sessions_mutate (r.over spec)
    dsimp only
    generalize outcome (mutate r.work s svc) (r.over spec) = o at hm ⊢
    -- The run goes on with the host in hand again, and its calls stay as they are.
    rcases o with ⟨f | ⟨⟩, q⟩
    · exact hm
    · dsimp only
      cases r.work.writable (Route.ofPath file) with
      | error e => exact hm
      | ok target => exact hm

theorem sessions_change (file : String) : (sessions svc).Within (change s svc file) :=
  Frame.within_current.bind fun _ => (Frame.within_ofExcept _).bind sessions_changeAt

theorem sessions_prepare (argv : List String) : (sessions svc).Within (prepare s svc argv) := by
  intro r
  rw [outcome_prepare]
  rcases documentOf r.work argv with f | _ | file
  · exact (sessions svc).refl r
  · exact (sessions svc).noted r _
  · have hc : InSessions svc r (outcome (change s svc file) r).2 := sessions_change file r
    dsimp only
    generalize outcome (change s svc file) r = o at hc ⊢
    rcases o with ⟨f | ⟨⟩, q⟩
    · exact hc
    · exact hc

/-- Every call of a preparation, and of the freeing of a slice, stands in a session of its own that
is closed again, or is a start that failed: for every driver, every host and every command line,
and whether the run succeeds or fails. -/
theorem calls_in_sessions (svc : Service σ) :
    (∀ (s : Settings) (argv : List String) (r : Run σ Host),
      InSessions svc r (outcome (prepare s svc argv) r).2) ∧
    ∀ {ω : Type} (argv : List String) (r : Run σ ω),
      InSessions svc r (outcome (Slice.runDestruction svc argv) r).2 :=
  ⟨fun _ argv r => sessions_prepare argv r, fun argv r => sessions_runDestruction argv r⟩

end NpuRuntime.Creation
