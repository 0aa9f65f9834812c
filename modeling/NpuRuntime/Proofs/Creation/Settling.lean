import NpuRuntime.Creation.Mutation
import NpuRuntime.Proofs.Bundle.Document
import NpuRuntime.Proofs.Environment.Laws
import NpuRuntime.Proofs.Query.Asking

/-! # Steps that settle
A document keeps what a step looks for while devices are added to it. A step settles when it keeps
all that and, once it has succeeded, only finds its own work done. -/
namespace NpuRuntime.Creation

open Query NpuRuntime.Bundle

variable {σ ε ε' α β : Type} {svc : Service σ}

/-- All that a step looks for in the first document stands in the second. -/
structure Keeps (u w : Spec) : Prop where
  visible : Environment.get? w.env Environment.visibleDevices =
    Environment.get? u.env Environment.visibleDevices
  options : Environment.get? w.env Environment.runtimeOptions =
    Environment.get? u.env Environment.runtimeOptions
  template : Environment.get? w.env Environment.sliceTemplate =
    Environment.get? u.env Environment.sliceTemplate
  prestart : w.prestart = u.prestart
  devices : ∀ path, u.hasDevice path = true → w.hasDevice path = true

namespace Keeps

variable {u v w : Spec}

theorem refl (w : Spec) : Keeps w w := ⟨rfl, rfl, rfl, rfl, fun _ => id⟩

theorem trans (huv : Keeps u v) (hvw : Keeps v w) : Keeps u w where
  visible := hvw.visible.trans huv.visible
  options := hvw.options.trans huv.options
  template := hvw.template.trans huv.template
  prestart := hvw.prestart.trans huv.prestart
  devices path hp := hvw.devices path (huv.devices path hp)

theorem addDevice (w : Spec) (d : Device) : Keeps w (w.addDevice d) where
  visible := by rw [Spec.env_addDevice]
  options := by rw [Spec.env_addDevice]
  template := by rw [Spec.env_addDevice]
  prestart := Spec.prestart_addDevice w d
  devices _ hp := Spec.hasDevice_addDevice_of_hasDevice hp d

/-- The marker is a line of another name. -/
theorem marked (w : Spec) : Keeps w (w.withEnv (w.env ++ [Environment.pluginMarker])) where
  visible := Environment.get?_append_of_none (by decide) w.env
  options := Environment.get?_append_of_none (by decide) w.env
  template := Environment.get?_append_of_none (by decide) w.env
  prestart := rfl
  devices _ hp := hp

theorem optionsOf_eq (huw : Keeps u w) : optionsOf w = optionsOf u := by
  rw [optionsOf, optionsOf, Invocation.valueOf, Invocation.valueOf, huw.options]

theorem valueOf_visible (huw : Keeps u w) :
    Invocation.valueOf w.env Environment.visibleDevices =
      Invocation.valueOf u.env Environment.visibleDevices := by
  rw [Invocation.valueOf, Invocation.valueOf, huw.visible]

theorem request_eq (huw : Keeps u w) :
    Slice.Request.ofEnv w.env = Slice.Request.ofEnv u.env := by
  rw [Slice.Request.ofEnv, Slice.Request.ofEnv, Slice.Request.visible, Slice.Request.visible,
    huw.template, huw.visible]

end Keeps

/-- The document keeps all that a step looks for, and no slice is asked for. -/
def adding : Frame σ Spec :=
  (Frame.work Keeps Keeps.refl Keeps.trans).inter (Frame.calls fun c => c.isCreate = false)

/-- The document stays the same, and no slice is asked for. -/
def idle : Frame σ Spec := Frame.still.inter (Frame.calls fun c => c.isCreate = false)

theorem admits_adding {c : Call} (hc : c.isCreate = false) : (adding (σ := σ)).Admits svc c :=
  (Frame.admits_work svc c).inter (Frame.admits_calls svc hc)

theorem admits_idle {c : Call} (hc : c.isCreate = false) : (idle (σ := σ)).Admits svc c :=
  (Frame.admits_work svc c).inter (Frame.admits_calls svc hc)

/-- Once these steps have succeeded they succeed again, on each document that keeps what they left,
with the same result and with nothing changed. -/
def Repeats (a : Act σ Spec ε α) : Prop :=
  ∀ r r' x, outcome a r = (.ok x, r') →
    ∀ q, Keeps r'.work q.work → ∃ q', outcome a q = (.ok x, q') ∧ idle.Holds q q'

/-- Steps that keep what others look for, and that repeat if the service forgets. -/
structure Settles (svc : Service σ) (a : Act σ Spec ε α) : Prop where
  within : adding.Within a
  again : svc.Forgets → Repeats a

theorem settles_pure (x : α) : Settles svc (pure x : Act σ Spec ε α) where
  within := Frame.within_pure x
  again _ r r' y hr q _ := by
    cases hr
    exact ⟨q, rfl, idle.refl q⟩

theorem settles_note (l : Record) : Settles svc (note l : Act σ Spec ε Unit) where
  within := Frame.within_note l
  again _ _ _ _ _ q _ := ⟨q.noted [l], rfl, idle.noted q [l]⟩

theorem settles_ofExcept (x : Except ε α) :
    Settles svc (MonadExcept.ofExcept x : Act σ Spec ε α) where
  within := Frame.within_ofExcept x
  again _ r r' y hr q _ := by
    rw [outcome_ofExcept] at hr
    refine ⟨q, ?_, idle.refl q⟩
    rw [outcome_ofExcept, (Prod.mk.inj hr).1]

theorem Settles.mapFailure {a : Act σ Spec ε α} (ha : Settles svc a) (f : ε → ε') :
    Settles svc (mapFailure f a) where
  within := ha.within.mapFailure f
  again hs r r' x hr q hq := by
    obtain ⟨q', hx, hi⟩ := ha.again hs r r' x (outcome_mapFailure_eq_ok.mp hr) q hq
    exact ⟨q', outcome_mapFailure_eq_ok.mpr hx, hi⟩

/-- The second part keeps what the first one left, so both find their work done. -/
theorem Settles.bind {a : Act σ Spec ε α} {f : α → Act σ Spec ε β} (ha : Settles svc a)
    (hf : ∀ x, Settles svc (f x)) : Settles svc (a >>= f) where
  within := ha.within.bind fun x => (hf x).within
  again hs r r'' y hr q hq := by
    obtain ⟨x, r', hx, hy⟩ := outcome_bind_eq_ok.mp hr
    have hk : Keeps r'.work r''.work := ((hf x).within.holds hy).1
    obtain ⟨q', hx', hi⟩ := ha.again hs r r' x hx q (hk.trans hq)
    have hq' : Keeps r''.work q'.work := hi.1 ▸ hq
    obtain ⟨q'', hy', hi'⟩ := (hf x).again hs r' r'' y hy q' hq'
    exact ⟨q'', outcome_bind_eq_ok.mpr ⟨x, q', hx', hy'⟩, idle.trans hi hi'⟩

theorem settles_forM {f : α → Act σ Spec ε PUnit} (xs : List α) (hf : ∀ x, Settles svc (f x)) :
    Settles svc (xs.forM f) := by
  induction xs with
  | nil => exact settles_pure _
  | cons x xs ih => exact (hf x).bind fun _ => ih

/-- A service that forgets gives the same answers again. -/
theorem settles_asks {a : Act σ Spec ε α} (ha : Asks svc a) : Settles svc a where
  within := ha.within fun _ hc => admits_adding (Call.isCreate_of_isQuestion hc)
  again hs r r' x hr q _ := by
    have hx := ha.same_result hs q r
    rw [hr] at hx
    refine ⟨(outcome a q).2, outcome_eq_of_result hx, ?_⟩
    exact ha.within (fun _ hc => admits_idle (Call.isCreate_of_isQuestion hc)) q

theorem Settles.withSession {lift : Fault → ε} {body : Act σ Spec ε α} (hb : Settles svc body) :
    Settles svc (withSession svc lift body) where
  within := hb.within.withSession (admits_adding rfl) (admits_adding rfl)
  again hs r r' x hr q hq := by
    rw [outcome_withSession] at hr
    rw [outcome_withSession, hs .start q.memory r.memory]
    cases hstart : (svc.respond .start r.memory).1.result with
    | error f => simp [hstart] at hr
    | ok opened =>
      simp only [hstart, Prod.mk.injEq] at hr
      obtain ⟨hx, hr'⟩ := hr
      let inside (t : Run σ Spec) := outcome body ((t.answered svc .start).noted [openedNote])
      have hk : Keeps (inside r).2.work ((q.answered svc .start).noted [openedNote]).work := by
        have hwork : (inside r).2.work = r'.work := by
          rw [← hr']
          rfl
        rw [hwork]
        exact hq
      obtain ⟨q', hx', hi⟩ := hb.again hs _ _ x (outcome_eq_of_result hx) _ hk
      refine ⟨(q'.answered svc .shutdown).noted [closedNote], by rw [hx'], ?_⟩
      exact idle.trans (admits_idle rfl q) <| idle.trans (idle.noted _ _) <| idle.trans hi <|
        idle.trans (admits_idle rfl q') (idle.noted _ _)

end NpuRuntime.Creation
