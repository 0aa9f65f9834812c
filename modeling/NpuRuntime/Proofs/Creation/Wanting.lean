import NpuRuntime.Proofs.Creation.Allocating
import NpuRuntime.Proofs.Fallible
import NpuRuntime.Proofs.Slice.Placed

/-! # Wanting a slice
When an environment wants a slice, and the calls that the slice step makes then. They are the
calls of one session, and one of them asks for the slice. -/
namespace NpuRuntime.Creation

open Query NpuRuntime.Bundle Slice

variable {σ : Type} {h : Host} {s : Settings} {svc : Service σ}

/-- An environment selects one physical device and names a known template, and its options do not
say that the device is a slice already. -/
structure Wants (env : Environment.Lines) (q : Slice.Request) : Prop where
  template : Environment.get? env Environment.sliceTemplate = some q.template
  known : q.template ∈ templates
  options : ∃ o, RuntimeOptions.parse (Invocation.valueOf env Environment.runtimeOptions) = .ok o ∧
    .virtual ∉ o.list
  visible : ∃ text, Environment.get? env Environment.visibleDevices = some text ∧
    Devices.parse text = .ok ⟨[q.physical]⟩
  physical_lt : q.physical < maxPhysicalDevices

theorem ofDevices_eq_ok {template : String} {d : Devices} {q : Slice.Request}
    (hq : Request.ofDevices template d = .ok q) :
    d = ⟨[q.physical]⟩ ∧ q.template = template ∧ q.physical < maxPhysicalDevices := by
  obtain ⟨ids⟩ := d
  rcases ids with _ | ⟨physical, _ | ⟨next, rest⟩⟩
  · cases hq
  · simp only [Request.ofDevices] at hq
    split at hq
    · cases hq
    · next hlow =>
      cases hq
      exact ⟨rfl, rfl, Nat.not_le.mp hlow⟩
  · cases hq

theorem exists_of_visible {env : Environment.Lines} {id : Nat}
    (hv : Request.visible env = .ok ⟨[id]⟩) : ∃ text,
    Environment.get? env Environment.visibleDevices = some text ∧
      Devices.parse text = .ok ⟨[id]⟩ := by
  unfold Request.visible at hv
  cases ht : Environment.get? env Environment.visibleDevices with
  | none => simp [ht, Devices.empty] at hv
  | some text => exact ⟨text, rfl, by simpa [ht] using hv⟩

theorem wants_of_wanted {spec : Spec} {q : Slice.Request}
    (hw : wanted h s spec = .ok (some q)) : Wants spec.env q := by
  obtain ⟨options, ho, hv⟩ := exists_of_wanted hw
  have hq : Request.ofEnv spec.env = .ok (some q) := by
    unfold wanted at hw
    simp only [ho, hv, Bool.false_eq_true, if_false] at hw
    rcases hr : Request.ofEnv spec.env with f | _ | request
    · simp [hr] at hw
    · simp [hr] at hw
    · cases hhelper : Trust.realFile h s.destroyHelper with
      | error e => simp [hr, hhelper] at hw
      | ok real => simpa [hr, hhelper] using hw
  unfold Request.ofEnv at hq
  cases ht : Environment.get? spec.env Environment.sliceTemplate with
  | none => simp [ht] at hq
  | some template =>
    simp only [ht] at hq
    split at hq
    · next hknown =>
      obtain ⟨d, hd, hq⟩ := bind_eq_ok.mp hq
      obtain ⟨q', hq', hsome⟩ := bind_eq_ok.mp hq
      cases hsome
      obtain ⟨rfl, rfl, hlow⟩ := ofDevices_eq_ok hq'
      exact {
        template := ht
        known := by simpa using hknown
        options := ⟨options, optionsOf_eq_ok.mp ho, RuntimeOptions.isVirtual_eq_false.mp hv⟩
        visible := exists_of_visible hd
        physical_lt := hlow }
    · cases hq

theorem Wants.any_isNamed {env : Environment.Lines} {q : Slice.Request} (hw : Wants env q) :
    env.any (Environment.isNamed Environment.visibleDevices) = true := by
  obtain ⟨text, htext, -⟩ := hw.visible
  rw [Environment.any_isNamed, htext, Option.isSome_some]

/-- The calls of a run that asks for one slice: the session opens, a device is found, and the slice
is asked for on that device. No other slice is asked for. -/
structure Asked (q : Slice.Request) (f : Found q.physical) (answer : Except Fault Nat)
    (made : List Event) : Prop where
  opening : ⟨.start, .ok ()⟩ :: f.events ++ [creation q f answer] <+: made
  once : creations made = [creation q f answer]

theorem Asked.append {q : Slice.Request} {f : Found q.physical} {answer : Except Fault Nat}
    {made later : List Event} (ha : Asked q f answer made) (hl : creations later = []) :
    Asked q f answer (made ++ later) where
  opening := ha.opening.trans (List.prefix_append made later)
  once := by rw [creations_append, ha.once, hl, List.append_nil]

theorem asked_of_session {q : Slice.Request} (f : Found q.physical) (answer : Except Fault Nat)
    {closing : Event} (hc : closing.call = .shutdown) :
    Asked q f answer (⟨.start, .ok ()⟩ :: f.events ++ [creation q f answer, closing]) where
  opening := ⟨[closing], by simp⟩
  once := by
    have hclosing : creations [closing] = [] := by simp [creations, hc, Call.isCreate]
    change creations (f.events ++ ([creation q f answer] ++ [closing])) = _
    rw [creations_append, creations_append, creations_events, hclosing]
    rfl

/-- The slices of a run are the answers to the calls that ask for one. -/
theorem slices_creations (made : List Event) :
    (creations made).filterMap Event.slice? = made.filterMap Event.slice? := by
  rw [creations, List.filterMap_filter]
  congr 1
  funext e
  cases he : e.call.isCreate with
  | true => rfl
  | false => exact (Event.slice?_of_isCreate he).symm

theorem Asked.slices {q : Slice.Request} {f : Found q.physical} {answer : Except Fault Nat}
    {made : List Event} (ha : Asked q f answer made) :
    made.filterMap Event.slice? = (answer.toOption.map (Slice.mk f.card f.device)).toList := by
  rw [← slices_creations, ha.once, creation, List.filterMap_cons, Event.slice?_create]
  cases answer <;> rfl

/-- The slice step asks for no slice and leaves the document alone, or it asks for the one that is
wanted and writes it down. -/
theorem addSlice_asks {r t : Run σ Spec} {result : Except Failure Unit}
    (hr : outcome (addSlice h s svc) r = (result, t)) :
    ∃ made, t.trace = r.trace ++ made ∧
      ((creations made = [] ∧ (result = .ok () → t.work = r.work)) ∨
        ∃ (q : Slice.Request) (f : Found q.physical) (answer : Except Fault Nat),
          Wants r.work.env q ∧ Asked q f answer made ∧
          (result = .ok () → ∃ slice, answer = .ok slice ∧
            t.work = sliced s ⟨f.card, f.device, slice⟩ r.work)) := by
  rw [outcome_addSlice] at hr
  rcases hw : wanted h s r.work with f | _ | q
  · rw [hw] at hr
    cases hr
    exact ⟨[], by simp, .inl ⟨rfl, fun _ => rfl⟩⟩
  · rw [hw] at hr
    cases hr
    exact ⟨[], by simp, .inl ⟨rfl, fun _ => rfl⟩⟩
  · simp only [hw] at hr
    rw [outcome_bind, outcome_mapFailure] at hr
    obtain ⟨made, htrace, hcases⟩ := create_cases svc q r
    have hwork := work_create svc q r
    generalize outcome (create svc q) r = o at hr htrace hcases hwork
    rcases o with ⟨e | slice, u⟩
    · cases hr
      refine ⟨made, htrace, ?_⟩
      obtain ⟨hnone, -⟩ | ⟨f, answer, closing, rfl, hclosing, -⟩ := hcases
      · exact .inl ⟨hnone, fun hok => by cases hok⟩
      · exact .inr ⟨q, f, answer, wants_of_wanted hw, asked_of_session f answer hclosing,
          fun hok => by cases hok⟩
    · obtain ⟨ls, hu⟩ := outcome_addSliceTo (s := s) slice u
      dsimp only [mapError_ok] at hr
      rw [hu] at hr
      cases hr
      refine ⟨made, htrace, ?_⟩
      obtain ⟨-, e, he⟩ | ⟨f, answer, closing, rfl, hclosing, hanswer⟩ := hcases
      · cases he
      · refine .inr ⟨q, f, answer, wants_of_wanted hw, asked_of_session f answer hclosing,
          fun _ => ?_⟩
        cases answer with
        | error e => cases hanswer
        | ok n =>
          cases hanswer
          exact ⟨n, rfl, congrArg (sliced s _) hwork⟩

end NpuRuntime.Creation
