import NpuRuntime.Proofs.Creation.Adding
import NpuRuntime.Proofs.Creation.Steps
import NpuRuntime.Proofs.Creation.Wanting

/-! # The protocol of a slice
A run asks for at most one slice: the one that the environment wants, on the first device with the
logic id of the selected one. A run that succeeds hands over that slice, or has left alone what
says which devices are visible. -/
namespace NpuRuntime.Creation

open Query NpuRuntime.Bundle Slice

variable {σ : Type} {h : Host} {s : Settings} {svc : Service σ}

/-- The second document makes a slice its only visible device, has the node of that device, and
frees the slice in the end. -/
structure HandsOver (s : Settings) (slice : Slice) (u w : Spec) : Prop where
  visible : ∀ l ∈ w.env, ∀ value, Environment.valueIn? Environment.visibleDevices l = some value →
    value = toString slice.slice
  selected : Environment.get? w.env Environment.visibleDevices = some (toString slice.slice)
  options : ∃ o, RuntimeOptions.parse
    (Invocation.valueOf w.env Environment.runtimeOptions) = .ok o ∧ .virtual ∈ o.list
  poststop : w.poststop = u.poststop ++ [{
    path := s.destroyHelper
    args := some [s.destroyHelper, toString slice.card, toString slice.device,
      toString slice.slice] }]
  device : ∃ d ∈ w.devices, d.path = "/dev/davinci" ++ toString slice.slice

/-- The second document selects devices as the first one does, and frees nothing more. -/
structure LeavesAlone (u w : Spec) : Prop where
  visible : w.env.filter (Environment.isNamed Environment.visibleDevices) =
    u.env.filter (Environment.isNamed Environment.visibleDevices)
  options : w.env.filter (Environment.isNamed Environment.runtimeOptions) =
    u.env.filter (Environment.isNamed Environment.runtimeOptions)
  poststop : w.poststop = u.poststop

theorem visible_marked (spec : Spec) :
    (marked spec).env.filter (Environment.isNamed Environment.visibleDevices) =
      spec.env.filter (Environment.isNamed Environment.visibleDevices) :=
  filter_marked (by decide) spec

theorem finish_eq_ok {t r' : Run σ Spec} (hr : outcome (finish h s svc) t = (.ok (), r')) :
    ∃ rc, outcome (addDevices h s svc) t = (.ok (), rc) ∧ Grows t.work rc.work ∧
      r'.work = marked rc.work := by
  obtain ⟨⟨⟩, rc, hc, hm⟩ := outcome_bind_eq_ok.mp hr
  rw [outcome_addMarker] at hm
  cases hm
  have hc := outcome_mapFailure_eq_ok.mp hc
  exact ⟨rc, hc, (covers_growing.addDevices.holds hc).1, rfl⟩

theorem leavesAlone_finish {t r' : Run σ Spec}
    (hr : outcome (finish h s svc) t = (.ok (), r')) : LeavesAlone t.work r'.work := by
  obtain ⟨rc, -, hgrows, hwork⟩ := finish_eq_ok hr
  rw [hwork]
  constructor
  · rw [visible_marked, hgrows.env]
  · rw [filter_marked (by decide), hgrows.env]
  · rw [poststop_marked, hgrows.poststop]

/-- Every line of the name gives the number of the slice, the rewritten options too. -/
theorem visible_of_mem_sliced {slice : Slice} {u : Spec} {l value : String}
    (hl : l ∈ (sliced s slice u).env)
    (hv : Environment.valueIn? Environment.visibleDevices l = some value) :
    value = toString slice.slice := by
  rcases Environment.mem_addToken hl with hl | ⟨text, rfl⟩
  · exact Environment.eq_of_mem_set Environment.isName_visibleDevices hl hv
  · rw [Environment.valueIn?_line_of_ne Environment.isName_runtimeOptions (by decide)] at hv
    cases hv

theorem handsOver_finish {t r' : Run σ Spec} {slice : Slice} {u : Spec}
    (hwork : t.work = sliced s slice u) {q : Slice.Request} (hq : Wants u.env q)
    (hr : outcome (finish h s svc) t = (.ok (), r')) : HandsOver s slice u r'.work := by
  obtain ⟨rc, hc, hgrows, hw⟩ := finish_eq_ok hr
  have hvisible : Invocation.valueOf t.work.env Environment.visibleDevices =
      toString slice.slice := by rw [hwork, visible_sliced]
  obtain ⟨devices, new, hdevices, hnew, hselected⟩ :=
    exists_of_addDevices (hvisible ▸ Text.toString_ne_empty _) hc
  rw [hvisible] at hdevices
  obtain rfl := Devices.eq_of_parse_toString hdevices
  have hkeeps := keeps_marked rc.work
  constructor
  · intro l hl value hv
    have hmem : l ∈ (marked rc.work).env.filter
        (Environment.isNamed Environment.visibleDevices) :=
      List.mem_filter.mpr ⟨hw ▸ hl, by simp [Environment.isNamed, hv]⟩
    rw [visible_marked, hgrows.env, hwork] at hmem
    exact visible_of_mem_sliced (List.mem_filter.mp hmem).1 hv
  · rw [hw, hkeeps.visible, hgrows.env, hwork, get?_visible_sliced]
  · obtain ⟨old, ho, hnot⟩ := hq.options
    have hadd : new = old.add .virtual :=
      eq_add_of_sliced (optionsOf_eq_ok.mpr ho) (RuntimeOptions.isVirtual_eq_false.mpr hnot)
        (hwork ▸ hnew)
    have henv : optionsOf r'.work = optionsOf t.work := by
      rw [hw, hkeeps.optionsOf_eq, optionsOf, hgrows.env, ← optionsOf]
    refine ⟨new, optionsOf_eq_ok.mp (henv.trans hnew), ?_⟩
    rw [hadd, RuntimeOptions.mem_add]
    exact .inr rfl
  · rw [hw, poststop_marked, hgrows.poststop, hwork]
    rfl
  · have hthere := hasDevice_of_addSelected hselected slice.slice (by simp)
    rw [hw, devices_marked]
    rw [devicePath_eq, Spec.hasDevice, List.any_eq_true] at hthere
    obtain ⟨d, hd, hpath⟩ := hthere
    exact ⟨d, hd, beq_iff_eq.mp hpath⟩

/-- No slice is asked for and the selection is left alone, or the slice that the environment wants
is asked for once and, when it was made, handed over. Documents count only if the run succeeds. -/
def AsksOnce (s : Settings) (result : Except Failure Unit) (r r' : Run σ Spec) : Prop :=
  ∃ made, r'.trace = r.trace ++ made ∧
    ((creations made = [] ∧ (result = .ok () → LeavesAlone r.work r'.work)) ∨
      ∃ (q : Slice.Request) (f : Found q.physical) (answer : Except Fault Nat),
        Wants r.work.env q ∧ Asked q f answer made ∧
        ∀ slice, answer = .ok slice → result = .ok () →
          HandsOver s ⟨f.card, f.device, slice⟩ r.work r'.work)

/-- A run that asks for nothing and fails. -/
theorem asksOnce_of_trace {r r' : Run σ Spec} (ht : r'.trace = r.trace) (e : Failure) :
    AsksOnce s (.error e) r r' :=
  ⟨[], by simp [ht], .inl ⟨rfl, fun hok => by cases hok⟩⟩

/-- Nothing of this depends on the hooks before the start. -/
theorem AsksOnce.before {r ra r' : Run σ Spec} {result : Except Failure Unit}
    (ha : AsksOnce s result ra r') (ht : ra.trace = r.trace) (he : ra.work.env = r.work.env)
    (hp : ra.work.poststop = r.work.poststop) : AsksOnce s result r r' := by
  obtain ⟨made, hmade, hcases⟩ := ha
  refine ⟨made, ht ▸ hmade, ?_⟩
  obtain ⟨hnone, hleaves⟩ | ⟨q, f, answer, hq, hasked, hhands⟩ := hcases
  · refine .inl ⟨hnone, fun hok => ?_⟩
    have hl := hleaves hok
    exact ⟨he ▸ hl.visible, he ▸ hl.options, hp ▸ hl.poststop⟩
  · refine .inr ⟨q, f, answer, he ▸ hq, hasked, fun slice hslice hok => ?_⟩
    have hh := hhands slice hslice hok
    exact { hh with poststop := hp ▸ hh.poststop }

/-- The slice step comes first, and nothing behind it asks for another slice. -/
theorem asksOnce_slice {r r' : Run σ Spec} {result : Except Failure Unit}
    (hr : outcome (do
      mapFailure (Failure.within .creatingSlice) (addSlice h s svc)
      finish h s svc) r = (result, r')) : AsksOnce s result r r' := by
  rw [outcome_bind, outcome_mapFailure] at hr
  rcases hslice : outcome (addSlice h s svc) r with ⟨e | ⟨⟩, t⟩
  · rw [hslice] at hr
    cases hr
    obtain ⟨made, htrace, hcases⟩ := addSlice_asks hslice
    refine ⟨made, htrace, ?_⟩
    obtain ⟨hnone, -⟩ | ⟨q, f, answer, hq, hasked, -⟩ := hcases
    · exact .inl ⟨hnone, fun hok => by cases hok⟩
    · exact .inr ⟨q, f, answer, hq, hasked, fun _ _ hok => by cases hok⟩
  · rw [hslice] at hr
    dsimp only [mapError_ok] at hr
    obtain ⟨made, htrace, hcases⟩ := addSlice_asks hslice
    obtain ⟨later, hlater, hnone⟩ := (within_finish h s svc t).2
    have hnone := creations_eq_nil.mpr hnone
    rw [hr, htrace, List.append_assoc] at hlater
    refine ⟨made ++ later, hlater, ?_⟩
    obtain ⟨hmade, hwork⟩ | ⟨q, f, answer, hq, hasked, hwork⟩ := hcases
    · refine .inl ⟨by rw [creations_append, hmade, hnone]; rfl, fun hok => ?_⟩
      rw [← hwork rfl]
      exact leavesAlone_finish (hok ▸ hr)
    · refine .inr ⟨q, f, answer, hq, hasked.append hnone, fun slice hanswer hok => ?_⟩
      obtain ⟨given, hgiven, hsliced⟩ := hwork rfl
      obtain rfl : slice = given := Except.ok.inj (hanswer.symm.trans hgiven)
      exact handsOver_finish hsliced hq (hok ▸ hr)

/-- One run asks for no slice, or once for the one that its environment wants. If it succeeds, a
slice that was made is handed over, and without one the selection is left alone. -/
theorem mutate_asksOnce {r r' : Run σ Spec} {result : Except Failure Unit}
    (hr : outcome (mutate h s svc) r = (result, r')) : AsksOnce s result r r' := by
  rw [outcome_mutate] at hr
  obtain ⟨e, he⟩ | ⟨-, ls, -, ha⟩ := addHook_cases h s r
  · rw [he] at hr
    cases hr
    exact asksOnce_of_trace rfl e
  · rw [ha] at hr
    dsimp only at hr
    have henv := env_withHook s r.work
    have hpoststop := poststop_withHook s r.work
    split at hr
    · cases hr
      exact (asksOnce_of_trace rfl _).before rfl henv hpoststop
    · exact (asksOnce_slice hr).before rfl henv hpoststop

/-- The board's only device is split, and the slice is handed over. -/
theorem mutate_asksOnce_board : ∃ r', firstRun (asking " NODRV") = (.ok (), r') ∧
    ∃ made, r'.trace = made ∧ ∃ (q : Slice.Request) (f : Found q.physical),
      Wants (asking " NODRV").env q ∧ Asked q f (.ok 100) made ∧ f.card = 0 ∧ f.device = 0 ∧
      HandsOver places ⟨f.card, f.device, 100⟩ (asking " NODRV") r'.work := by
  obtain ⟨r', hrun, hslices⟩ := exists_firstRun
  have hfirst := hrun
  rw [firstRun] at hrun
  obtain ⟨made, hmade, ⟨hnone, -⟩ | ⟨q, f, answer, hq, hasked, hhands⟩⟩ := mutate_asksOnce hrun
  · rw [Run.slices, hmade, List.nil_append, ← slices_creations, hnone] at hslices
    cases hslices
  · rw [Run.slices, hmade, List.nil_append, hasked.slices] at hslices
    cases answer with
    | error e => cases hslices
    | ok slice =>
      have hslice : Slice.mk f.card f.device slice = ⟨0, 0, 100⟩ := List.head_eq_of_cons_eq hslices
      obtain rfl : slice = 100 := congrArg Slice.slice hslice
      exact ⟨r', hfirst, made, hmade, q, f, hq, hasked, congrArg Slice.card hslice,
        congrArg Slice.device hslice, hhands 100 rfl rfl⟩

end NpuRuntime.Creation
