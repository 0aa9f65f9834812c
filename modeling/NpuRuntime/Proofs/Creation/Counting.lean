import NpuRuntime.Proofs.Creation.Appending

/-! # How long the counted lists get
Hooks and lines are counted before they are added. Each list of a changed document is therefore as
long as it was and what the run adds, and a list that was full is too long to be read again. -/
namespace NpuRuntime.Creation

open Query NpuRuntime.Bundle

variable {σ : Type} {h : Host} {s : Settings} {svc : Service σ}

/-- One hook, unless one of its name is there. -/
def addedHooks (u : Spec) : Nat := if hooked u then 0 else 1

/-- A slice is written into the line with options, or into a new line where there is none. -/
def optionLines (h : Host) (s : Settings) (u : Spec) : Nat :=
  match wanted h s u with
  | .ok (some _) => if u.env.any (Environment.isNamed Environment.runtimeOptions) then 0 else 1
  | _ => 0

def markerLines (u : Spec) : Nat :=
  if isPlugin u.env && !u.env.contains Environment.pluginMarker then 1 else 0

def addedLines (h : Host) (s : Settings) (u : Spec) : Nat := optionLines h s u + markerLines u

theorem length_withHook (s : Settings) (u : Spec) :
    (withHook s u).prestart.length = u.prestart.length + addedHooks u := by
  unfold withHook addedHooks
  split
  · rfl
  · rw [Spec.prestart_addPrestart, List.length_append, List.length_singleton]

theorem length_marked_eq (u : Spec) : (marked u).env.length = u.env.length + markerLines u := by
  unfold marked markerLines
  split
  · rw [Spec.env_withEnv, List.length_append, List.length_singleton]
  · rfl

theorem length_sliced_eq {u : Spec} (slice : Slice)
    (hany : u.env.any (Environment.isNamed Environment.visibleDevices) = true) :
    (sliced s slice u).env.length = u.env.length +
      if u.env.any (Environment.isNamed Environment.runtimeOptions) then 0 else 1 := by
  have hne : Environment.visibleDevices ≠ Environment.runtimeOptions := by decide
  unfold sliced
  rw [Spec.env_addPoststop, Spec.env_withEnv, Environment.length_addToken_eq,
    Environment.any_set_of_ne Environment.isName_visibleDevices hne hany,
    Environment.length_set hany]

/-- What is wanted, and what is marked, is read from the lines alone. -/
theorem wanted_of_env {u w : Spec} (henv : w.env = u.env) : wanted h s w = wanted h s u := by
  unfold wanted optionsOf
  rw [henv]

theorem addedLines_of_env {u w : Spec} (henv : w.env = u.env) :
    addedLines h s w = addedLines h s u := by
  unfold addedLines optionLines markerLines
  rw [wanted_of_env henv, henv]

/-- A slice changes neither the host's name nor whether the marker is there. -/
theorem markerLines_sliced (slice : Slice) (u : Spec) :
    markerLines (sliced s slice u) = markerLines u := by
  have hvisible :
      ¬ Environment.isNamed Environment.visibleDevices Environment.pluginMarker = true := by
    decide
  have hoptions :
      ¬ Environment.isNamed Environment.runtimeOptions Environment.pluginMarker = true := by
    decide
  have hplugin : isPlugin (sliced s slice u).env = isPlugin u.env := by
    unfold isPlugin Invocation.valueOf sliced
    rw [Spec.env_addPoststop, Spec.env_withEnv,
      Environment.get?_addToken_of_ne Environment.isName_runtimeOptions (by decide),
      Environment.get?_set_of_ne Environment.isName_visibleDevices (by decide)]
  have hmarker : Environment.pluginMarker ∈ (sliced s slice u).env ↔
      Environment.pluginMarker ∈ u.env := by
    unfold sliced
    rw [Spec.env_addPoststop, Spec.env_withEnv,
      Environment.mem_addToken_iff Environment.isName_runtimeOptions hoptions,
      Environment.mem_set_iff Environment.isName_visibleDevices hvisible]
  have hcontains : (sliced s slice u).env.contains Environment.pluginMarker =
      u.env.contains Environment.pluginMarker := by
    rw [Bool.eq_iff_iff, List.contains_iff_mem, List.contains_iff_mem, hmarker]
  unfold markerLines
  rw [hplugin, hcontains]

/-- The slice step adds its line, and leaves the marker to be added as before. -/
theorem lines_addSlice {r t : Run σ Spec} (hr : outcome (addSlice h s svc) r = (.ok (), t)) :
    t.work.env.length = r.work.env.length + optionLines h s r.work ∧
      markerLines t.work = markerLines r.work := by
  unfold optionLines
  obtain ⟨hw, rfl⟩ | ⟨request, slice, options, hw, -, -, hwork⟩ := addSlice_eq_ok hr
  · rw [hw]
    exact ⟨rfl, rfl⟩
  · have hany := (wants_of_wanted hw).any_isNamed
    rw [hw, hwork]
    exact ⟨length_sliced_eq slice hany, markerLines_sliced slice r.work⟩

/-- A run that succeeds was within both bounds before it added anything. -/
theorem counts_of_run {r r' : Run σ Spec} (hr : outcome (mutate h s svc) r = (.ok (), r')) :
    (r.work.prestart.length ≤ maxItems ∧ r.work.env.length ≤ maxItems) ∧
    r'.work.prestart.length = r.work.prestart.length + addedHooks r.work ∧
    r'.work.env.length = r.work.env.length + addedLines h s r.work := by
  obtain ⟨ra, rb, rc, ha, hlimit, hb, hc, rfl⟩ := mutate_eq_ok.mp hr
  have hcount : r.work.prestart.length ≤ maxItems := by
    by_contra hover
    rw [outcome_addHook] at ha
    cases hreal : Trust.realFile h s.hook with
    | error e => simp [hreal] at ha
    | ok real => simp [hreal, Nat.not_le.mp hover] at ha
  have hhook := work_addHook ha
  have henv : (withHook s r.work).env = r.work.env := env_withHook s r.work
  have hgrows : Grows rb.work rc.work := (covers_growing.addDevices.holds hc).1
  obtain ⟨hlines, hmarker⟩ := lines_addSlice hb
  rw [hhook] at hlimit hlines hmarker
  refine ⟨⟨hcount, henv ▸ hlimit⟩, ?_, ?_⟩
  · change (marked rc.work).prestart.length = _
    rw [prestart_marked, hgrows.prestart, prestart_addSlice hb, hhook]
    exact length_withHook s r.work
  · have hlast : markerLines rc.work = markerLines (withHook s r.work) := by
      unfold markerLines at hmarker ⊢
      rw [hgrows.env, hmarker]
    calc (marked rc.work).env.length
        = rc.work.env.length + markerLines rc.work := length_marked_eq rc.work
      _ = rb.work.env.length + markerLines (withHook s r.work) := by rw [hgrows.env, hlast]
      _ = (withHook s r.work).env.length + addedLines h s (withHook s r.work) := by
          rw [hlines, Nat.add_assoc]
          rfl
      _ = r.work.env.length + addedLines h s r.work := by rw [henv, addedLines_of_env henv]

/-- A result that says that a list has too many entries. -/
def RefusesCount (result : Except Failure Unit) : Prop :=
  ∃ what count, result = .error (.ofFault (.tooMany what count maxItems))

/-- Whatever goes wrong behind both counts says in which step it did. -/
theorem not_refusesCount_late (q : Run σ Spec) : ¬ RefusesCount (outcome (do
    mapFailure (Failure.within .creatingSlice) (addSlice h s svc)
    finish h s svc) q).1 := by
  rintro ⟨what, count, hcount⟩
  rw [outcome_bind, outcome_mapFailure] at hcount
  rcases hslice : outcome (addSlice h s svc) q with ⟨f | ⟨⟩, t⟩
  · rw [hslice] at hcount
    have hstages := congrArg Failure.stages (Except.error.inj hcount)
    cases hstages
  · rw [hslice] at hcount
    dsimp only [mapError_ok] at hcount
    rw [finish, outcome_bind, outcome_mapFailure] at hcount
    rcases hdevices : outcome (addDevices h s svc) t with ⟨f | ⟨⟩, v⟩
    · rw [hdevices] at hcount
      have hstages := congrArg Failure.stages (Except.error.inj hcount)
      cases hstages
    · rw [hdevices] at hcount
      cases hcount

/-- With its hook in place, a run refuses for a count exactly when a list is too long. -/
theorem refusesCount_iff {real : Path} (hreal : Trust.realFile h s.hook = .ok real)
    (q : Run σ Spec) : RefusesCount (outcome (mutate h s svc) q).1 ↔
      maxItems < q.work.prestart.length ∨ maxItems < q.work.env.length := by
  rw [outcome_mutate]
  by_cases hhooks : maxItems < q.work.prestart.length
  · have ha : outcome (addHook h s) q =
        (.error (.ofFault (.tooMany .prestartHooks q.work.prestart.length maxItems)), q) := by
      rw [outcome_addHook, hreal]
      exact if_pos hhooks
    rw [ha]
    exact iff_of_true ⟨_, _, rfl⟩ (.inl hhooks)
  · obtain ⟨ls, ha⟩ := addHook_of_count hreal (Nat.not_lt.mp hhooks)
    have hlength : ((q.working (withHook s q.work)).noted ls).work.env.length =
        q.work.env.length := congrArg List.length (env_withHook s q.work)
    rw [ha]
    dsimp only
    by_cases hlines : maxItems < ((q.working (withHook s q.work)).noted ls).work.env.length
    · rw [if_pos hlines]
      exact iff_of_true ⟨_, _, rfl⟩ (.inr (hlength ▸ hlines))
    · rw [if_neg hlines]
      rw [hlength] at hlines
      exact iff_of_false (not_refusesCount_late _) (by simp [hhooks, hlines])

theorem ofSpec_accepts_iff (state : State) (w : Spec) :
    (∃ c, Container.ofSpec state w = .ok c) ↔ w.env.length ≤ maxItems := by
  unfold Container.ofSpec
  split
  · next hover => exact iff_of_false (fun ⟨c, hc⟩ => by cases hc) (Nat.not_le.mpr hover)
  · next hunder => exact iff_of_true ⟨_, rfl⟩ (Nat.not_lt.mp hunder)

/-- Both counted lists stay within the bound when a run adds to them. -/
def HasRoom (h : Host) (s : Settings) (u : Spec) : Prop :=
  u.prestart.length + addedHooks u ≤ maxItems ∧ u.env.length + addedLines h s u ≤ maxItems

/-- How long the lists of a changed document are, and who refuses them when they are read again:
a further run, whatever host and driver it meets, and the hook that mounts. -/
structure Counts (h : Host) (s : Settings) (u w : Spec) : Prop where
  hooks : w.prestart.length = u.prestart.length + addedHooks u
  lines : w.env.length = u.env.length + addedLines h s u
  again : ∀ {τ : Type} (host : Host) (svc : Service τ) (q : Run τ Spec),
    (∃ real, Trust.realFile host s.hook = .ok real) → q.work = w →
      (RefusesCount (outcome (mutate host s svc) q).1 ↔ ¬ HasRoom h s u)
  mounted : ∀ state, (∃ c, Container.ofSpec state w = .ok c) ↔
    u.env.length + addedLines h s u ≤ maxItems

/-- A document that was written can be read again if there was room for what was added. -/
theorem counts_of_mutate {r r' : Run σ Spec} (hr : outcome (mutate h s svc) r = (.ok (), r')) :
    Counts h s r.work r'.work := by
  obtain ⟨-, hhooks, hlines⟩ := counts_of_run hr
  exact {
    hooks := hhooks
    lines := hlines
    again := by
      rintro τ host svc' q ⟨real, hreal⟩ hq
      rw [refusesCount_iff hreal, hq, hhooks, hlines, HasRoom, not_and_or, Nat.not_le, Nat.not_le]
    mounted := by
      intro state
      rw [ofSpec_accepts_iff, hlines] }

/-- The plugin's own container on the board gets a hook and a line. -/
theorem counts_of_mutate_board : ∃ r', firstRun (asking " NODRV") = (.ok (), r') ∧
    addedHooks (asking " NODRV") = 1 ∧ addedLines board places (asking " NODRV") = 1 ∧
    Counts board places (asking " NODRV") r'.work := by
  obtain ⟨r', hrun, -⟩ := exists_firstRun
  have hfirst := hrun
  rw [firstRun] at hrun
  exact ⟨r', hfirst, by decide, by decide +kernel, counts_of_mutate hrun⟩

/-- The device plugin's container, with so many hooks and one line more than that many. -/
def crowded (hooks lines : Nat) : Spec where
  process := { env := some (List.replicate lines "A=b" ++ ["HOSTNAME=ascend-device-plugin"]) }
  root := { path := "rootfs" }
  hooks := some { prestart := some (List.replicate hooks { path := "/bin/h" }) }

theorem env_crowded (hooks lines : Nat) : (crowded hooks lines).env =
    List.replicate lines "A=b" ++ ["HOSTNAME=ascend-device-plugin"] := rfl

theorem length_env_crowded (hooks lines : Nat) : (crowded hooks lines).env.length = lines + 1 := by
  rw [env_crowded, List.length_append, List.length_replicate, List.length_singleton]

theorem length_prestart_crowded (hooks lines : Nat) :
    (crowded hooks lines).prestart.length = hooks := List.length_replicate

theorem get?_replicate {name l : String} (hl : Environment.valueIn? name l = none) (n : Nat) :
    Environment.get? (List.replicate n l) name = none := by
  induction n with
  | zero => rfl
  | succ n ih => rw [List.replicate_succ, Environment.get?_cons_of_none hl, ih]

theorem valueOf_crowded {name : String} (hname : Environment.valueIn? name "A=b" = none)
    (hooks lines : Nat) : Invocation.valueOf (crowded hooks lines).env name =
      (Environment.valueIn? name "HOSTNAME=ascend-device-plugin").getD "" := by
  rw [Invocation.valueOf, env_crowded, Environment.get?_append, get?_replicate hname,
    Option.none_or]
  cases hhost : Environment.valueIn? name "HOSTNAME=ascend-device-plugin" with
  | none => rw [Environment.get?_cons_of_none hhost, Environment.get?_nil]
  | some value => rw [Environment.get?_cons_of_some hhost]

theorem addedHooks_crowded (hooks lines : Nat) : addedHooks (crowded hooks lines) = 1 := by
  have hnone : hooked (crowded hooks lines) = false := by
    change (List.replicate hooks _).any _ = false
    rw [List.any_eq_false]
    intro hook hmem
    rw [List.eq_of_mem_replicate hmem]
    decide
  rw [addedHooks, hnone]
  rfl

theorem wanted_crowded (hooks lines : Nat) : wanted h s (crowded hooks lines) = .ok none := by
  have hoptions : optionsOf (crowded hooks lines) = .ok RuntimeOptions.empty := by
    rw [optionsOf, valueOf_crowded (by decide)]
    decide
  have htemplate : Environment.get? (crowded hooks lines).env Environment.sliceTemplate = none := by
    rw [env_crowded, Environment.get?_append, get?_replicate (by decide)]
    decide
  rw [wanted, hoptions, Slice.Request.ofEnv, htemplate]
  rfl

theorem addedLines_crowded (hooks lines : Nat) : addedLines h s (crowded hooks lines) = 1 := by
  have hplugin : isPlugin (crowded hooks lines).env = true := by
    rw [isPlugin, valueOf_crowded (by decide)]
    decide
  have hmarker : (crowded hooks lines).env.contains Environment.pluginMarker = false := by
    rw [← Bool.not_eq_true, List.contains_iff_mem, env_crowded, List.mem_append, List.mem_singleton]
    rintro (hmem | hmem)
    · have heq := List.eq_of_mem_replicate hmem
      revert heq
      decide
    · revert hmem
      decide
  rw [addedLines, optionLines, wanted_crowded, markerLines, hplugin, hmarker]
  rfl

/-- The hook that is added on the board can be trusted. -/
theorem realFile_board :
    Trust.realFile board places.hook = .ok ["usr", "bin", "ascend-docker-hook"] := by
  decide +kernel

/-- Lists that are as long as they may be do not stop a run, which makes each one entry longer. -/
theorem exists_run_crowded {hooks lines : Nat} (hh : hooks ≤ maxItems) (hl : lines + 1 ≤ maxItems) :
    ∃ r', outcome (mutate board places Scripted.standard)
        { memory := [], work := crowded hooks lines } = (.ok (), r') ∧
      r'.work.prestart.length = hooks + 1 ∧ r'.work.env.length = lines + 2 := by
  obtain ⟨ra, ha, hwork⟩ : ∃ ra : Run Scripted.Counts Spec,
      outcome (addHook board places) { memory := [], work := crowded hooks lines } =
        (.ok (), ra) ∧ ra.work = withHook places (crowded hooks lines) := by
    have hcount : (crowded hooks lines).prestart.length ≤ maxItems :=
      (length_prestart_crowded hooks lines).trans_le hh
    let start : Run Scripted.Counts Spec := { memory := [], work := crowded hooks lines }
    obtain ⟨ls, hls⟩ := addHook_of_count (r := start) realFile_board hcount
    exact ⟨_, hls, rfl⟩
  have henv : ra.work.env = (crowded hooks lines).env := by
    rw [hwork]
    exact env_withHook places (crowded hooks lines)
  have hslice : outcome (addSlice board places Scripted.standard) ra = (.ok (), ra) := by
    rw [outcome_addSlice, wanted_of_env henv, wanted_crowded]
  have hdevices : outcome (addDevices board places Scripted.standard) ra = (.ok (), ra) := by
    have hnone : selected ra.work = .ok none := by
      rw [selected, henv, valueOf_crowded (by decide)]
      exact if_pos (by decide)
    rw [outcome_addDevices, hnone]
  have hcount : ra.work.env.length ≤ maxItems := by
    rw [henv, length_env_crowded]
    exact hl
  have hr := mutate_eq_ok.mpr ⟨ra, ra, ra, ha, hcount, hslice, hdevices, rfl⟩
  obtain ⟨-, hhooks, hlines⟩ := counts_of_run hr
  rw [length_prestart_crowded, addedHooks_crowded] at hhooks
  rw [length_env_crowded, addedLines_crowded] at hlines
  exact ⟨_, hr, hhooks, hlines⟩

/-- Both lists are full, so both are one entry too long when they are written: the next run refuses
the document, and so does the hook that mounts. -/
theorem written_too_long : ∃ r', outcome (mutate board places Scripted.standard)
      { memory := [], work := crowded maxItems (maxItems - 1) } = (.ok (), r') ∧
    r'.work.prestart.length = maxItems + 1 ∧ r'.work.env.length = maxItems + 1 ∧
    RefusesCount (outcome (mutate board places Scripted.standard) r').1 ∧
    ∀ state, ¬ ∃ c, Container.ofSpec state r'.work = .ok c := by
  have hlast : maxItems - 1 + 1 = maxItems := rfl
  obtain ⟨r', hr, hhooks, hlines⟩ := exists_run_crowded (Nat.le_refl maxItems) hlast.le
  refine ⟨r', hr, hhooks, hlines, ?_, ?_⟩
  · rw [refusesCount_iff realFile_board, hhooks]
    exact .inl (Nat.lt_succ_self maxItems)
  · intro state
    rw [ofSpec_accepts_iff, hlines]
    exact Nat.not_succ_le_self maxItems

end NpuRuntime.Creation
