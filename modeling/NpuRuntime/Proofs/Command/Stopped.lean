import NpuRuntime.Proofs.Command.Runtime
import NpuRuntime.Proofs.Host.Alike

/-! # Stopping early
What a runtime leaves behind that gives up before it starts another program. Up to the search for
that program nothing is written. The search comes last, so where a container is created it finds
the document changed already. -/
namespace NpuRuntime.Command

open Query Creation

variable {σ : Type} {s : Settings} {svc : Service σ} {start : Start} {m : σ} {refusal : Refusal}

/-- The last stage before the runtime hands over. -/
def searching : String := "execute::lookup_runtime_in_env(&config.runtime_names)"

/-- Why the runtime stops before it starts another program, if it does. -/
def stopped? (svc : Service σ) (m : σ) (start : Start) : Option Refusal :=
  match Settings.ofHost start.host with
  | .error f => some ⟨"Config::from_env()", f⟩
  | .ok s => match outcome (handOver s svc start) { memory := m, work := start.host } with
    | (.error refusal, _) => some refusal
    | (.ok _, _) => none

theorem outcome_demand_eq_error {α : Type} {what : String} {x : Except Failure α}
    {r r' : Run σ Host} (hr : outcome (demand what x : ProgramAct σ α) r = (.error refusal, r')) :
    refusal.what = what ∧ r' = r := by
  rw [outcome_demand] at hr
  cases x with
  | error f =>
    cases hr
    exact ⟨rfl, rfl⟩
  | ok y => cases hr

theorem exists_of_reported (who : String) (step : Creation.Outcome) (r : Run σ Host) :
    ∃ ls, outcome (reportPrepared who step) r = (.ok (), r.noted ls) := by
  cases step with
  | passThrough => exact ⟨[], by simp [reportPrepared, Run.noted]⟩
  | changed file => exact ⟨_, rfl⟩

/-- A search that fails has changed nothing. -/
theorem search_eq_error {r r' : Run σ Host} {h : Host}
    (hr : outcome (must searching (Launch.findRuntimeInPath h s.runtimes) : ProgramAct σ Path) r =
      (.error refusal, r')) :
    refusal.what = searching ∧ r' = r ∧
      Launch.find h s.runtimes ((h.value? "PATH").getD "") = .error refusal.failure := by
  obtain ⟨f, hf, rfl⟩ := outcome_mapFailure_eq_error.mp hr
  obtain hfound | ⟨runtime, q, -, hnoted⟩ := outcome_bind_eq_error.mp hf
  · rw [outcome_ofExcept] at hfound
    obtain ⟨hfind, rfl⟩ := Prod.mk.inj hfound
    exact ⟨rfl, rfl, hfind⟩
  · cases hnoted

/-- A hand-over fails on an untouched host, or in the search, behind a preparation that went
through. -/
theorem handOver_eq_error {r r' : Run σ Host}
    (hr : outcome (handOver s svc start) r = (.error refusal, r')) :
    (refusal.what ≠ searching ∧ r'.work = r.work) ∨
    refusal.what = searching ∧ ∃ argv ls step q, start.argv.mapM readArgument = .ok argv ∧
      outcome (prepare s svc argv) (r.noted ls) = (.ok step, q) ∧ r'.work = q.work ∧
      Launch.find q.work s.runtimes ((q.work.value? "PATH").getD "") = .error refusal.failure := by
  -- The steps one by one: all before the search leave the host alone when they fail.
  obtain hnote | ⟨⟨⟩, q, hq, hreading⟩ := outcome_bind_eq_error.mp hr
  · cases hnote
  rw [outcome_note] at hq
  obtain rfl := (Prod.mk.inj hq).2
  obtain hread | ⟨argv, q, hread, hchecking⟩ := outcome_bind_eq_error.mp hreading
  · obtain ⟨hwhat, rfl⟩ := outcome_demand_eq_error hread
    exact .inl ⟨by rw [hwhat]; decide, rfl⟩
  obtain ⟨hargv, rfl⟩ := outcome_demand_eq_ok hread
  obtain hcheck | ⟨⟨⟩, q, hcheck, hpreparing⟩ := outcome_bind_eq_error.mp hchecking
  · obtain ⟨hwhat, rfl⟩ := outcome_demand_eq_error hcheck
    exact .inl ⟨by rw [hwhat]; decide, rfl⟩
  obtain ⟨-, rfl⟩ := outcome_demand_eq_ok hcheck
  obtain hprepare | ⟨step, q, hprepare, hreporting⟩ := outcome_bind_eq_error.mp hpreparing
  · obtain ⟨f, hfailed, rfl⟩ := outcome_mapFailure_eq_error.mp hprepare
    have hwork := work_of_prepare hfailed (by simp)
    have hwhat : "docker runtime failed" ≠ searching := by decide
    exact .inl ⟨hwhat, hwork⟩
  obtain ⟨reports, hreports⟩ := exists_of_reported (caller start.host) step q
  obtain hreport | ⟨⟨⟩, t, hreport, hlooking⟩ := outcome_bind_eq_error.mp hreporting
  · rw [hreports] at hreport
    cases hreport
  rw [hreports] at hreport
  obtain rfl := (Prod.mk.inj hreport).2
  obtain hcurrent | ⟨h, t, hcurrent, hfinding⟩ := outcome_bind_eq_error.mp hlooking
  · cases hcurrent
  cases hcurrent
  obtain hsearch | ⟨runtime, t, -, hlast⟩ := outcome_bind_eq_error.mp hfinding
  · obtain ⟨hwhat, rfl, hfind⟩ := search_eq_error hsearch
    exact .inr ⟨hwhat, argv, _, step, q, hargv, outcome_mapFailure_eq_ok.mp hprepare, rfl, hfind⟩
  · cases hlast

/-- Paths lead to where they led before. -/
theorem canonical_of_prepare {argv : List String} {r r' : Run σ Host}
    {result : Except Failure Creation.Outcome}
    (hr : outcome (prepare s svc argv) r = (result, r')) (route : Route) :
    r'.work.canonical route = r.work.canonical route := by
  by_cases hchanged : ∃ file, result = .ok (.changed file)
  · obtain ⟨file, rfl⟩ := hchanged
    obtain ⟨-, p, real, old, spec, q, -, -, -, -, hrewrites⟩ := changes_of_prepare hr
    exact Host.canonical_alike hrewrites.alike route
  · rw [work_of_prepare hr (not_exists.mp hchanged)]

/-- A container is not created without a change to its document. -/
theorem exists_of_created {argv : List String} {args : Arguments} {r r' : Run σ Host}
    {step : Creation.Outcome} (hargs : Arguments.parse argv = .ok args)
    (hcreate : args.create = true) (hr : outcome (prepare s svc argv) r = (.ok step, r')) :
    ∃ file, step = .changed file := by
  rw [outcome_prepare, documentOf, hargs] at hr
  dsimp only at hr
  rw [if_pos hcreate] at hr
  cases hbundle : bundleOf r.work args with
  | error f =>
    rw [hbundle] at hr
    cases hr
  | ok bundle =>
    rw [hbundle] at hr
    dsimp only [Except.map] at hr
    rcases hchange : outcome (change s svc (PathText.join bundle Bundle.State.documentName)) r with
      ⟨f | ⟨⟩, q⟩
    · rw [hchange] at hr
      cases hr
    · rw [hchange] at hr
      cases hr
      exact ⟨_, rfl⟩

/-- A run that stopped early ends with its refusal. It stopped on the host as it was, or behind a
preparation that went through. -/
theorem stopped_cases (hs : stopped? svc m start = some refusal) :
    ∃ left h warning, run .runtime svc m start = conclude h warning (.error refusal) ∧
      OnlyLogged left h ∧ ((refusal.what ≠ searching ∧ left = start.host) ∨
        refusal.what = searching ∧ ∃ s argv ls step q, Settings.ofHost start.host = .ok s ∧
          start.argv.mapM readArgument = .ok argv ∧ outcome (prepare s svc argv)
            (Run.noted { memory := m, work := start.host } ls) = (.ok step, q) ∧
          left = q.work ∧ Launch.find q.work s.runtimes ((q.work.value? "PATH").getD "") =
            .error refusal.failure) := by
  unfold stopped? at hs
  unfold run
  cases hsettings : Settings.ofHost start.host with
  | error f =>
    rw [hsettings] at hs
    cases hs
    have hwhat : "Config::from_env()" ≠ searching := by decide
    exact ⟨start.host, _, _, rfl, .refl _, .inl ⟨hwhat, rfl⟩⟩
  | ok s =>
    simp only [hsettings] at hs
    rcases hhand : outcome (handOver s svc start) { memory := m, work := start.host } with
      ⟨found | i, t⟩
    · rw [hhand] at hs
      cases hs
      have hrun : outcome (runRuntime s svc start) { memory := m, work := start.host } =
          (.error refusal, t) := by
        rw [runRuntime_eq, outcome_bind, hhand]
      obtain ⟨hwhat, hwork⟩ | ⟨hwhat, argv, ls, step, q, hargv, hprepare, hwork, hfind⟩ :=
        handOver_eq_error hhand
      · obtain ⟨h, warning, hend, hlogged⟩ := runWith_eq hrun (by rw [hwork])
        exact ⟨t.work, h, warning, hend, hlogged, .inl ⟨hwhat, hwork⟩⟩
      · have hlog := canonical_of_prepare hprepare (Route.read logDevice)
        obtain ⟨h, warning, hend, hlogged⟩ := runWith_eq hrun (by rw [hwork, hlog]; rfl)
        exact ⟨t.work, h, warning, hend, hlogged,
          .inr ⟨hwhat, s, argv, ls, step, q, rfl, hargv, hprepare, hwork, hfind⟩⟩
    · rw [hhand] at hs
      cases hs

/-- What a runtime that stopped early leaves behind. -/
structure Leaves (svc : Service σ) (m : σ) (start : Start) (refusal : Refusal) : Prop where
  code : (run .runtime svc m start).code = 1
  said : ∃ warning, (run .runtime svc m start).err = warning ++ refusal.message ++ "\n"
  /-- No file has changed, unless a container was to be created and the search failed. -/
  kept : refusal.what ≠ searching ∨ ¬ Creates start →
    OnlyLogged start.host (run .runtime svc m start).host
  /-- In that case the document has its whole new text, and no other file has changed. -/
  changed : refusal.what = searching → Creates start → ∃ s argv file ls q,
    Settings.ofHost start.host = .ok s ∧ start.argv.mapM readArgument = .ok argv ∧
    documentOf start.host argv = .ok (some file) ∧
    Changes s svc file (Run.noted { memory := m, work := start.host } ls) q ∧
    Launch.find q.work s.runtimes ((start.host.value? "PATH").getD "") = .error refusal.failure ∧
    OnlyLogged q.work (run .runtime svc m start).host

/-- Whatever makes the runtime stop before it starts another program, only a failed search finds a
document changed, and a changed document is never a part of one. -/
theorem stopped_leaves (hs : stopped? svc m start = some refusal) : Leaves svc m start refusal := by
  obtain ⟨left, h, warning, hend, hlogged, hcases⟩ := stopped_cases hs
  refine ⟨by rw [hend]; rfl, ⟨warning, by rw [hend]; rfl⟩, ?_, ?_⟩
  · rintro (hother | hother)
    · obtain ⟨-, rfl⟩ | ⟨hwhat, -⟩ := hcases
      · rw [hend]
        exact hlogged
      · exact absurd hwhat hother
    · exact onlyLogged_run svc m hother
  · rintro hwhat ⟨argv, args, hargv, hargs, hcreate⟩
    obtain ⟨hother, -⟩ | ⟨-, s, argv', ls, step, q, hsettings, hargv', hprepare, rfl, hfind⟩ :=
      hcases
    · exact absurd hwhat hother
    · cases hargv.symm.trans hargv'
      obtain ⟨file, rfl⟩ := exists_of_created hargs hcreate hprepare
      obtain ⟨hdocument, hchanges⟩ := changes_of_prepare hprepare
      have hpath : q.work.value? "PATH" = start.host.value? "PATH" := by
        rw [Host.value?, Host.value?, environment_of_prepare hprepare]
        rfl
      refine ⟨s, argv, file, ls, q, hsettings, hargv, hdocument, hchanges, hpath ▸ hfind, ?_⟩
      rw [hend]
      exact hlogged

/-- Typed where no variable says where to search for a runtime. -/
def unsearched : Start where
  host := { serving with
    files := ⟨serving.files.entries ++ [
      (["proc"], Node.rootDirectory),
      (["proc", "self"], Node.rootDirectory),
      (["proc", "self", "exe"], ⟨.link "/usr/bin/ascend-docker-runtime", 0o777, 0, 0⟩)]⟩
    environment := [] }
  argv := ["runc", "create", "--bundle", "/run", "c"].map Utf8.bytesOf

/-- A container is to be created there, and all but the search succeeds. -/
theorem stopped_leaves_unsearched :
    stopped? Scripted.standard [] unsearched =
      some ⟨searching, .of (.noSearchList Settings.runtimeCandidates)⟩ ∧
    Leaves Scripted.standard [] unsearched
      ⟨searching, .of (.noSearchList Settings.runtimeCandidates)⟩ := by
  have hs : stopped? Scripted.standard [] unsearched =
      some ⟨searching, .of (.noSearchList Settings.runtimeCandidates)⟩ := by
    decide +kernel
  exact ⟨hs, stopped_leaves hs⟩

/-- The runtime ends with 1 and has started nothing. Yet the document is another one than before. -/
theorem stopped_changed :
    stopped? Scripted.standard [] unsearched ≠ none ∧
    (run .runtime Scripted.standard [] unsearched).code = 1 ∧
    ((run .runtime Scripted.standard [] unsearched).host.files.node? ["run", "config.json"]).map
      Node.kind ≠ (unsearched.host.files.node? ["run", "config.json"]).map Node.kind := by
  decide +kernel

end NpuRuntime.Command
