import Mathlib.Control.Monad.Basic
import NpuRuntime.Command.Basic
import NpuRuntime.Proofs.Creation.Spelling
import NpuRuntime.Proofs.Creation.Writing

/-! # The runtime's command line, passed on
What the runtime does before it starts another program in its place, and which program that is. -/
namespace NpuRuntime.Command

open Query NpuRuntime.Bundle Creation

variable {σ : Type} {s : Settings} {svc : Service σ} {start : Start}

def reportPrepared (who : String) : Creation.Outcome → ProgramAct σ Unit
  | .passThrough => pure ()
  | .changed file => note ⟨.info, .runtime, who ++ " spec " ++ file ++ " prepared"⟩

/-- Everything up to the point where the runtime hands over; the result is what it hands over. -/
def handOver (s : Settings) (svc : Service σ) (start : Start) : ProgramAct σ Invocation := do
  let who := caller start.host
  note ⟨.info, .runtime, who ++ " ascend docker runtime starting, try to setup container"⟩
  let argv ← readArguments start
  demand "ascend docker runtime args check failed" (checkArguments argv)
  let step ← must "docker runtime failed" (prepare s svc argv)
  reportPrepared who step
  let runtime ← must "execute::lookup_runtime_in_env(&config.runtime_names)"
    (Launch.findRuntimeInPath (← current) s.runtimes)
  return ⟨runtime.text, argv.drop 1⟩

theorem runRuntime_eq (s : Settings) (svc : Service σ) (start : Start) :
    runRuntime s svc start = handOver s svc start >>= replace "failed to exec runtime" := by
  simp only [runRuntime, handOver, bind_assoc]
  refine bind_congr fun _ => bind_congr fun argv => bind_congr fun _ => bind_congr fun step => ?_
  cases step <;> simp only [reportPrepared, pure_bind]

@[simp] theorem outcome_demand {α : Type} (what : String) (x : Except Failure α) (r : Run σ Host) :
    outcome (demand what x : ProgramAct σ α) r = (x.mapError (Refusal.mk what), r) := by
  rw [demand, must, outcome_mapFailure, outcome_ofExcept]

theorem outcome_demand_eq_ok {α : Type} {what : String} {x : Except Failure α} {r r' : Run σ Host}
    {y : α} (hr : outcome (demand what x : ProgramAct σ α) r = (.ok y, r')) :
    x = .ok y ∧ r' = r := by
  rw [outcome_demand] at hr
  cases x with
  | error f => cases hr
  | ok z =>
    cases hr
    exact ⟨rfl, rfl⟩

theorem work_of_reported {who : String} {step : Creation.Outcome} {r r' : Run σ Host}
    (hr : outcome (reportPrepared who step) r = (.ok (), r')) : r'.work = r.work := by
  cases step <;> cases hr <;> rfl

/-- To hand over, the runtime reads and checks its arguments, prepares the container and finds the
program, each with success. -/
theorem handOver_eq_ok {r r' : Run σ Host} {i : Invocation}
    (hr : outcome (handOver s svc start) r = (.ok i, r')) :
    ∃ argv q q' step runtime, start.argv.mapM readArgument = .ok argv ∧
      checkArguments argv = .ok () ∧ q.work = r.work ∧
      outcome (prepare s svc argv) q = (.ok step, q') ∧ r'.work = q'.work ∧
      Launch.find r'.work s.runtimes ((r'.work.value? "PATH").getD "") = .ok runtime ∧
      i = ⟨runtime.text, argv.drop 1⟩ := by
  obtain ⟨⟨⟩, q, hq, hreading⟩ := outcome_bind_eq_ok.mp hr
  have hsame : q.work = r.work := by
    rw [outcome_note] at hq
    rw [← (Prod.mk.inj hq).2, work_noted]
  obtain ⟨argv, t, hread, hchecking⟩ := outcome_bind_eq_ok.mp hreading
  obtain ⟨hargv, rfl⟩ := outcome_demand_eq_ok hread
  obtain ⟨⟨⟩, u, hcheck, hpreparing⟩ := outcome_bind_eq_ok.mp hchecking
  obtain ⟨hchecked, rfl⟩ := outcome_demand_eq_ok hcheck
  obtain ⟨step, q', hprepare, hreporting⟩ := outcome_bind_eq_ok.mp hpreparing
  obtain ⟨⟨⟩, v, hreport, hlooking⟩ := outcome_bind_eq_ok.mp hreporting
  have hwork : v.work = q'.work := work_of_reported hreport
  obtain ⟨h, w, hcurrent, hfinding⟩ := outcome_bind_eq_ok.mp hlooking
  cases hcurrent
  obtain ⟨runtime, w, hfound, hlast⟩ := outcome_bind_eq_ok.mp hfinding
  obtain ⟨found, x, hsearch, hnoted⟩ := outcome_bind_eq_ok.mp (outcome_mapFailure_eq_ok.mp hfound)
  rw [outcome_ofExcept] at hsearch
  obtain ⟨hfind, rfl⟩ := Prod.mk.inj hsearch
  cases hnoted
  cases hlast
  exact ⟨argv, _, q', step, runtime, hargv, hchecked, hsame,
    outcome_mapFailure_eq_ok.mp hprepare, hwork, hfind, rfl⟩

/-- The environment is the one that the process was started with. -/
theorem environment_of_prepare {argv : List String} {r r' : Run σ Host}
    {result : Except Failure Creation.Outcome}
    (hr : outcome (prepare s svc argv) r = (result, r')) :
    r'.work.environment = r.work.environment := by
  by_cases hchanged : ∃ file, result = .ok (.changed file)
  · obtain ⟨file, rfl⟩ := hchanged
    obtain ⟨-, p, real, old, spec, q, -, -, -, -, hrewrites⟩ := changes_of_prepare hr
    rw [hrewrites.process]
  · rw [work_of_prepare hr (not_exists.mp hchanged)]

/-- A path from the root is not searched for. -/
theorem start_text {h : Host} {p : Path} {path : String}
    (hs : Launch.start h p.text = .ok path) : path = p.text := by
  have hslash : p.text.toList.contains '/' = true := by simp [Path.text]
  have hnonempty : p.text ≠ "" := by
    intro he
    rw [he] at hslash
    cases hslash
  rw [Launch.start, if_neg hnonempty, if_pos hslash] at hs
  obtain ⟨-, -, hpath⟩ := map_eq_ok.mp hs
  exact hpath.symm

theorem exec_eq_ok {i : Invocation} {h : Host} {r r' : Run σ Host} {path : String}
    (hr : outcome (Launch.exec h i) r = (.ok path, r')) : Launch.start h i.program = .ok path := by
  obtain ⟨⟨⟩, q, -, hstarting⟩ := outcome_bind_eq_ok.mp hr
  dsimp only at hstarting
  split at hstarting
  · cases hstarting
  · cases hstart : Launch.start h i.program with
    | error e =>
      rw [hstart] at hstarting
      cases hstarting
    | ok found =>
      rw [hstart] at hstarting
      cases hstarting
      rfl

theorem replace_eq_ok {what : String} {i : Invocation} {r r' : Run σ Host} {result : Finish}
    (hr : outcome (replace what i) r = (.ok result, r')) : ∃ path,
    Launch.start r.work i.program = .ok path ∧ result = .replaced path i.args := by
  obtain ⟨h, q, hcurrent, hstarting⟩ := outcome_bind_eq_ok.mp hr
  cases hcurrent
  obtain ⟨path, t, hexec, hlast⟩ := outcome_bind_eq_ok.mp hstarting
  cases hlast
  exact ⟨path, exec_eq_ok (outcome_mapFailure_eq_ok.mp hexec), rfl⟩

/-- The scan of the arguments finds the command that creates a container. -/
def Creates (start : Start) : Prop :=
  ∃ argv args, start.argv.mapM readArgument = .ok argv ∧ Arguments.parse argv = .ok args ∧
    args.create = true

theorem within_prepare {argv : List String}
    (hother : ∀ args, Arguments.parse argv = .ok args → args.create = false) :
    Frame.untouched.Within (prepare s svc argv) := by
  intro r
  rw [outcome_prepare, documentOf]
  cases hparse : Arguments.parse argv with
  | error f => exact Frame.untouched.refl r
  | ok args =>
    dsimp only
    rw [hother args hparse]
    exact Frame.untouched.noted r _

theorem within_handOver (hother : ¬ Creates start) :
    Frame.untouched.Within (handOver s svc start) := by
  refine (Frame.within_note _).bind fun _ => Frame.within_ofExcept_bind fun argv hargv => ?_
  refine Frame.within_ofExcept_bind fun _ _ => ?_
  have hprepare : Frame.untouched.Within (prepare s svc argv) := by
    refine within_prepare fun args hargs => ?_
    cases hcreate : args.create with
    | false => rfl
    | true => exact absurd ⟨argv, args, hargv, hargs, hcreate⟩ hother
  refine (hprepare.mapFailure _).bind fun step => Frame.Within.bind ?_ fun _ => ?_
  · cases step with
    | passThrough => exact Frame.within_pure _
    | changed file => exact Frame.within_note _
  · refine Frame.within_current.bind fun h => Frame.Within.bind ?_ fun _ => Frame.within_pure _
    exact ((Frame.within_ofExcept _).bind fun _ =>
      (Frame.within_note _).bind fun _ => Frame.within_pure _).mapFailure _

theorem within_exec (h : Host) (i : Invocation) :
    Frame.untouched.Within (Launch.exec h i : Act σ Host Failure String) := by
  refine (Frame.within_note _).bind fun _ => ?_
  dsimp only
  split
  · exact Frame.within_throw _
  · cases Launch.start h i.program with
    | ok path => exact Frame.within_pure _
    | error e => exact Frame.within_throw _

/-- A command that creates nothing asks the driver nothing and leaves every file alone, whether the
runtime starts or not. -/
theorem within_runRuntime (hother : ¬ Creates start) :
    Frame.untouched.Within (runRuntime s svc start) := by
  rw [runRuntime_eq]
  refine (within_handOver hother).bind fun i => Frame.within_current.bind fun h => ?_
  exact ((within_exec h i).mapFailure _).bind fun _ => Frame.within_pure _

/-- The log device is all that may differ, and only a plain file keeps what is written to it. -/
structure OnlyLogged (before after : Host) : Prop where
  others : ∀ p, before.canonical (Route.read logDevice) ≠ .ok p →
    after.files.node? p = before.files.node? p
  process : after = { before with files := after.files }
  device : (∀ n, before.node (Route.read logDevice) = .ok n → n.isFile = false) → after = before

theorem OnlyLogged.refl (h : Host) : OnlyLogged h h :=
  ⟨fun _ _ => rfl, rfl, fun _ => rfl⟩

theorem node_of_canonical {h : Host} {r : Route} {p : Path} {n : Node}
    (hp : h.canonical r = .ok p) (hn : h.files.node? p = some n) : h.node r = .ok n := by
  obtain ⟨w, hw, hreached⟩ := bind_eq_ok.mp hp
  cases hreached
  refine bind_eq_ok.mpr ⟨w, hw, ?_⟩
  rw [hn]
  rfl

theorem canonical_of_attach {h : Host} {level : Filter} {k : KernelLog}
    (hk : KernelLog.attach h level = .ok k) : h.canonical (Route.read logDevice) = .ok k.file := by
  obtain ⟨file, hfile, hlog⟩ := bind_eq_ok.mp hk
  cases hlog
  exact Host.writable_eq_ok hfile

/-- The log writes nothing, or gives a plain file new content. -/
theorem write_cases {k : KernelLog} {h : Host} {n : Node} (hn : h.files.node? k.file = some n)
    (records : List Record) : k.write h records = h ∨
      ∃ bytes, n.isFile = true ∧ k.write h records = h.store k.file bytes := by
  unfold KernelLog.write
  rw [hn, Option.map_some, Node.isFile]
  cases n.kind with
  | file content =>
    dsimp only
    split
    · exact .inl rfl
    · exact .inr ⟨_, rfl, rfl⟩
  | reporter =>
    dsimp only
    split
    · exact .inl rfl
    · exact .inr ⟨_, rfl, rfl⟩
  | _ => exact .inl rfl

theorem onlyLogged_write {h : Host} {k : KernelLog}
    (hcanonical : h.canonical (Route.read logDevice) = .ok k.file) (records : List Record) :
    OnlyLogged h (k.write h records) := by
  cases hn : h.files.node? k.file with
  | none =>
    have hsame : k.write h records = h := by
      unfold KernelLog.write
      rw [hn]
      rfl
    rw [hsame]
    exact .refl h
  | some n =>
    have hstore (bytes : List UInt8) : h.store k.file bytes =
        { h with files := h.files.put k.file { n with kind := .file ⟨bytes, 0⟩ } } := by
      rw [Host.store, hn]
    obtain hsame | ⟨bytes, hfile, hstored⟩ := write_cases hn records
    · rw [hsame]
      exact .refl h
    · rw [hstored, hstore]
      refine ⟨fun p hp => ?_, rfl, fun hdevice => ?_⟩
      · have hne : p ≠ k.file := by
          rintro rfl
          exact hp hcanonical
        exact (Files.node?_put _ _ _ _).trans (if_neg hne)
      · have hfalse := hdevice n (node_of_canonical hcanonical hn)
        rw [hfile] at hfalse
        cases hfalse

theorem host_conclude (h : Host) (warning : String) (result : Except Refusal Finish) :
    (conclude h warning result).host = h := by
  rcases result with r | _ | ⟨path, args⟩ <;> rfl

/-- The program ends with its result, on the host as it left it but for the log. -/
theorem runWith_eq {m : σ} {t : Run σ Host} {result : Except Refusal Finish}
    (hrun : outcome (runRuntime s svc start) { memory := m, work := start.host } = (result, t))
    (hlog : t.work.canonical (Route.read logDevice) = start.host.canonical (Route.read logDevice)) :
    ∃ h warning, runWith .runtime s svc m start = conclude h warning result ∧
      OnlyLogged t.work h := by
  have hbody : (body .runtime s svc start).run { memory := m, work := start.host } =
      outcome (runRuntime s svc start) { memory := m, work := start.host } := rfl
  unfold runWith
  rw [hbody, hrun]
  dsimp only
  cases hk : KernelLog.attach start.host s.level with
  | error e => exact ⟨_, _, rfl, .refl t.work⟩
  | ok k => exact ⟨_, _, rfl, onlyLogged_write (hlog.trans (canonical_of_attach hk)) _⟩

/-- On the whole host, a command that creates nothing is seen in the log alone. -/
theorem onlyLogged_run (svc : Service σ) (m : σ) (hother : ¬ Creates start) :
    OnlyLogged start.host (run .runtime svc m start).host := by
  unfold run
  cases Settings.ofHost start.host with
  | error f =>
    rw [host_conclude]
    exact .refl start.host
  | ok s =>
    dsimp only
    rcases hrun : outcome (runRuntime s svc start) { memory := m, work := start.host } with
      ⟨result, t⟩
    have hwork : t.work = start.host := ((within_runRuntime hother).holds hrun).2.2
    obtain ⟨h, warning, hend, hlogged⟩ := runWith_eq hrun (by rw [hwork])
    rw [hend, host_conclude]
    exact hwork ▸ hlogged

theorem refused_of_check {argv : List String} {f : Failure}
    (hargv : start.argv.mapM readArgument = .ok argv) (hcheck : checkArguments argv = .error f)
    (r : Run σ Host) : ∃ ls, outcome (runRuntime s svc start) r =
      (.error ⟨"ascend docker runtime args check failed", f⟩, r.noted ls) := by
  unfold runRuntime
  rw [outcome_bind, outcome_note]
  dsimp only
  rw [outcome_bind, readArguments, outcome_demand, hargv]
  dsimp only [mapError_ok]
  rw [outcome_bind, outcome_demand, hcheck]
  exact ⟨_, rfl⟩

/-- How the runtime hands its command line on, started with a driver in the state `m`. -/
structure PassesOn (s : Settings) (svc : Service σ) (m : σ) (start : Start) : Prop where
  /-- Handing over is the last step. -/
  last : runRuntime s svc start = handOver s svc start >>= replace "failed to exec runtime"
  /-- The program is the one found on the search path. There is a first argument, and all others
  are handed over. -/
  handed : ∀ i q, outcome (handOver s svc start) { memory := m, work := start.host } = (.ok i, q) →
    ∃ first runtime, start.argv.mapM readArgument = .ok (first :: i.args) ∧
      Launch.find q.work s.runtimes ((start.host.value? "PATH").getD "") = .ok runtime ∧
      i.program = runtime.text
  /-- Nothing else is ever started, and the runtime ends in no other way than by starting it. -/
  started : ∀ result q,
    outcome (runRuntime s svc start) { memory := m, work := start.host } = (.ok result, q) →
    ∃ i q', outcome (handOver s svc start) { memory := m, work := start.host } = (.ok i, q') ∧
      result = .replaced i.program i.args
  /-- A command that creates nothing asks the driver nothing. -/
  quiet : ¬ Creates start → Frame.untouched.Holds { memory := m, work := start.host }
    (outcome (runRuntime s svc start) { memory := m, work := start.host }).2
  /-- Nor does it change a file. -/
  unchanged : ¬ Creates start → OnlyLogged start.host (run .runtime svc m start).host
  /-- Without any argument the command line is refused. -/
  refused : start.argv = [] →
    (outcome (runRuntime s svc start) { memory := m, work := start.host }).1 =
      .error ⟨"ascend docker runtime args check failed", .of .badCommandLine⟩

/-- Every command line is passed on as it came, on every host and whatever the driver answers. -/
theorem passesOn (s : Settings) (svc : Service σ) (m : σ) (start : Start) :
    PassesOn s svc m start where
  last := runRuntime_eq s svc start
  handed i q hr := by
    obtain ⟨argv, r, q', step, runtime, hargv, hcheck, hwork, hprepare, hq, hfind, rfl⟩ :=
      handOver_eq_ok hr
    have henvironment : q.work.environment = start.host.environment := by
      rw [hq, environment_of_prepare hprepare, hwork]
    have hpath : q.work.value? "PATH" = start.host.value? "PATH" := by
      rw [Host.value?, Host.value?, henvironment]
    cases argv with
    | nil =>
      rw [checkArguments_nil] at hcheck
      cases hcheck
    | cons first args => exact ⟨first, runtime, hargv, hpath ▸ hfind, rfl⟩
  started result q hr := by
    rw [runRuntime_eq] at hr
    obtain ⟨i, q', hi, hlast⟩ := outcome_bind_eq_ok.mp hr
    obtain ⟨path, hstart, rfl⟩ := replace_eq_ok hlast
    obtain ⟨argv, t, t', step, runtime, -, -, -, -, -, -, hinvocation⟩ := handOver_eq_ok hi
    have hpath : path = i.program := by
      rw [hinvocation] at hstart ⊢
      exact start_text hstart
    exact ⟨i, q', hi, by rw [hpath]⟩
  quiet hother := within_runRuntime hother _
  unchanged hother := onlyLogged_run svc m hother
  refused hnone := by
    have hargv : start.argv.mapM readArgument = .ok [] := by
      rw [hnone]
      rfl
    have hrefused : ∃ ls, outcome (runRuntime s svc start) ⟨m, start.host, [], []⟩ = _ :=
      refused_of_check hargv checkArguments_nil _
    obtain ⟨ls, hls⟩ := hrefused
    rw [hls]

/-- A host that has a runtime and a bundle. -/
def serving : Host where
  files := ⟨board.files.entries ++ [
    (["run"], Node.rootDirectory),
    (["run", "config.json"], ⟨.file ⟨Utf8.bytesOf
      { process := {}, root := { path := "rootfs" } : Spec }.text, 0⟩, 0o640, 0, 0⟩),
    (["sbin"], Node.rootDirectory),
    (["sbin", "runc"], ⟨.reporter, 0o755, 0, 0⟩)]⟩
  environment := [("PATH", "/sbin")]

/-- A command line typed in there. -/
def typed (argv : List String) : Start := { host := serving, argv := argv.map Utf8.bytesOf }

/-- A container is created, so the document changes before the runtime is handed over to. -/
theorem passesOn_serving : ∃ q, outcome
      (handOver places Scripted.standard (typed ["runc", "create", "--bundle", "/run", "c"]))
      { memory := [], work := serving } =
        (.ok ⟨"/sbin/runc", ["create", "--bundle", "/run", "c"]⟩, q) ∧
    q.work ≠ serving ∧
    PassesOn places Scripted.standard [] (typed ["runc", "create", "--bundle", "/run", "c"]) := by
  have hfirst : (outcome
        (handOver places Scripted.standard (typed ["runc", "create", "--bundle", "/run", "c"]))
        { memory := [], work := serving }).1 =
          .ok ⟨"/sbin/runc", ["create", "--bundle", "/run", "c"]⟩ ∧
      (outcome
        (handOver places Scripted.standard (typed ["runc", "create", "--bundle", "/run", "c"]))
        { memory := [], work := serving }).2.work ≠ serving := by
    decide +kernel
  exact ⟨_, outcome_eq_of_result hfirst.1, hfirst.2, passesOn places Scripted.standard [] _⟩

/-- With the bundle behind an equals sign, preparing the container would be the same on every host
and whatever the driver answers. Yet the command line is always refused before that. -/
theorem spelled_together {program flag value : String} {before after : List String}
    (hflag : flag = "--bundle" ∨ flag = "-b") (hvalue : value ≠ "")
    (hbefore : Arguments.settled before = true) (s : Settings) (svc : Service σ) :
    prepare s svc (Arguments.together program flag value before after) =
      prepare s svc (Arguments.apart program flag value before after) ∧
    ∀ (start : Start) (r : Run σ Host),
      start.argv.mapM readArgument = .ok (Arguments.together program flag value before after) →
      ∃ ls, outcome (runRuntime s svc start) r =
        (.error ⟨"ascend docker runtime args check failed", .of .badCommandLine⟩, r.noted ls) :=
  ⟨prepare_together hflag hvalue hbefore, fun _ r hargv =>
    refused_of_check hargv (checkArguments_together program flag value before after) r⟩

theorem spelled_together_serving :
    Arguments.together "runc" "--bundle" "/run" ["create"] ["c"] =
      ["runc", "create", "--bundle=/run", "c"] ∧
    ∃ ls, outcome (runRuntime places Scripted.standard (typed
        ["runc", "create", "--bundle=/run", "c"])) { memory := [], work := serving } =
      (.error ⟨"ascend docker runtime args check failed", .of .badCommandLine⟩,
        Run.noted { memory := [], work := serving } ls) := by
  have hargv : (typed ["runc", "create", "--bundle=/run", "c"]).argv.mapM readArgument =
      .ok (Arguments.together "runc" "--bundle" "/run" ["create"] ["c"]) := by
    decide +kernel
  exact ⟨by decide, (spelled_together (.inl rfl) (by decide) (by decide) places
    Scripted.standard).2 _ _ hargv⟩

/-- The spelling in two arguments is let through and the container is prepared; the other one is
refused, and the document stays as it is. -/
theorem spelled_apart_alone :
    ((outcome (runRuntime places Scripted.standard
        (typed ["runc", "create", "--bundle", "/run", "c"]))
        { memory := [], work := serving }).1 =
          .ok (.replaced "/sbin/runc" ["create", "--bundle", "/run", "c"]) ∧
      (outcome (runRuntime places Scripted.standard
        (typed ["runc", "create", "--bundle", "/run", "c"]))
        { memory := [], work := serving }).2.work ≠ serving) ∧
    (outcome (runRuntime places Scripted.standard
        (typed ["runc", "create", "--bundle=/run", "c"]))
        { memory := [], work := serving }).1 =
          .error ⟨"ascend docker runtime args check failed", .of .badCommandLine⟩ ∧
      (outcome (runRuntime places Scripted.standard
        (typed ["runc", "create", "--bundle=/run", "c"]))
        { memory := [], work := serving }).2.work = serving := by
  decide +kernel

end NpuRuntime.Command
