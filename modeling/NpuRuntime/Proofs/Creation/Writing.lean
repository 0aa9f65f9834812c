import NpuRuntime.Creation.Prepare
import NpuRuntime.Proofs.Creation.Steps
import NpuRuntime.Proofs.Host.Storing
import NpuRuntime.Proofs.Query.Run
import NpuRuntime.Proofs.Trust.Resolution

/-! # Writing a document back
Everything that can fail comes before the one write. So a run either leaves the host as it was, or
it has given the document behind the bundle its new text and done nothing else. -/
namespace NpuRuntime.Creation

open Query NpuRuntime.Bundle

variable {σ : Type} {s : Settings} {svc : Service σ}

theorem ofBytes_nil : Spec.ofBytes [] = .error ⟨[.specText], .document .truncated⟩ := by
  decide +kernel

/-- A document that could be read stands in a plain file. -/
theorem exists_of_load {h : Host} {file : Path} {spec : Spec} (hd : h.files.Direct file)
    (hload : Spec.load h file = .ok spec) : ∃ n old, h.files.node? file = some n ∧
      n.kind = .file old ∧ Spec.ofBytes old.toList = .ok spec := by
  unfold Spec.load at hload
  cases hread : h.read (Route.ofPath file) with
  | error e => simp [hread] at hload
  | ok old =>
    simp only [hread] at hload
    obtain ⟨n, hn, hkind | ⟨-, hempty⟩⟩ := Host.read_eq_ok hread
    · exact ⟨n, old, Trust.node?_of_direct hd hn, hkind, hload⟩
    · rw [hempty] at hload
      exact absurd (ofBytes_nil.symm.trans hload) (by simp)

theorem outcome_changeAt (s : Settings) (svc : Service σ) (file : Path) (r : Run σ Host) :
    outcome (changeAt s svc file) r = match Spec.load r.work file with
      | .error f => (.error f, r)
      | .ok spec => match outcome (mutate r.work s svc) (r.over spec) with
        | (.error f, q) => (.error f, q.over r.work)
        | (.ok (), q) => match r.work.writable (Route.ofPath file) with
          | .error e => (.error (.ofSystem (.opening file.text) e), q.over r.work)
          | .ok target => (.ok (), ((q.over r.work).working (r.work.store target
              (Utf8.bytesOf q.work.text))).noted
                [⟨.info, .mutation, "spec " ++ file.text ++ " updated"⟩]) := by
  unfold changeAt
  rw [outcome_bind, outcome_current]
  dsimp only
  rw [outcome_bind, outcome_ofExcept]
  cases Spec.load r.work file with
  | error f => rfl
  | ok spec =>
    dsimp only
    rw [outcome_bind, outcome_workingOn]
    rcases outcome (mutate r.work s svc) (r.over spec) with ⟨f | ⟨⟩, q⟩
    · rfl
    · dsimp only [Except.map]
      cases r.work.writable (Route.ofPath file) <;> rfl

/-- The host stays as it is, or the document was changed and then written to where it was. -/
theorem changeAt_cases (s : Settings) (svc : Service σ) {file : Path} {r : Run σ Host}
    (hd : r.work.files.Direct file) :
    (∃ f q, outcome (changeAt s svc file) r = (.error f, q) ∧ q.work = r.work) ∨
    ∃ old spec q r', Spec.ofBytes old.toList = .ok spec ∧
      outcome (mutate r.work s svc) (r.over spec) = (.ok (), q) ∧
      Host.Rewrites r.work r'.work file old (Utf8.bytesOf q.work.text) ∧
      outcome (changeAt s svc file) r = (.ok (), r') := by
  rw [outcome_changeAt]
  cases hload : Spec.load r.work file with
  | error f => exact .inl ⟨f, r, rfl, rfl⟩
  | ok spec =>
    dsimp only
    rcases hmutate : outcome (mutate r.work s svc) (r.over spec) with ⟨f | ⟨⟩, q⟩
    · exact .inl ⟨f, _, rfl, rfl⟩
    · dsimp only
      cases hw : r.work.writable (Route.ofPath file) with
      | error e => exact .inl ⟨_, _, rfl, rfl⟩
      | ok target =>
        obtain ⟨n, old, hn, hkind, hold⟩ := exists_of_load hd hload
        have htarget : target = file :=
          Trust.canonical_of_direct hd (Host.writable_eq_ok hw)
        refine .inr ⟨old, spec, q, _, hold, hmutate, ?_, rfl⟩
        rw [htarget]
        exact Host.rewrites_store hn hkind _

/-- The document that a path leads to was changed, and its text is all that is new on the host. -/
def Changes (s : Settings) (svc : Service σ) (file : String) (r r' : Run σ Host) : Prop :=
  ∃ p real old spec q, Trust.absolute r.work file = .ok p ∧
    r.work.canonical (Route.ofPath p) = .ok real ∧ Spec.ofBytes old.toList = .ok spec ∧
    outcome (mutate r.work s svc) (r.over spec) = (.ok (), q) ∧
    Host.Rewrites r.work r'.work real old (Utf8.bytesOf q.work.text)

theorem change_cases (s : Settings) (svc : Service σ) (file : String) (r : Run σ Host) :
    (∃ f q, outcome (change s svc file) r = (.error f, q) ∧ q.work = r.work) ∨
    ∃ r', outcome (change s svc file) r = (.ok (), r') ∧ Changes s svc file r r' := by
  unfold change
  rw [outcome_bind, outcome_current]
  dsimp only
  rw [outcome_bind, outcome_ofExcept]
  cases hv : Trust.validate r.work file documentPolicy with
  | error e => exact .inl ⟨_, r, rfl, rfl⟩
  | ok real =>
    obtain ⟨p, hp, hcanonical, -⟩ := Trust.validate_eq_ok rfl hv
    obtain hfailed | ⟨old, spec, q, r', hold, hmutate, hrewrites, hr'⟩ :=
      changeAt_cases s svc (Trust.direct_of_canonical hcanonical)
    · exact .inl hfailed
    · exact .inr ⟨r', hr', p, real, old, spec, q, hp, hcanonical, hold, hmutate, hrewrites⟩

/-- The file of the document that a command line creates a container from. -/
def documentOf (h : Host) (argv : List String) : Except Failure (Option String) :=
  match Arguments.parse argv with
  | .error f => .error (f.within .arguments)
  | .ok args =>
    if args.create then
      (bundleOf h args).map fun bundle => some (PathText.join bundle State.documentName)
    else .ok none

theorem outcome_prepare (argv : List String) (r : Run σ Host) : outcome (prepare s svc argv) r =
    match documentOf r.work argv with
    | .error f => (.error f, r)
    | .ok none => (.ok .passThrough,
        r.noted [⟨.debug, .mutation, "not a create command, passing through"⟩])
    | .ok (some file) => match outcome (change s svc file) r with
      | (.error f, q) => (.error (f.within (.specFile file)), q)
      | (.ok (), q) => (.ok (.changed file), q) := by
  unfold prepare documentOf
  rw [outcome_bind, outcome_ofExcept]
  cases Arguments.parse argv with
  | error f => rfl
  | ok args =>
    dsimp only [mapError_ok]
    cases args.create with
    | false => rfl
    | true =>
      simp only [Bool.not_true, Bool.false_eq_true, if_false, if_true]
      rw [outcome_bind, outcome_current]
      dsimp only
      rw [outcome_bind, outcome_ofExcept]
      cases bundleOf r.work args with
      | error f => rfl
      | ok bundle =>
        dsimp only [Except.map]
        rw [outcome_bind, outcome_mapFailure]
        rcases outcome (change s svc (PathText.join bundle State.documentName)) r with
          ⟨f | ⟨⟩, q⟩ <;> rfl

/-- The host stays as it is unless the answer is that a document was changed. -/
theorem work_of_prepare {argv : List String} {r r' : Run σ Host} {result : Except Failure Outcome}
    (hr : outcome (prepare s svc argv) r = (result, r'))
    (hnot : ∀ file, result ≠ .ok (.changed file)) : r'.work = r.work := by
  rw [outcome_prepare] at hr
  rcases hdocument : documentOf r.work argv with f | _ | file
  · rw [hdocument] at hr
    cases hr
    rfl
  · rw [hdocument] at hr
    cases hr
    rfl
  · simp only [hdocument] at hr
    obtain ⟨f, q, hq, hwork⟩ | ⟨q, hq, -⟩ := change_cases s svc file r
    · rw [hq] at hr
      cases hr
      exact hwork
    · rw [hq] at hr
      cases hr
      exact absurd rfl (hnot file)

/-- A document that the answer says was changed is the one that the command line names. -/
theorem changes_of_prepare {argv : List String} {r r' : Run σ Host} {file : String}
    (hr : outcome (prepare s svc argv) r = (.ok (.changed file), r')) :
    documentOf r.work argv = .ok (some file) ∧ Changes s svc file r r' := by
  rw [outcome_prepare] at hr
  rcases hdocument : documentOf r.work argv with f | _ | named
  · rw [hdocument] at hr
    cases hr
  · rw [hdocument] at hr
    cases hr
  · simp only [hdocument] at hr
    obtain ⟨f, q, hq, -⟩ | ⟨q, hq, hchanges⟩ := change_cases s svc named r
    · rw [hq] at hr
      cases hr
    · rw [hq] at hr
      cases hr
      exact ⟨rfl, hchanges⟩

/-- The host stays as it is unless the answer is that a document was changed. Then one file has new
content: the one that the document's path leads to. -/
theorem prepare_rewrites {argv : List String} {r r' : Run σ Host} {result : Except Failure Outcome}
    (hr : outcome (prepare s svc argv) r = (result, r')) :
    ((∀ file, result ≠ .ok (.changed file)) ∧ r'.work = r.work) ∨
    ∃ file, documentOf r.work argv = .ok (some file) ∧ result = .ok (.changed file) ∧
      Changes s svc file r r' := by
  by_cases hchanged : ∃ file, result = .ok (.changed file)
  · obtain ⟨file, rfl⟩ := hchanged
    obtain ⟨hdocument, hchanges⟩ := changes_of_prepare hr
    exact .inr ⟨file, hdocument, rfl, hchanges⟩
  · have hnot : ∀ file, result ≠ .ok (.changed file) := not_exists.mp hchanged
    exact .inl ⟨hnot, work_of_prepare hr hnot⟩

/-- A bundle behind a link, with a document that asks for a slice. -/
def bundled : Host where
  files := ⟨board.files.entries ++ [
    (["var"], Node.rootDirectory),
    (["var", "run"], ⟨.link "/run", 0o777, 0, 0⟩),
    (["run"], Node.rootDirectory),
    (["run", "config.json"], ⟨.file ⟨Utf8.bytesOf (asking "NODRV").text, 0⟩, 0o640, 0, 7⟩)]⟩

/-- Through the link the slice reaches the file, which keeps its mode and group. -/
theorem prepare_rewrites_bundled : ∃ r', outcome
      (prepare places Scripted.standard ["runc", "create", "--bundle=/var/run", "c"])
      { memory := [], work := bundled } = (.ok (.changed "/var/run/config.json"), r') ∧
    Changes places Scripted.standard "/var/run/config.json"
      { memory := [], work := bundled } r' ∧
    (r'.work.files.node? ["run", "config.json"]).map (fun n => (n.mode, n.gid)) =
      some (0o640, 7) := by
  have hfirst : (outcome
        (prepare places Scripted.standard ["runc", "create", "--bundle=/var/run", "c"])
        { memory := [], work := bundled }).1 = .ok (.changed "/var/run/config.json") ∧
      ((outcome (prepare places Scripted.standard ["runc", "create", "--bundle=/var/run", "c"])
        { memory := [], work := bundled }).2.work.files.node? ["run", "config.json"]).map
          (fun n => (n.mode, n.gid)) = some (0o640, 7) := by
    decide +kernel
  rcases hrun : outcome
      (prepare places Scripted.standard ["runc", "create", "--bundle=/var/run", "c"])
      { memory := [], work := bundled } with ⟨result, r'⟩
  rw [hrun] at hfirst
  obtain ⟨hok, hnode⟩ := hfirst
  obtain rfl : result = .ok (.changed "/var/run/config.json") := hok
  refine ⟨r', rfl, ?_, hnode⟩
  obtain ⟨hnot, -⟩ | ⟨file, -, hfile, hchanges⟩ := prepare_rewrites hrun
  · exact absurd rfl (hnot _)
  · cases hfile
    exact hchanges

end NpuRuntime.Creation
