import NpuRuntime.Proofs.Creation.Storing
import NpuRuntime.Proofs.Creation.Taking
import NpuRuntime.Proofs.Creation.Writing
import NpuRuntime.Proofs.Mount.Flags
import NpuRuntime.Proofs.Trust.Alike

/-! # Reading a changed document again
The hook before a container's start reads the document that was changed when the container was
created. Two halves meet in the environment of the changed document: the change is made of it as the
hook will see it, and the hook sees all that was stored. -/
namespace NpuRuntime.Creation

open Query NpuRuntime.Bundle

variable {σ : Type} {s : Settings} {svc : Service σ}

/-- The run in which a command line had the document of the bundle `b` changed: from `old`, which
holds the document `spec`, to the text of what the run `q` left. -/
structure Changed (s : Settings) (svc : Service σ) (argv : List String) (r r' : Run σ Host)
    (b : String) (old : Content) (spec : Spec) (q : Run σ Spec) : Prop where
  bundle : ∃ a, Arguments.parse argv = .ok a ∧ a.create = true ∧ bundleOf r.work a = .ok b
  loaded : Spec.ofBytes old.toList = .ok spec
  ran : outcome (mutate r.work s svc) (r.over spec) = (.ok (), q)
  stored : ∃ real, Trust.validate r.work (PathText.join b State.documentName) documentPolicy =
      .ok real ∧ r.work.read (Route.ofPath real) = .ok old ∧
    Host.Rewrites r.work r'.work real old (Utf8.bytesOf q.work.text)

theorem exists_of_documentOf {h : Host} {argv : List String} {file : String}
    (hd : documentOf h argv = .ok (some file)) : ∃ a b, Arguments.parse argv = .ok a ∧
      a.create = true ∧ bundleOf h a = .ok b ∧ file = PathText.join b State.documentName := by
  unfold documentOf at hd
  cases ha : Arguments.parse argv with
  | error f => simp [ha] at hd
  | ok a =>
    cases hcreate : a.create with
    | false => simp [ha, hcreate] at hd
    | true =>
      simp only [ha, hcreate, if_true] at hd
      obtain ⟨b, hb, hfile⟩ := map_eq_ok.mp hd
      exact ⟨a, b, rfl, hcreate, hb, (Option.some.inj hfile).symm⟩

/-- The content that a file had before it was rewritten is what was read there. -/
theorem eq_of_read {h g : Host} {file : Path} {old content : Content} {new : List UInt8}
    (hd : h.files.Direct file) (hw : Host.Rewrites h g file old new)
    (hread : h.read (Route.ofPath file) = .ok content) : content = old := by
  obtain ⟨n, hn, hkind⟩ := Host.read_eq_ok hread
  obtain ⟨m, hm, hold, -⟩ := hw.rewritten
  rw [Trust.node?_of_direct hd hn] at hm
  obtain rfl := Option.some.inj hm
  obtain hfile | ⟨hreporter, -⟩ := hkind
  · exact Kind.file.inj (hfile.symm.trans hold)
  · cases hreporter.symm.trans hold

theorem read_of_changeAt {file : Path} {r r' : Run σ Host}
    (hr : outcome (changeAt s svc file) r = (.ok (), r')) :
    ∃ content, r.work.read (Route.ofPath file) = .ok content := by
  rw [outcome_changeAt] at hr
  cases hread : r.work.read (Route.ofPath file) with
  | error e =>
    have hload : Spec.load r.work file = .error (.ofSystem (.reading file.text) e) := by
      rw [Spec.load, hread]
    rw [hload] at hr
    cases hr
  | ok content => exact ⟨content, rfl⟩

theorem exists_of_change {file : String} {r r' : Run σ Host}
    (hr : outcome (change s svc file) r = (.ok (), r')) :
    ∃ real old spec q, Trust.validate r.work file documentPolicy = .ok real ∧
      r.work.read (Route.ofPath real) = .ok old ∧ Spec.ofBytes old.toList = .ok spec ∧
      outcome (mutate r.work s svc) (r.over spec) = (.ok (), q) ∧
      Host.Rewrites r.work r'.work real old (Utf8.bytesOf q.work.text) := by
  unfold change at hr
  rw [outcome_bind, outcome_current] at hr
  dsimp only at hr
  rw [outcome_bind, outcome_ofExcept] at hr
  cases hv : Trust.validate r.work file documentPolicy with
  | error e =>
    rw [hv] at hr
    cases hr
  | ok real =>
    rw [hv] at hr
    dsimp only [mapError_ok] at hr
    obtain ⟨p, -, hcanonical, -⟩ := Trust.validate_eq_ok rfl hv
    have hdirect := Trust.direct_of_canonical hcanonical
    obtain ⟨f, q, hf, -⟩ | ⟨old, spec, q, t, hold, hmutate, hrewrites, ht⟩ :=
      changeAt_cases s svc hdirect
    · rw [hf] at hr
      cases hr
    · have hsame : t = r' := congrArg Prod.snd (ht.symm.trans hr)
      rw [hsame] at hrewrites
      obtain ⟨content, hread⟩ := read_of_changeAt hr
      obtain rfl := eq_of_read hdirect hrewrites hread
      exact ⟨real, content, spec, q, rfl, hread, hold, hmutate, hrewrites⟩

theorem exists_changed {argv : List String} {r r' : Run σ Host} {file : String}
    (hr : outcome (prepare s svc argv) r = (.ok (.changed file), r')) :
    ∃ b old spec q, file = PathText.join b State.documentName ∧
      Changed s svc argv r r' b old spec q := by
  rw [outcome_prepare] at hr
  cases hdocument : documentOf r.work argv with
  | error f =>
    rw [hdocument] at hr
    cases hr
  | ok found =>
    cases found with
    | none =>
      rw [hdocument] at hr
      cases hr
    | some path =>
      rw [hdocument] at hr
      rcases hchange : outcome (change s svc path) r with ⟨f | ⟨⟩, t⟩
      · simp [hchange] at hr
      · simp only [hchange] at hr
        cases hr
        obtain ⟨real, old, spec, q, hv, hread, hold, hmutate, hrewrites⟩ :=
          exists_of_change hchange
        obtain ⟨a, b, ha, hcreate, hb, rfl⟩ := exists_of_documentOf hdocument
        exact ⟨b, old, spec, q, rfl, ⟨a, ha, hcreate, hb⟩, hold, hmutate, real, hv, hread,
          hrewrites⟩

/-- The largest document that is trusted, in bytes. -/
def maxDocument : Nat := Policy.defaultSizeLimit * Trust.megabyte

/-- The file at the end of a path has its new content on every host with the same files. -/
theorem exists_node_rewritten {h g k : Host} {p real : Path} {old : Content} {new : List UInt8}
    {n : Node} (hw : Host.Rewrites h g real old new) (hfiles : k.files = g.files)
    (ha : h.Alike k) (hcanonical : h.canonical (Route.ofPath p) = .ok real)
    (hn : h.node (Route.ofPath real) = .ok n) :
    ∃ m, k.node (Route.ofPath real) = .ok m ∧ m.kind = .file ⟨new, 0⟩ := by
  obtain ⟨m, hm, -⟩ := Host.node_alike ha hn
  have hdirect := Trust.direct_of_canonical ((Host.canonical_alike ha _).trans hcanonical)
  have hfound := Trust.node?_of_direct hdirect hm
  obtain ⟨before, -, -, hafter⟩ := hw.rewritten
  rw [hfiles, hafter] at hfound
  cases hfound
  exact ⟨_, hm, rfl⟩

theorem load_of_read {k : Host} {real : Path} {w : Spec}
    (hread : k.read (Route.ofPath real) = .ok ⟨Utf8.bytesOf w.text, 0⟩)
    (hf : w.Fits Json.maxDepth) : Spec.load k real = .ok w := by
  unfold Spec.load
  rw [hread]
  dsimp only
  rw [Content.toList_stored]
  exact Spec.ofBytes_text hf

/-- A document that was stored where a trusted one stood is found and read as it is. -/
theorem ofState_rewritten {h g k : Host} {b : String} {real : Path} {old : Content}
    {w : Spec}
    (hv : Trust.validate h (PathText.join b State.documentName) documentPolicy = .ok real)
    (hread : h.read (Route.ofPath real) = .ok old)
    (hw : Host.Rewrites h g real old (Utf8.bytesOf w.text)) (hfiles : k.files = g.files)
    (ha : h.Alike k) (hf : w.Fits Json.maxDepth)
    (hsize : (Utf8.bytesOf w.text).length ≤ maxDocument) (hlines : w.env.length ≤ maxItems)
    (pid : Int) : Container.ofState k ⟨pid, b⟩ =
      .ok ⟨pid, PathText.join b w.root.path, w.env⟩ := by
  obtain ⟨p, -, hcanonical, -⟩ := Trust.validate_eq_ok rfl hv
  obtain ⟨n, hn, -⟩ := Host.read_eq_ok hread
  obtain ⟨m, hm, hkind⟩ := exists_node_rewritten hw hfiles ha hcanonical hn
  have hlength : m.size = (Utf8.bytesOf w.text).length := by
    simp only [Node.size, hkind, Content.size, Nat.add_zero]
  have hvalid := Trust.validate_alike ha hv fun found hfound _ mb hmb => by
    rw [hm] at hfound
    cases hfound
    cases hmb
    rw [hlength]
    exact hsize
  have hload := load_of_read (Host.read_alike ha hread hm hkind) hf
  unfold documentPolicy at hvalid
  unfold Container.ofState
  dsimp only
  rw [hvalid, mapError_ok]
  refine bind_eq_ok.mpr ⟨real, rfl, bind_eq_ok.mpr ⟨w, hload, ?_⟩⟩
  rw [Container.ofSpec, if_neg (Nat.not_lt.mpr hlines)]

/-- What the hook before the start makes, on the host `g`, of a document that a run from `r` to `q`
has changed. `state` is all that it is told of the container. -/
structure Remounts (h : Host) (s : Settings) (svc : Service σ) (r q : Run σ Spec) (g : Host)
    (state : State) : Prop where
  container : Container.ofState g state =
    .ok ⟨state.pid, PathText.join state.bundle q.work.root.path, q.work.env⟩
  readable : ∃ options, RuntimeOptions.parse
    (Invocation.valueOf q.work.env Environment.runtimeOptions) = .ok options
  failed : ∀ {τ ω : Type} (p : Settings) (t : Run τ ω) (f : Failure),
    (outcome (Invocation.prepare g p state) t).1 = .error f →
      f.stages.head? ≠ some Stage.options
  idle : ∀ {τ ω : Type} (p : Settings) (t : Run τ ω),
    (outcome (Invocation.prepare g p state) t).1 = .ok none ↔
      Invocation.valueOf r.work.env Environment.visibleDevices = ""
  bare : Invocation.valueOf r.work.env Environment.visibleDevices = "" →
    q.work.devices = r.work.devices
  taken : Invocation.valueOf r.work.env Environment.visibleDevices ≠ "" →
    ∃ stem ids, Took h s svc r q stem ids ∧
      ∀ {τ ω : Type} (p : Settings) (t : Run τ ω) (i : Invocation),
        (outcome (Invocation.prepare g p state) t).1 = .ok (some i) →
          (i.TellsSlices ↔ stem = sliceName)

/-- A container with the lines that a run left is mounted the way that the run took. -/
theorem remounts_of_container {h g : Host} {r q : Run σ Spec} {state : State}
    (hr : outcome (mutate h s svc) r = (.ok (), q))
    (hc : Container.ofState g state =
      .ok ⟨state.pid, PathText.join state.bundle q.work.root.path, q.work.env⟩) :
    Remounts h s svc r q g state := by
  obtain ⟨hleft, hbare⟩ := devices_of_invisible hr
  obtain ⟨read, hread⟩ := exists_options hr
  have hreadable := optionsOf_eq_ok.mp hread
  by_cases hvisible : Invocation.valueOf r.work.env Environment.visibleDevices = ""
  · have hnone {τ ω : Type} (p : Settings) (t : Run τ ω) :
        (outcome (Invocation.prepare g p state) t).1 = .ok none :=
      Invocation.prepare_of_invisible hc (hleft.mpr hvisible) t
    exact {
      container := hc
      readable := ⟨read, hreadable⟩
      failed := fun p t f hf => by simp [hnone p t] at hf
      idle := fun p t => iff_of_true (hnone p t) hvisible
      bare := hbare
      taken := fun hne => absurd hvisible hne }
  · obtain ⟨ids, options, htook, ho⟩ := exists_took hr hvisible
    have hcases {τ ω : Type} (p : Settings) (t : Run τ ω) :=
      Invocation.prepare_cases (s := p) hc (optionsOf_eq_ok.mp ho) (hleft.not.mpr hvisible) t
    exact {
      container := hc
      readable := ⟨read, hreadable⟩
      failed := fun p t f hf => by
        obtain ⟨e, he, hstage⟩ | ⟨mounts, hmounts⟩ := hcases p t
        · rw [he] at hf
          cases hf
          exact hstage
        · simp [hmounts] at hf
      idle := fun p t => by
        refine iff_of_false (fun hnone => ?_) hvisible
        obtain ⟨e, he, -⟩ | ⟨mounts, hmounts⟩ := hcases p t
        · simp [he] at hnone
        · simp [hmounts] at hnone
      bare := hbare
      taken := fun _ => by
        refine ⟨stemOf options, ids, htook, fun p t i hi => ?_⟩
        obtain ⟨e, he, -⟩ | ⟨mounts, hmounts⟩ := hcases p t
        · simp [he] at hi
        · rw [hmounts] at hi
          cases hi
          rw [Invocation.tellsSlices_iff, stemOf_eq_sliceName] }

/-- The hook before the start finds what the creation of the container left, if no number in the
old document was rounded and the new one is not too large. -/
theorem changed_remounts {argv : List String} {r r' : Run σ Host} {file : String}
    (hr : outcome (prepare s svc argv) r = (.ok (.changed file), r')) (hh : r.work.Sized) :
    ∃ b old v spec q, file = PathText.join b State.documentName ∧
      Changed s svc argv r r' b old spec q ∧ Json.ofBytes old.toList = .ok v ∧
      (v.Whole → (Utf8.bytesOf q.work.text).length ≤ maxDocument →
        q.work.env.length ≤ maxItems → ∀ (environment : List (String × String)) (pid : Int),
          Remounts r.work s svc (r.over spec) q { r'.work with environment := environment }
            ⟨pid, b⟩) := by
  obtain ⟨b, old, spec, q, hfile, hchanged⟩ := exists_changed hr
  obtain ⟨v, hv, -, hfits⟩ := Spec.exists_of_ofBytes hchanged.loaded
  obtain ⟨real, hvalid, hread, hrewrites⟩ := hchanged.stored
  refine ⟨b, old, v, spec, q, hfile, hchanged, hv, fun hwhole hsize hlines environment pid => ?_⟩
  have hf : q.work.Fits Json.maxDepth := fits_mutate hh hchanged.ran (hfits hwhole)
  have hfiles : ({ r'.work with environment := environment } : Host).files = r'.work.files := rfl
  have halike : r.work.Alike { r'.work with environment := environment } :=
    ⟨hrewrites.alike.files, hrewrites.alike.cwd, hrewrites.alike.effective⟩
  exact remounts_of_container hchanged.ran
    (ofState_rewritten hvalid hread hrewrites hfiles halike hf hsize hlines pid)

/-- Through the link the hook finds the slice that the creation made. -/
theorem changed_remounts_bundled : ∃ r' q, outcome
      (prepare places Scripted.standard ["runc", "create", "--bundle=/var/run", "c"])
      { memory := [], work := bundled } = (.ok (.changed "/var/run/config.json"), r') ∧
    bundled.Sized ∧
    Invocation.valueOf (asking "NODRV").env Environment.visibleDevices ≠ "" ∧
    Remounts bundled places Scripted.standard { memory := [], work := asking "NODRV" } q
      { r'.work with environment := [] } ⟨7, "/var/run"⟩ := by
  have hfirst : (outcome
      (prepare places Scripted.standard ["runc", "create", "--bundle=/var/run", "c"])
      { memory := [], work := bundled }).1 = .ok (.changed "/var/run/config.json") := by
    decide +kernel
  have hsized : bundled.Sized := by decide
  rcases hrun : outcome
      (prepare places Scripted.standard ["runc", "create", "--bundle=/var/run", "c"])
      { memory := [], work := bundled } with ⟨result, r'⟩
  rw [hrun] at hfirst
  obtain rfl : result = .ok (.changed "/var/run/config.json") := hfirst
  obtain ⟨b, old, v, spec, q, hfile, hchanged, hv, hremounts⟩ := changed_remounts hrun hsized
  -- Everything that the run found is what stands in the bundle.
  obtain ⟨a, ha, -, hb⟩ := hchanged.bundle
  have hargs : Arguments.parse ["runc", "create", "--bundle=/var/run", "c"] =
      .ok ⟨some "/var/run", true⟩ := by decide
  rw [hargs] at ha
  cases ha
  cases hb
  obtain ⟨real, hvalid, -, hrewrites⟩ := hchanged.stored
  have hreal : Trust.validate bundled (PathText.join "/var/run" State.documentName)
      documentPolicy = .ok ["run", "config.json"] := by decide +kernel
  rw [hreal] at hvalid
  cases hvalid
  have hnode : bundled.files.node? ["run", "config.json"] =
      some ⟨.file ⟨Utf8.bytesOf (asking "NODRV").text, 0⟩, 0o640, 0, 7⟩ := rfl
  obtain ⟨n, hn, hkind, -⟩ := hrewrites.rewritten
  rw [hnode] at hn
  obtain rfl := Option.some.inj hn
  obtain rfl := Kind.file.inj hkind
  have hdocument : Spec.ofBytes (Utf8.bytesOf (asking "NODRV").text) = .ok (asking "NODRV") ∧
      (Json.ofBytes (Utf8.bytesOf (asking "NODRV").text)).toOption.any
        (fun v => decide v.Whole) = true := by
    decide +kernel
  obtain ⟨hloaded, hwhole⟩ := hdocument
  have hspec := hchanged.loaded
  rw [Content.toList_stored] at hspec hv
  rw [hloaded] at hspec
  cases hspec
  rw [hv] at hwhole
  have hlimits : (outcome (mutate bundled places Scripted.standard)
        { memory := [], work := asking "NODRV" }).2.work.text.utf8ByteSize ≤ maxDocument ∧
      (outcome (mutate bundled places Scripted.standard)
        { memory := [], work := asking "NODRV" }).2.work.env.length ≤ maxItems := by
    decide +kernel
  have hmutate : outcome (mutate bundled places Scripted.standard)
      { memory := [], work := asking "NODRV" } = (.ok (), q) := hchanged.ran
  rw [hmutate, ← Utf8.length_bytesOf] at hlimits
  exact ⟨r', q, rfl, hsized, by decide,
    hremounts (of_decide_eq_true hwhole) hlimits.1 hlimits.2 [] 7⟩

end NpuRuntime.Creation
