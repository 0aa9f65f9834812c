import NpuRuntime.Proofs.Bundle.Growth
import NpuRuntime.Proofs.Creation.Settling

/-! # Nodes and the marker
Adding nodes settles: a path that is taken stays taken, and a node that was left out is left out
again. The marker is added at most once. -/
namespace NpuRuntime.Creation

open Query NpuRuntime.Bundle

variable {σ : Type} {h : Host} {s : Settings} {svc : Service σ}

/-- The device that a node of the host becomes inside the container. -/
def named (name : String) (d : Device) : Device :=
  { d with path := containerDirectory ++ "/" ++ name }

theorem addNode_of_error {host name : String} {f : Fault} (hf : Device.ofHost h host = .error f)
    (r : Run σ Spec) : outcome (addNode h host name) r = (.error f, r) := by
  rw [addNode, outcome_bind, outcome_ofExcept, hf]

/-- A node is told of exactly if its device was added. -/
theorem outcome_addNode {host : String} (name : String) {d : Device}
    (hd : Device.ofHost h host = .ok d) (r : Run σ Spec) : outcome (addNode h host name) r =
      (.ok (), (r.working (r.work.offer (named name d)).2).noted
        (if (r.work.offer (named name d)).1 then
          [⟨.debug, .mutation, "added " ++ host ++ " as " ++ name⟩] else [])) := by
  have hn : ∀ q : Run σ Spec, q = q.noted [] := fun q => by simp [Run.noted]
  change outcome _ r = (.ok (), (r.working (r.work.addDevice (named name d))).noted
    (if (!r.work.hasDevice (containerDirectory ++ "/" ++ name)) = true then _ else _))
  rw [addNode, outcome_bind, outcome_ofExcept, hd]
  simp only [outcome_bind, outcome_current, outcome_update]
  split
  · exact outcome_note _ _
  · exact congrArg (Prod.mk _) (hn _)

theorem addNode_of_ok {host : String} (name : String) {d : Device}
    (hd : Device.ofHost h host = .ok d) (r : Run σ Spec) : ∃ ls, outcome (addNode h host name) r =
      (.ok (), (r.working (r.work.addDevice (named name d))).noted ls) :=
  ⟨_, outcome_addNode name hd r⟩

/-- A device as it stands in a container: one of the host, under a path of its own. -/
def FromHost (h : Host) (d : Device) : Prop :=
  ∃ host name found, Device.ofHost h host = .ok found ∧ d = named name found

/-- A frame that one more device keeps is kept by the step that adds one. -/
theorem within_addNode {F : Frame σ Spec} (hF : ∀ (r : Run σ Spec) (d : Device), FromHost h d →
      F.Holds r (r.working (r.work.addDevice d)))
    (host name : String) : F.Within (addNode h host name) := by
  intro r
  cases hd : Device.ofHost h host with
  | error f =>
    rw [addNode_of_error hd]
    exact F.refl r
  | ok d =>
    obtain ⟨ls, hr⟩ := addNode_of_ok name hd r
    rw [hr]
    exact F.trans (hF r _ ⟨host, name, d, hd, rfl⟩) (F.noted _ ls)

theorem adding_addDevice (r : Run σ Spec) (d : Device) :
    adding.Holds r (r.working (r.work.addDevice d)) :=
  ⟨Keeps.addDevice r.work d, [], by simp, by simp⟩

/-- A node's path is taken from then on, or the step fails and nothing changes. -/
theorem settles_addNode (host name : String) :
    Settles svc (addNode h host name : Act σ Spec Fault Unit) where
  within := within_addNode (fun r d _ => adding_addDevice r d) host name
  again _ r r' x hr q hq := by
    cases hd : Device.ofHost h host with
    | error f => simp [addNode_of_error hd] at hr
    | ok d =>
      obtain ⟨ls, hls⟩ := addNode_of_ok name hd r
      obtain ⟨ks, hks⟩ := addNode_of_ok name hd q
      have hw : r.work.addDevice (named name d) = r'.work := by
        rw [hls] at hr
        exact congrArg (Run.work ∘ Prod.snd) hr
      have htaken : q.work.hasDevice (named name d).path = true :=
        hq.devices _ (hw ▸ Spec.hasDevice_addDevice _ _)
      rw [Spec.addDevice_of_hasDevice htaken] at hks
      exact ⟨_, hks, idle.noted q ks⟩

theorem tryNamed_of_error {name : String} {f : Fault}
    (hf : Device.ofHost h (s.device name) = .error f) (r : Run σ Spec) :
    outcome (tryNamed h s name) r = (.ok (), r.noted
      [⟨.warn, .mutation, "failed to add " ++ name ++ ": " ++ f.text⟩]) := by
  rw [tryNamed, outcome_bind, outcome_attempt, addNamed, addNode_of_error hf]
  rfl

theorem tryNamed_of_ok {name : String} {r r' : Run σ Spec}
    (hr : outcome (addNode h (s.device name) name) r = (.ok (), r')) :
    outcome (tryNamed h s name) r = (.ok (), r') := by
  rw [tryNamed, outcome_bind, outcome_attempt, addNamed, hr]
  rfl

/-- A node that could not be added is passed over again. -/
theorem settles_tryNamed (name : String) : Settles svc (tryNamed h s name : Edit σ Unit) where
  within := by
    have hn : Settles svc (addNode h (s.device name) name : Act σ Spec Fault Unit) :=
      settles_addNode _ _
    refine hn.within.attempt.bind fun tried => ?_
    cases tried with
    | ok => exact Frame.within_pure _
    | error f => exact Frame.within_note _
  again hs r r' x hr q hq := by
    cases hd : Device.ofHost h (s.device name) with
    | error f => exact ⟨_, tryNamed_of_error hd q, idle.noted q _⟩
    | ok d =>
      obtain ⟨ls, hls⟩ := addNode_of_ok name hd r
      obtain ⟨-, hr'⟩ := Prod.mk.inj ((tryNamed_of_ok hls).symm.trans hr)
      rw [← hr'] at hq
      obtain ⟨q', hq', hi⟩ := (settles_addNode _ _).again hs r _ () hls q hq
      exact ⟨q', tryNamed_of_ok hq', hi⟩

theorem settles_addBoardNodes : Settles svc (addBoardNodes h s : Edit σ Unit) :=
  (settles_forM _ settles_tryNamed).bind fun _ => (settles_ofExcept _).bind fun _ =>
    (settles_addNode _ _).mapFailure _

theorem settles_addCommonNodes : Settles svc (addCommonNodes h s svc) := by
  refine ((settles_addNode _ _).mapFailure _).bind fun _ => ?_
  refine ((settles_asks .product).mapFailure _).bind fun product => ?_
  refine (settles_note _).bind fun _ => ?_
  split
  · exact settles_pure _
  · exact settles_forM _ fun name => (settles_addNode (s.device name) name).mapFailure _

theorem settles_addManagerNodes : Settles svc (addManagerNodes h s svc) := by
  refine Settles.withSession (((settles_asks .chipName).mapFailure _).bind fun chip => ?_)
  refine (settles_note _).bind fun _ => ?_
  split
  · exact settles_addBoardNodes
  · exact settles_addCommonNodes

/-- What is added once the selection and the options have been read. -/
def addSelected (h : Host) (s : Settings) (svc : Service σ) (devices : Devices)
    (options : RuntimeOptions) : Edit σ Unit := do
  note ⟨.info, .mutation, "devices: " ++ showIds devices.ids⟩
  devices.ids.forM fun id => mapFailure Failure.ofFault <| addNode h
    (s.device ((if options.isVirtual then sliceName else deviceName) ++ toString id))
    (deviceName ++ toString id)
  addManagerNodes h s svc

/-- The selection and the options of a document; none if it makes no device visible. -/
def selected (spec : Spec) : Except Failure (Option (Devices × RuntimeOptions)) :=
  let visible := Invocation.valueOf spec.env Environment.visibleDevices
  if visible = "" then .ok none
  else match Devices.parse visible with
    | .error f => .error (.ofFault f)
    | .ok devices => (optionsOf spec).map fun options => some (devices, options)

theorem outcome_addDevices (r : Run σ Spec) : outcome (addDevices h s svc) r =
    match selected r.work with
    | .error f => (.error f, r)
    | .ok none => (.ok (), r)
    | .ok (some (devices, options)) => outcome (addSelected h s svc devices options) r := by
  unfold addDevices selected
  rw [outcome_bind, outcome_current]
  dsimp only
  split
  · rfl
  · rw [outcome_bind, outcome_ofExcept]
    cases Devices.parse (Invocation.valueOf r.work.env Environment.visibleDevices) with
    | error f => rfl
    | ok devices =>
      dsimp only [mapError_ok]
      rw [outcome_bind, outcome_ofExcept]
      cases optionsOf r.work <;> rfl

/-- A document that makes a device visible has a selection and options that could be read. -/
theorem exists_of_addDevices {r r' : Run σ Spec}
    (hvisible : Invocation.valueOf r.work.env Environment.visibleDevices ≠ "")
    (hr : outcome (addDevices h s svc) r = (.ok (), r')) : ∃ devices options,
      Devices.parse (Invocation.valueOf r.work.env Environment.visibleDevices) = .ok devices ∧
      optionsOf r.work = .ok options ∧
      outcome (addSelected h s svc devices options) r = (.ok (), r') := by
  rw [outcome_addDevices] at hr
  unfold selected at hr
  simp only [if_neg hvisible] at hr
  cases hd : Devices.parse (Invocation.valueOf r.work.env Environment.visibleDevices) with
  | error f => simp [hd] at hr
  | ok devices =>
    cases ho : optionsOf r.work with
    | error f => simp [hd, ho, Except.map] at hr
    | ok options =>
      simp only [hd, ho, Except.map] at hr
      exact ⟨devices, options, rfl, rfl, hr⟩

theorem settles_addSelected (devices : Devices) (options : RuntimeOptions) :
    Settles svc (addSelected h s svc devices options) :=
  (settles_note _).bind fun _ =>
    (settles_forM _ fun _ => (settles_addNode _ _).mapFailure _).bind fun _ =>
      settles_addManagerNodes

theorem Keeps.selected_eq {u w : Spec} (huw : Keeps u w) : selected w = selected u := by
  rw [selected, selected, huw.valueOf_visible, huw.optionsOf_eq]

theorem settles_addDevices : Settles svc (addDevices h s svc) := by
  have within : adding.Within (addDevices h s svc) := by
    intro r
    rw [outcome_addDevices]
    split
    · exact adding.refl r
    · exact adding.refl r
    · exact (settles_addSelected _ _).within r
  refine ⟨within, fun hs r r' x hr q hq => ?_⟩
  have hk : Keeps r.work q.work := (within.holds hr).1.trans hq
  rw [outcome_addDevices] at hr
  rw [outcome_addDevices, hk.selected_eq]
  rcases hsel : selected r.work with f | _ | ⟨devices, options⟩
  · simp [hsel] at hr
  · exact ⟨q, rfl, idle.refl q⟩
  · rw [hsel] at hr
    exact (settles_addSelected devices options).again hs r r' x hr q hq

/-- A document with the marker, if it is the device plugin's. -/
def marked (spec : Spec) : Spec :=
  if isPlugin spec.env && !spec.env.contains Environment.pluginMarker then
    spec.withEnv (spec.env ++ [Environment.pluginMarker])
  else spec

theorem marked_cases (spec : Spec) :
    marked spec = spec ∨ marked spec = spec.withEnv (spec.env ++ [Environment.pluginMarker]) := by
  unfold marked
  split
  · exact .inr rfl
  · exact .inl rfl

theorem poststop_marked (spec : Spec) : (marked spec).poststop = spec.poststop := by
  unfold marked
  split <;> rfl

theorem devices_marked (spec : Spec) : (marked spec).devices = spec.devices := by
  unfold marked
  split <;> rfl

/-- The marker is no line of a name that does not fit it. -/
theorem filter_marked {name : String}
    (hn : Environment.isNamed name Environment.pluginMarker = false) (spec : Spec) :
    (marked spec).env.filter (Environment.isNamed name) =
      spec.env.filter (Environment.isNamed name) := by
  rcases marked_cases spec with hm | hm
  · rw [hm]
  · rw [hm, Spec.env_withEnv, List.filter_append]
    simp [hn]

theorem prestart_marked (spec : Spec) : (marked spec).prestart = spec.prestart := by
  unfold marked
  split <;> rfl

theorem rules_marked (spec : Spec) : (marked spec).rules = spec.rules := by
  unfold marked
  split <;> rfl

theorem rest_marked (spec : Spec) : (marked spec).rest = spec.rest := by
  unfold marked
  split
  · exact Spec.rest_withEnv spec _
  · rfl

theorem getElem?_marked {spec : Spec} {i : Nat} {l : String} (hl : spec.env[i]? = some l) :
    (marked spec).env[i]? = some l := by
  rcases marked_cases spec with hm | hm
  · rw [hm, hl]
  · have hlt : i < spec.env.length := (List.getElem?_eq_some_iff.mp hl).1
    rw [hm, Spec.env_withEnv, List.getElem?_append_left hlt, hl]

theorem length_marked (spec : Spec) : (marked spec).env.length ≤ spec.env.length + 1 := by
  rcases marked_cases spec with hm | hm
  · rw [hm]
    exact Nat.le_succ _
  · rw [hm, Spec.env_withEnv]
    simp

theorem outcome_addMarker (r : Run σ Spec) :
    outcome addMarker r = (.ok (), r.working (marked r.work)) := rfl

theorem keeps_marked (spec : Spec) : Keeps spec (marked spec) := by
  unfold marked
  split
  · exact .marked spec
  · exact .refl spec

theorem marked_marked (spec : Spec) : marked (marked spec) = marked spec := by
  by_cases hm : (isPlugin spec.env && !spec.env.contains Environment.pluginMarker) = true
  · have hw : marked spec = spec.withEnv (spec.env ++ [Environment.pluginMarker]) := if_pos hm
    have hc : Environment.pluginMarker ∈ (marked spec).env := by
      rw [hw, Spec.env_withEnv]
      simp
    exact if_neg (by simp [hc])
  · have hw : marked spec = spec := if_neg hm
    rw [hw, hw]

end NpuRuntime.Creation
