import NpuRuntime.Proofs.Bundle.Growth
import NpuRuntime.Proofs.Creation.Nodes

/-! # Adding devices
What adding the visible devices keeps: any frame that one more device keeps, and that questions
keep. A run that succeeds has every selected device in its document. -/
namespace NpuRuntime.Creation

open Query NpuRuntime.Bundle

variable {σ : Type} {h : Host} {s : Settings} {svc : Service σ}

/-- A frame that holds over one more device of the host and over every question. -/
structure Spans (F : Frame σ Spec) (h : Host) (svc : Service σ) : Prop where
  device : ∀ (r : Run σ Spec) (d : Device), FromHost h d →
    F.Holds r (r.working (r.work.addDevice d))
  question : ∀ c : Call, c.isQuestion = true → F.Admits svc c

/-- The nodes that go with the driver's chips, for a driver that is started. -/
def addChipNodes (h : Host) (s : Settings) (svc : Service σ) : Edit σ Unit := do
  let chip ← mapFailure Failure.ofFault (chipName svc)
  let family := ChipFamily.ofName chip
  note ⟨.info, .mutation, "chip " ++ chip ++ ", device type " ++ family.name⟩
  if family = .ascend310B then addBoardNodes h s else addCommonNodes h s svc

namespace Spans

variable {F : Frame σ Spec}

theorem asks (hF : Spans F h svc) {ε α : Type} {a : Act σ Spec ε α} (ha : Asks svc a) :
    F.Within a := ha.within hF.question

theorem addNode (hF : Spans F h svc) (host name : String) : F.Within (addNode h host name) :=
  within_addNode hF.device host name

theorem tryNamed (hF : Spans F h svc) (name : String) : F.Within (tryNamed h s name) := by
  refine (hF.addNode (s.device name) name).attempt.bind fun tried => ?_
  cases tried with
  | ok => exact Frame.within_pure _
  | error f => exact Frame.within_note _

theorem addBoardNodes (hF : Spans F h svc) : F.Within (addBoardNodes h s) :=
  (Frame.within_forM _ hF.tryNamed).bind fun _ => (Frame.within_ofExcept _).bind fun _ =>
    (hF.addNode _ _).mapFailure _

theorem addCommonNodes (hF : Spans F h svc) : F.Within (addCommonNodes h s svc) := by
  refine ((hF.addNode _ _).mapFailure _).bind fun _ => ?_
  refine ((hF.asks .product).mapFailure _).bind fun product => ?_
  refine (Frame.within_note _).bind fun _ => ?_
  split
  · exact Frame.within_pure _
  · exact Frame.within_forM _ fun name => (hF.addNode (s.device name) name).mapFailure _

theorem addChipNodes (hF : Spans F h svc) : F.Within (addChipNodes h s svc) := by
  refine ((hF.asks .chipName).mapFailure _).bind fun chip => ?_
  refine (Frame.within_note _).bind fun _ => ?_
  split
  · exact hF.addBoardNodes
  · exact hF.addCommonNodes

end Spans

/-- The device step keeps what one more device keeps and the session for its nodes keeps. -/
theorem within_addDevices {F : Frame σ Spec} (hd : ∀ (r : Run σ Spec) (d : Device),
      FromHost h d → F.Holds r (r.working (r.work.addDevice d)))
    (hm : F.Within (addManagerNodes h s svc)) : F.Within (addDevices h s svc) := by
  have selected (devices : Devices) (options : RuntimeOptions) :
      F.Within (addSelected h s svc devices options) :=
    (Frame.within_note _).bind fun _ =>
      (Frame.within_forM _ fun _ => (within_addNode hd _ _).mapFailure _).bind fun _ => hm
  intro r
  rw [outcome_addDevices]
  split
  · exact F.refl r
  · exact F.refl r
  · exact selected _ _ r

/-- A frame that holds over one more device and over every call but one for a slice. -/
structure Covers (F : Frame σ Spec) (svc : Service σ) : Prop where
  device : ∀ (r : Run σ Spec) (d : Device), F.Holds r (r.working (r.work.addDevice d))
  call : ∀ c : Call, c.isCreate = false → F.Admits svc c

namespace Covers

variable {F : Frame σ Spec}

theorem spans (hF : Covers F svc) : Spans F h svc where
  device r d _ := hF.device r d
  question _ hc := hF.call _ (Call.isCreate_of_isQuestion hc)

theorem addManagerNodes (hF : Covers F svc) : F.Within (addManagerNodes h s svc) :=
  Frame.Within.withSession (hF.call _ rfl) (hF.call _ rfl) hF.spans.addChipNodes

/-- The whole device step keeps what one device and one question keep. -/
theorem addDevices (hF : Covers F svc) : F.Within (addDevices h s svc) :=
  within_addDevices (fun r d _ => hF.device r d) hF.addManagerNodes

end Covers

/-- The document grows by devices and rules, and no slice is asked for. -/
def growing : Frame σ Spec :=
  (Frame.work Grows Grows.refl Grows.trans).inter (Frame.calls fun c => c.isCreate = false)

theorem growing_addDevice (r : Run σ Spec) (d : Device) :
    growing.Holds r (r.working (r.work.addDevice d)) :=
  ⟨Grows.addDevice r.work d, [], by simp, by simp⟩

theorem covers_growing : Covers (growing : Frame σ Spec) svc where
  device := growing_addDevice
  call c hc := (Frame.admits_work svc c).inter (Frame.admits_calls svc hc)

/-- The path of a selected device inside the container. -/
def devicePath (id : Nat) : String := containerDirectory ++ "/" ++ (deviceName ++ toString id)

theorem devicePath_eq (id : Nat) : devicePath id = "/dev/davinci" ++ toString id := by
  have hdirectory : containerDirectory ++ "/" ++ deviceName = "/dev/davinci" := by decide
  rw [devicePath, ← String.append_assoc, hdirectory]

/-- The node of one device, by its number. -/
def addNumbered (h : Host) (host : Nat → String) (id : Nat) : Edit σ Unit :=
  mapFailure Failure.ofFault (addNode h (host id) (deviceName ++ toString id))

theorem hasDevice_of_addNumbered {host : Nat → String} {id : Nat} {r r' : Run σ Spec}
    (hr : outcome (addNumbered h host id) r = (.ok (), r')) :
    r'.work.hasDevice (devicePath id) = true := by
  rw [addNumbered, outcome_mapFailure_eq_ok] at hr
  cases hd : Device.ofHost h (host id) with
  | error f => simp [addNode_of_error hd] at hr
  | ok d =>
    obtain ⟨ls, hls⟩ := addNode_of_ok (deviceName ++ toString id) hd r
    rw [hls] at hr
    cases hr
    exact Spec.hasDevice_addDevice r.work (named (deviceName ++ toString id) d)

/-- Once one of the selected devices is there, those behind it do not take it away. -/
theorem hasDevice_of_forM {host : Nat → String} {ids : List Nat} {r r' : Run σ Spec}
    (hr : outcome (ids.forM (addNumbered h host)) r = (.ok (), r')) :
    ∀ id ∈ ids, r'.work.hasDevice (devicePath id) = true := by
  induction ids generalizing r with
  | nil => simp
  | cons first ids ih =>
    obtain ⟨⟨⟩, q, hfirst, hrest⟩ := outcome_bind_eq_ok.mp hr
    have hwithin : growing.Within (ids.forM (addNumbered (σ := σ) h host)) :=
      Frame.within_forM ids fun id =>
        (within_addNode (fun r d _ => growing_addDevice r d) (host id) _).mapFailure
          Failure.ofFault
    have hgrows : growing.Holds q r' := hwithin.holds hrest
    intro id hid
    rcases List.mem_cons.mp hid with rfl | hid
    · exact hgrows.1.hasDevice (hasDevice_of_addNumbered hfirst)
    · exact ih hrest id hid

theorem hasDevice_of_addSelected {devices : Devices} {options : RuntimeOptions}
    {r r' : Run σ Spec} (hr : outcome (addSelected h s svc devices options) r = (.ok (), r')) :
    ∀ id ∈ devices.ids, r'.work.hasDevice (devicePath id) = true := by
  obtain ⟨⟨⟩, q, -, hr⟩ := outcome_bind_eq_ok.mp hr
  obtain ⟨⟨⟩, t, hids, hmanager⟩ := outcome_bind_eq_ok.mp hr
  have hgrowing : growing.Holds t r' := covers_growing.addManagerNodes.holds hmanager
  intro id hid
  exact hgrowing.1.hasDevice (hasDevice_of_forM hids id hid)

end NpuRuntime.Creation
