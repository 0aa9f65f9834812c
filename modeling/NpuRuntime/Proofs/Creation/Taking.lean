import NpuRuntime.Proofs.Creation.Adding
import NpuRuntime.Proofs.Creation.Steps
import NpuRuntime.Proofs.Creation.Wanting

/-! # Nodes taken from the host
The selected devices of a document are nodes of the host: those of whole devices, or those of slices
if the options tell so. A document that selects no device gets none. -/
namespace NpuRuntime.Creation

open Query NpuRuntime.Bundle

variable {σ : Type} {h : Host} {s : Settings} {svc : Service σ}

theorem devicePath_injective {i j : Nat} (hp : devicePath i = devicePath j) : i = j := by
  rw [devicePath_eq, devicePath_eq, String.append_right_inj] at hp
  have hnumber := congrArg Text.natural? hp
  rw [Text.natural?_toString, Text.natural?_toString] at hnumber
  exact Option.some.inj hnumber

/-- The host has a node for a device, and that node stands in the new document, unless the device's
path was taken in the old one. -/
def Placed (h : Host) (host : Nat → String) (u w : Spec) (id : Nat) : Prop :=
  ∃ d, Device.ofHost h (host id) = .ok d ∧ (u.hasDevice (devicePath id) = false →
    named (deviceName ++ toString id) d ∈ w.devices)

namespace Placed

variable {host : Nat → String} {u v w : Spec} {id : Nat}

theorem grows (hp : Placed h host u v id) (hg : v.devices <+: w.devices) :
    Placed h host u w id := by
  obtain ⟨d, hd, hmem⟩ := hp
  exact ⟨d, hd, fun hfree => hg.subset (hmem hfree)⟩

/-- What was done before to other paths is of no account. -/
theorem before (hp : Placed h host v w id)
    (hv : v.hasDevice (devicePath id) = u.hasDevice (devicePath id)) : Placed h host u w id := by
  obtain ⟨d, hd, hmem⟩ := hp
  exact ⟨d, hd, fun hfree => hmem (hv.trans hfree)⟩

end Placed

theorem hasDevice_addDevice_of_ne {u : Spec} {d : Device} {path : String} (hne : d.path ≠ path) :
    (u.addDevice d).hasDevice path = u.hasDevice path := by
  rw [Spec.hasDevice, Spec.devices_addDevice]
  split
  · rfl
  · rw [List.any_append, List.any_cons, List.any_nil, Bool.or_false, beq_eq_false_iff_ne.mpr hne,
      Bool.or_false, Spec.hasDevice]

/-- The step for one device puts its node there, and takes no path but the device's own. -/
theorem placed_addNumbered {host : Nat → String} {id : Nat} {r r' : Run σ Spec}
    (hr : outcome (addNumbered h host id) r = (.ok (), r')) :
    Placed h host r.work r'.work id ∧ r.work.devices <+: r'.work.devices ∧
      ∀ other, other ≠ id →
        r'.work.hasDevice (devicePath other) = r.work.hasDevice (devicePath other) := by
  rw [addNumbered, outcome_mapFailure_eq_ok] at hr
  cases hd : Device.ofHost h (host id) with
  | error f => simp [addNode_of_error hd] at hr
  | ok d =>
    obtain ⟨ls, hls⟩ := addNode_of_ok (deviceName ++ toString id) hd r
    rw [hls] at hr
    cases hr
    refine ⟨⟨d, hd, fun hfree => ?_⟩, Spec.devices_prefix_addDevice _ _, fun other hne => ?_⟩
    · change _ ∈ (r.work.addDevice (named (deviceName ++ toString id) d)).devices
      have hpath : r.work.hasDevice (named (deviceName ++ toString id) d).path = false := hfree
      rw [Spec.devices_addDevice, hpath, if_neg Bool.false_ne_true]
      exact List.mem_append_right _ (List.mem_singleton_self _)
    · exact hasDevice_addDevice_of_ne fun hp => hne (devicePath_injective hp).symm

/-- By induction on the numbers: a node stays where it is put, and no other number's path is taken
before its turn. -/
theorem placed_forM {host : Nat → String} {ids : List Nat} {r r' : Run σ Spec}
    (hr : outcome (ids.forM (addNumbered h host)) r = (.ok (), r')) :
    r.work.devices <+: r'.work.devices ∧ ∀ id ∈ ids, Placed h host r.work r'.work id := by
  induction ids generalizing r with
  | nil =>
    cases hr
    exact ⟨List.prefix_rfl, fun _ hid => absurd hid List.not_mem_nil⟩
  | cons first ids ih =>
    obtain ⟨⟨⟩, q, hfirst, hrest⟩ := outcome_bind_eq_ok.mp hr
    obtain ⟨hplaced, hgrows, hothers⟩ := placed_addNumbered hfirst
    obtain ⟨hlater, hall⟩ := ih hrest
    refine ⟨hgrows.trans hlater, fun id hid => ?_⟩
    by_cases hne : id = first
    · rw [hne]
      exact hplaced.grows hlater
    · have hmem : id ∈ ids := (List.mem_cons.mp hid).resolve_left hne
      exact (hall id hmem).before (hothers id hne)

/-- How the names of the nodes start that the options call for. -/
def stemOf (options : RuntimeOptions) : String :=
  if options.isVirtual then sliceName else deviceName

theorem stemOf_eq_sliceName {options : RuntimeOptions} :
    stemOf options = sliceName ↔ options.isVirtual = true := by
  have hne : deviceName ≠ sliceName := by decide
  unfold stemOf
  split
  · next hv => exact iff_of_true rfl hv
  · next hv => exact iff_of_false hne hv

theorem placed_addSelected {devices : Devices} {options : RuntimeOptions} {r r' : Run σ Spec}
    (hr : outcome (addSelected h s svc devices options) r = (.ok (), r')) :
    ∀ id ∈ devices.ids,
      Placed h (fun id => s.device (stemOf options ++ toString id)) r.work r'.work id := by
  obtain ⟨⟨⟩, q, hnote, hr⟩ := outcome_bind_eq_ok.mp hr
  obtain ⟨⟨⟩, t, hids, hmanager⟩ := outcome_bind_eq_ok.mp hr
  cases hnote
  have hgrows : Grows t.work r'.work := (covers_growing.addManagerNodes.holds hmanager).1
  obtain ⟨-, hall⟩ := placed_forM hids
  intro id hid
  exact (hall id hid).grows hgrows.devices

theorem devices_addSlice {r t : Run σ Spec} (hr : outcome (addSlice h s svc) r = (.ok (), t)) :
    t.work.devices = r.work.devices := by
  obtain ⟨-, rfl⟩ | ⟨request, slice, options, -, -, -, hwork⟩ := addSlice_eq_ok hr
  · rfl
  · rw [hwork]
    rfl

/-- Only a document that selects a device asks for a slice, and with one it selects that. -/
theorem visible_addSlice {r t : Run σ Spec} (hr : outcome (addSlice h s svc) r = (.ok (), t)) :
    Invocation.valueOf t.work.env Environment.visibleDevices = "" ↔
      Invocation.valueOf r.work.env Environment.visibleDevices = "" := by
  obtain ⟨-, rfl⟩ | ⟨request, slice, options, hw, -, -, hwork⟩ := addSlice_eq_ok hr
  · rfl
  · obtain ⟨text, htext, hparse⟩ := (wants_of_wanted hw).visible
    refine iff_of_false ?_ ?_
    · rw [hwork, visible_sliced]
      exact Text.toString_ne_empty _
    · rw [Invocation.valueOf, htext, Option.getD_some]
      rintro rfl
      have hempty : (Devices.parse "").toOption = none := by decide
      rw [hparse] at hempty
      cases hempty

theorem selected_eq_none {u : Spec} :
    selected u = .ok none ↔ Invocation.valueOf u.env Environment.visibleDevices = "" := by
  unfold selected
  constructor
  · intro hu
    by_contra hne
    simp only [if_neg hne] at hu
    cases hd : Devices.parse (Invocation.valueOf u.env Environment.visibleDevices) with
    | error f => simp [hd] at hu
    | ok devices =>
      cases ho : optionsOf u <;> simp [hd, ho, Except.map] at hu
  · intro he
    exact if_pos he

/-- A run from `r` to `q` took the nodes of the devices `ids` from those of the host whose names
start with `stem`. Both were read from the document that the device step met. -/
structure Took (h : Host) (s : Settings) (svc : Service σ) (r q : Run σ Spec) (stem : String)
    (ids : List Nat) : Prop where
  chosen : ∃ ra rb options, outcome (addHook h s) r = (.ok (), ra) ∧
    outcome (addSlice h s svc) ra = (.ok (), rb) ∧
    selected rb.work = .ok (some (⟨ids⟩, options)) ∧ stem = stemOf options
  some : ids ≠ []
  placed : ∀ id ∈ ids, Placed h (fun id => s.device (stem ++ toString id)) r.work q.work id

/-- A run changes nothing that tells whether a device is selected, and it adds no device if none
is. -/
theorem devices_of_invisible {r q : Run σ Spec} (hr : outcome (mutate h s svc) r = (.ok (), q)) :
    (Invocation.valueOf q.work.env Environment.visibleDevices = "" ↔
      Invocation.valueOf r.work.env Environment.visibleDevices = "") ∧
    (Invocation.valueOf r.work.env Environment.visibleDevices = "" →
      q.work.devices = r.work.devices) := by
  obtain ⟨ra, rb, rc, ha, -, hb, hc, rfl⟩ := mutate_eq_ok.mp hr
  have hhook := work_addHook ha
  have hkeeps : Keeps rb.work rc.work := (settles_addDevices.within.holds hc).1
  have hslice := visible_addSlice hb
  rw [hhook, env_withHook] at hslice
  refine ⟨?_, fun hnone => ?_⟩
  · change Invocation.valueOf (marked rc.work).env Environment.visibleDevices = "" ↔ _
    rw [(hkeeps.trans (keeps_marked rc.work)).valueOf_visible]
    exact hslice
  · rw [outcome_addDevices, selected_eq_none.mpr (hslice.mpr hnone)] at hc
    cases hc
    calc (marked rb.work).devices = rb.work.devices := devices_marked rb.work
      _ = (withHook s r.work).devices := (devices_addSlice hb).trans (congrArg Spec.devices hhook)
      _ = r.work.devices := devices_withHook s r.work

/-- A run that meets a selection takes the nodes for it, and the options that it went by can be read
from the document that it leaves. -/
theorem exists_took {r q : Run σ Spec} (hr : outcome (mutate h s svc) r = (.ok (), q))
    (hvisible : Invocation.valueOf r.work.env Environment.visibleDevices ≠ "") :
    ∃ ids options, Took h s svc r q (stemOf options) ids ∧ optionsOf q.work = .ok options := by
  obtain ⟨ra, rb, rc, ha, -, hb, hc, rfl⟩ := mutate_eq_ok.mp hr
  have hhook := work_addHook ha
  have hkeeps : Keeps rb.work rc.work := (settles_addDevices.within.holds hc).1
  have hmet : Invocation.valueOf rb.work.env Environment.visibleDevices ≠ "" := by
    rwa [Ne, visible_addSlice hb, hhook, env_withHook]
  obtain ⟨⟨ids⟩, options, hd, ho, hadded⟩ := exists_of_addDevices hmet hc
  have hselected : selected rb.work = .ok (some (⟨ids⟩, options)) := by
    unfold selected
    simp only [if_neg hmet, hd, ho, Except.map]
  have hdevices : rb.work.devices = r.work.devices := by
    rw [devices_addSlice hb, hhook, devices_withHook]
  refine ⟨ids, options, {
    chosen := ⟨ra, rb, options, ha, hb, hselected, rfl⟩
    some := Devices.ids_ne_nil_of_parse hd
    placed := fun id hid => ?_ }, ?_⟩
  · have hplaced := placed_addSelected hadded id hid
    have hmarked : rc.work.devices <+: (marked rc.work).devices :=
      devices_marked rc.work ▸ List.prefix_rfl
    refine (hplaced.grows hmarked).before ?_
    rw [Spec.hasDevice, Spec.hasDevice, hdevices]
  · change optionsOf (marked rc.work) = _
    rw [(hkeeps.trans (keeps_marked rc.work)).optionsOf_eq, ho]

theorem exists_options_of_wanted {u : Spec} {request : Option Slice.Request}
    (hw : wanted h s u = .ok request) : ∃ options, optionsOf u = .ok options := by
  unfold wanted at hw
  cases ho : optionsOf u with
  | error f => simp [ho] at hw
  | ok options => exact ⟨options, rfl⟩

/-- Whether or not a device is selected, the options in the document that a run leaves can be read:
the slice step has read them, or the device step after it. -/
theorem exists_options {r q : Run σ Spec} (hr : outcome (mutate h s svc) r = (.ok (), q)) :
    ∃ options, optionsOf q.work = .ok options := by
  by_cases hvisible : Invocation.valueOf r.work.env Environment.visibleDevices = ""
  · obtain ⟨ra, rb, rc, ha, -, hb, hc, rfl⟩ := mutate_eq_ok.mp hr
    have hkeeps : Keeps rb.work rc.work := (settles_addDevices.within.holds hc).1
    change ∃ options, optionsOf (marked rc.work) = .ok options
    rw [(hkeeps.trans (keeps_marked rc.work)).optionsOf_eq]
    have hmet : Invocation.valueOf rb.work.env Environment.visibleDevices = "" := by
      rwa [visible_addSlice hb, work_addHook ha, env_withHook]
    obtain ⟨hw, rfl⟩ | ⟨request, slice, options, -, -, -, hwork⟩ := addSlice_eq_ok hb
    · exact exists_options_of_wanted hw
    · rw [hwork, visible_sliced] at hmet
      exact absurd hmet (Text.toString_ne_empty _)
  · obtain ⟨ids, options, -, ho⟩ := exists_took hr hvisible
    exact ⟨options, ho⟩

end NpuRuntime.Creation
