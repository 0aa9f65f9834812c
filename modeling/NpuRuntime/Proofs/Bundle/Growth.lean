import NpuRuntime.Proofs.Bundle.Document

/-! # Documents that grow
Adding devices leaves a document as it was but for the devices and rules behind the old ones. What
no step names is kept in one view, whether or not the sections around it are there. -/
namespace NpuRuntime.Bundle

open Json (Members)

/-- The root file system, and the members of each part that are not named here. -/
structure Rest where
  root : Root
  document : Members
  process : Members
  hooks : Members
  linux : Members
  resources : Members
  deriving DecidableEq, Repr

namespace Spec

def rest (s : Spec) : Rest where
  root := s.root
  document := s.other
  process := s.process.other
  hooks := (s.hooks.map Hooks.other).getD []
  linux := (s.linux.map Linux.other).getD []
  resources := ((s.linux.bind Linux.resources).map Resources.other).getD []

@[simp] theorem rest_withEnv (s : Spec) (env : Environment.Lines) : (s.withEnv env).rest = s.rest :=
  rfl

@[simp] theorem rest_addPrestart (s : Spec) (h : Hook) : (s.addPrestart h).rest = s.rest := by
  cases hh : s.hooks <;> simp [addPrestart, withPrestart, rest, hh]

@[simp] theorem rest_addPoststop (s : Spec) (h : Hook) : (s.addPoststop h).rest = s.rest := by
  cases hh : s.hooks <;> simp [addPoststop, withPoststop, rest, hh]

theorem rest_withDevices (s : Spec) (ds : List Device) : (s.withDevices ds).rest = s.rest := by
  cases hl : s.linux <;> simp [withDevices, rest, hl]

theorem rest_addRule (s : Spec) (r : Rule) : (s.addRule r).rest = s.rest := by
  rcases hl : s.linux with _ | linux
  · simp [addRule, withRules, rest, hl]
  · cases hr : linux.resources <;> simp [addRule, withRules, rest, hl, hr]

@[simp] theorem rest_addDevice (s : Spec) (d : Device) : (s.addDevice d).rest = s.rest := by
  unfold addDevice
  split
  · rfl
  · rw [rest_addRule, rest_withDevices]

@[simp] theorem poststop_addPrestart (s : Spec) (h : Hook) :
    (s.addPrestart h).poststop = s.poststop := poststop_withPrestart s _

@[simp] theorem poststop_addDevice (s : Spec) (d : Device) :
    (s.addDevice d).poststop = s.poststop := by
  unfold addDevice
  split <;> rfl

theorem devices_prefix_addDevice (s : Spec) (d : Device) :
    s.devices <+: (s.addDevice d).devices := by
  rw [devices_addDevice]
  split
  · exact List.prefix_rfl
  · exact List.prefix_append s.devices [d]

theorem rules_prefix_addRule (s : Spec) (r : Rule) : s.rules <+: (s.addRule r).rules := by
  unfold addRule
  rw [rules_withRules]
  split
  · exact List.prefix_rfl
  · exact List.prefix_append s.rules [r]

theorem rules_prefix_addDevice (s : Spec) (d : Device) : s.rules <+: (s.addDevice d).rules := by
  unfold addDevice
  split
  · exact List.prefix_rfl
  · have hadded := rules_prefix_addRule (s.withDevices (s.devices ++ [d])) d.rule
    rwa [rules_withDevices] at hadded

theorem rules_addDevice (s : Spec) (d : Device) : (s.addDevice d).rules =
    if s.hasDevice d.path || s.rules.contains d.rule then s.rules else s.rules ++ [d.rule] := by
  unfold addDevice
  cases s.hasDevice d.path with
  | true => rfl
  | false =>
    rw [if_neg Bool.false_ne_true, Bool.false_or, addRule, rules_withRules, rules_withDevices]

end Spec

/-- Only devices and rules were added, behind the old ones. -/
structure Grows (u w : Spec) : Prop where
  env : w.env = u.env
  prestart : w.prestart = u.prestart
  poststop : w.poststop = u.poststop
  rest : w.rest = u.rest
  devices : u.devices <+: w.devices
  rules : u.rules <+: w.rules

namespace Grows

variable {u v w : Spec}

theorem refl (w : Spec) : Grows w w :=
  ⟨rfl, rfl, rfl, rfl, List.prefix_rfl, List.prefix_rfl⟩

theorem trans (huv : Grows u v) (hvw : Grows v w) : Grows u w where
  env := hvw.env.trans huv.env
  prestart := hvw.prestart.trans huv.prestart
  poststop := hvw.poststop.trans huv.poststop
  rest := hvw.rest.trans huv.rest
  devices := huv.devices.trans hvw.devices
  rules := huv.rules.trans hvw.rules

theorem addDevice (w : Spec) (d : Device) : Grows w (w.addDevice d) where
  env := Spec.env_addDevice w d
  prestart := Spec.prestart_addDevice w d
  poststop := Spec.poststop_addDevice w d
  rest := Spec.rest_addDevice w d
  devices := Spec.devices_prefix_addDevice w d
  rules := Spec.rules_prefix_addDevice w d

theorem hasDevice (huw : Grows u w) {path : String} (hp : u.hasDevice path = true) :
    w.hasDevice path = true := by
  obtain ⟨added, hadded⟩ := huw.devices
  rw [Spec.hasDevice, ← hadded, List.any_append, Bool.or_eq_true]
  exact .inl hp

end Grows

end NpuRuntime.Bundle
