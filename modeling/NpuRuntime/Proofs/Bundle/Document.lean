import NpuRuntime.Bundle.Spec

/-! # Changed documents
What each change of a document leaves as it was, and that a device is added once only. -/
namespace NpuRuntime.Bundle.Spec

variable (s : Spec)

@[simp] theorem env_addPrestart (h : Hook) : (s.addPrestart h).env = s.env := rfl

@[simp] theorem env_addPoststop (h : Hook) : (s.addPoststop h).env = s.env := rfl

@[simp] theorem env_addDevice (d : Device) : (s.addDevice d).env = s.env := by
  unfold addDevice
  split <;> rfl

@[simp] theorem prestart_addPrestart (h : Hook) : (s.addPrestart h).prestart = s.prestart ++ [h] :=
  rfl

@[simp] theorem prestart_addPoststop (h : Hook) : (s.addPoststop h).prestart = s.prestart :=
  prestart_withPoststop s _

@[simp] theorem prestart_addDevice (d : Device) : (s.addDevice d).prestart = s.prestart := by
  unfold addDevice
  split <;> rfl

theorem devices_addDevice (d : Device) : (s.addDevice d).devices =
    if s.hasDevice d.path then s.devices else s.devices ++ [d] := by
  unfold addDevice
  split
  · rfl
  · exact devices_withRules _ _

theorem hasDevice_addDevice (d : Device) : (s.addDevice d).hasDevice d.path = true := by
  rw [hasDevice, devices_addDevice]
  split
  · assumption
  · simp

theorem hasDevice_addDevice_of_hasDevice {s : Spec} {path : String} (h : s.hasDevice path = true)
    (d : Device) : (s.addDevice d).hasDevice path = true := by
  rw [hasDevice, devices_addDevice]
  split
  · exact h
  · rw [List.any_append, Bool.or_eq_true]
    exact .inl h

theorem addDevice_of_hasDevice {s : Spec} {d : Device} (h : s.hasDevice d.path = true) :
    s.addDevice d = s := if_pos h

end NpuRuntime.Bundle.Spec
