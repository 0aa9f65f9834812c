import NpuRuntime.Proofs.Bundle.Document
import NpuRuntime.Proofs.Bundle.Stored

/-! # Changed documents
A document that is stored without loss still is after any of the changes made here, since what is
added has no members of other names and no numbers out of range. -/
namespace NpuRuntime.Bundle

open Json

variable {depth : Nat}

theorem Process.fits_succ {p : Process} : Process.form.Fits (depth + 1) p ↔
    (∀ env ∈ p.env, (Codec.list .text).Fits depth env) ∧ Unnamed Process.shape depth p.other := by
  simp [Form.fits_succ, form]

theorem Hook.fits_succ {h : Hook} : Hook.form.Fits (depth + 1) h ↔
    (∀ args ∈ h.args, (Codec.list .text).Fits depth args) ∧ Unnamed Hook.shape depth h.other := by
  simp [Form.fits_succ, form]

theorem Hooks.fits_succ {h : Hooks} : Hooks.form.Fits (depth + 1) h ↔
    (∀ hs ∈ h.prestart, Hook.form.codec.list.Fits depth hs) ∧
      (∀ hs ∈ h.poststop, Hook.form.codec.list.Fits depth hs) ∧
      Unnamed Hooks.shape depth h.other := by
  simp [Form.fits_succ, form, and_assoc]

theorem Rule.fits_succ {r : Rule} : Rule.form.Fits (depth + 1) r ↔
    (∀ n ∈ r.major, minInteger ≤ n ∧ n ≤ maxInteger) ∧
      (∀ n ∈ r.minor, minInteger ≤ n ∧ n ≤ maxInteger) ∧ Unnamed Rule.shape depth r.other := by
  simp [Form.fits_succ, form, and_assoc]

theorem Device.fits_succ {d : Device} : Device.form.Fits (depth + 1) d ↔
    (∀ n ∈ d.major, minInteger ≤ n ∧ n ≤ maxInteger) ∧
      (∀ n ∈ d.minor, minInteger ≤ n ∧ n ≤ maxInteger) ∧ (∀ n ∈ d.fileMode, n ≤ maxWord) ∧
      (∀ n ∈ d.uid, n ≤ maxWord) ∧ (∀ n ∈ d.gid, n ≤ maxWord) ∧
      Unnamed Device.shape depth d.other := by
  simp [Form.fits_succ, form, and_assoc]

theorem Resources.fits_succ {r : Resources} : Resources.form.Fits (depth + 1) r ↔
    (∀ rs ∈ r.devices, Rule.form.codec.list.Fits depth rs) ∧
      Unnamed Resources.shape depth r.other := by
  simp [Form.fits_succ, form]

theorem Linux.fits_succ {l : Linux} : Linux.form.Fits (depth + 1) l ↔
    (∀ ds ∈ l.devices, Device.form.codec.list.Fits depth ds) ∧
      (∀ r ∈ l.resources, Resources.form.Fits depth r) ∧ Unnamed Linux.shape depth l.other := by
  simp [Form.fits_succ, form, and_assoc]

theorem fits_texts (xs : List String) : (Codec.list .text).Fits (depth + 1) xs :=
  fun _ _ => trivial

theorem Hook.fits_start (path : String) (args : List String) :
    Hook.form.Fits (depth + 2) (Hook.start path args) := by
  rw [Hook.fits_succ]
  exact ⟨fun xs _ => fits_texts xs, Unnamed.nil Hook.shape⟩

/-- A rule has the numbers of its device. -/
theorem Device.fits_rule {d : Device} (h : Device.form.Fits (depth + 1) d) :
    Rule.form.Fits (depth + 1) d.rule := by
  rw [Device.fits_succ] at h
  rw [Rule.fits_succ]
  obtain ⟨hmajor, hminor, -⟩ := h
  exact ⟨hmajor, hminor, Unnamed.nil Rule.shape⟩

namespace Spec

variable {s : Spec}

theorem fits_succ : s.Fits (depth + 1) ↔ Process.form.Fits depth s.process ∧
    Root.form.Fits depth s.root ∧ (∀ h ∈ s.hooks, Hooks.form.Fits depth h) ∧
    (∀ l ∈ s.linux, Linux.form.Fits depth l) ∧ Unnamed Sections.shape depth s.other := by
  simp [Fits, sections, Form.fits_succ, Sections.form, and_assoc]

theorem fits_withEnv (h : s.Fits (depth + 3)) (env : Environment.Lines) :
    (s.withEnv env).Fits (depth + 3) := by
  rw [fits_succ, Process.fits_succ] at h ⊢
  obtain ⟨⟨-, hother⟩, hrest⟩ := h
  exact ⟨⟨fun xs _ => fits_texts xs, hother⟩, hrest⟩

theorem fits_hooks (h : s.Fits (depth + 2)) : Hooks.form.Fits (depth + 1) (s.hooks.getD {}) := by
  rw [fits_succ] at h
  obtain ⟨-, -, hhooks, -⟩ := h
  exact Form.fits_getD hhooks (Hooks.lawful.fits_init (by simp [Hooks.form]))

theorem fits_addPrestart (h : s.Fits (depth + 3)) {hook : Hook} (hh : Hook.form.Fits depth hook) :
    (s.addPrestart hook).Fits (depth + 3) := by
  have hsection : Hooks.form.Fits (depth + 2) (s.hooks.getD {}) := fits_hooks h
  have hlist : s.prestart = (s.hooks.getD {}).prestart.getD [] := by
    unfold prestart
    cases s.hooks <;> rfl
  rw [Hooks.fits_succ] at hsection
  rw [fits_succ] at h ⊢
  obtain ⟨hprestart, hpoststop, hother⟩ := hsection
  obtain ⟨hprocess, hroot, -, hrest⟩ := h
  refine ⟨hprocess, hroot, ?_, hrest⟩
  rintro _ ⟨⟩
  rw [Hooks.fits_succ, hlist]
  refine ⟨?_, hpoststop, hother⟩
  rintro _ ⟨⟩
  exact Codec.fits_append hprestart hh

theorem fits_addPoststop (h : s.Fits (depth + 3)) {hook : Hook} (hh : Hook.form.Fits depth hook) :
    (s.addPoststop hook).Fits (depth + 3) := by
  have hsection : Hooks.form.Fits (depth + 2) (s.hooks.getD {}) := fits_hooks h
  have hlist : s.poststop = (s.hooks.getD {}).poststop.getD [] := by
    unfold poststop
    cases s.hooks <;> rfl
  rw [Hooks.fits_succ] at hsection
  rw [fits_succ] at h ⊢
  obtain ⟨hprestart, hpoststop, hother⟩ := hsection
  obtain ⟨hprocess, hroot, -, hrest⟩ := h
  refine ⟨hprocess, hroot, ?_, hrest⟩
  rintro _ ⟨⟩
  rw [Hooks.fits_succ, hlist]
  refine ⟨hprestart, ?_, hother⟩
  rintro _ ⟨⟩
  exact Codec.fits_append hpoststop hh

theorem fits_linux (h : s.Fits (depth + 2)) : Linux.form.Fits (depth + 1) (s.linux.getD {}) := by
  rw [fits_succ] at h
  obtain ⟨-, -, -, hlinux, -⟩ := h
  exact Form.fits_getD hlinux (Linux.lawful.fits_init (by simp [Linux.form]))

theorem fits_addRule (h : s.Fits (depth + 4)) {r : Rule} (hr : Rule.form.Fits depth r) :
    (s.addRule r).Fits (depth + 4) := by
  have hsection : Linux.form.Fits (depth + 3) (s.linux.getD {}) := fits_linux h
  have hlist : s.rules = ((s.linux.getD {}).resources.getD {}).devices.getD [] := by
    unfold rules
    rcases s.linux with _ | ⟨_, _ | _, _⟩ <;> rfl
  rw [Linux.fits_succ] at hsection
  rw [fits_succ] at h ⊢
  obtain ⟨hdevices, hresources, hrest⟩ := hsection
  obtain ⟨hprocess, hroot, hhooks, -, hother⟩ := h
  have hinner : Resources.form.Fits (depth + 2) ((s.linux.getD {}).resources.getD {}) :=
    Form.fits_getD hresources (Resources.lawful.fits_init (by simp [Resources.form]))
  rw [Resources.fits_succ] at hinner
  obtain ⟨hrules, hunnamed⟩ := hinner
  refine ⟨hprocess, hroot, hhooks, ?_, hother⟩
  rintro _ ⟨⟩
  rw [Linux.fits_succ]
  refine ⟨hdevices, ?_, hrest⟩
  rintro _ ⟨⟩
  rw [Resources.fits_succ, hlist]
  refine ⟨?_, hunnamed⟩
  rintro _ ⟨⟩
  split
  · exact Codec.fits_getD hrules
  · exact Codec.fits_append hrules hr

theorem fits_withDevice (h : s.Fits (depth + 3)) {d : Device} (hd : Device.form.Fits depth d) :
    (s.withDevices (s.devices ++ [d])).Fits (depth + 3) := by
  have hsection : Linux.form.Fits (depth + 2) (s.linux.getD {}) := fits_linux h
  have hlist : s.devices = (s.linux.getD {}).devices.getD [] := by
    unfold devices
    cases s.linux <;> rfl
  rw [Linux.fits_succ] at hsection
  rw [fits_succ] at h ⊢
  obtain ⟨hdevices, hrest⟩ := hsection
  obtain ⟨hprocess, hroot, hhooks, -, hother⟩ := h
  refine ⟨hprocess, hroot, hhooks, ?_, hother⟩
  rintro _ ⟨⟩
  rw [Linux.fits_succ, hlist]
  refine ⟨?_, hrest⟩
  rintro _ ⟨⟩
  exact Codec.fits_append hdevices hd

theorem fits_addDevice (h : s.Fits (depth + 5)) {d : Device}
    (hd : ∀ depth, Device.form.Fits (depth + 1) d) : (s.addDevice d).Fits (depth + 5) := by
  unfold addDevice
  split
  · exact h
  · exact fits_addRule (fits_withDevice h (hd (depth + 1))) (Device.fits_rule (hd depth))

end Spec

end NpuRuntime.Bundle
