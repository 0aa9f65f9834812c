import NpuRuntime.Proofs.Creation.Adding
import NpuRuntime.Proofs.Creation.Steps
import NpuRuntime.Proofs.Creation.Wanting

/-! # What a run adds
A run that succeeds adds to the lists of a document, behind what is there. Lines of the environment
change only to make a slice visible, and what no step names stays. -/
namespace NpuRuntime.Creation

open Query NpuRuntime.Bundle

variable {σ : Type} {h : Host} {s : Settings} {svc : Service σ}

/-- The second document is the first one with entries behind its lists. A line may have changed
only if `split` holds: each that selects devices, and the first one with options. -/
structure Appends (split : Prop) (u w : Spec) : Prop where
  devices : u.devices <+: w.devices
  rules : u.rules <+: w.rules
  prestart : u.prestart <+: w.prestart
  length_prestart : w.prestart.length ≤ u.prestart.length + 1
  poststop : u.poststop <+: w.poststop
  length_poststop : w.poststop.length ≤ u.poststop.length + 1
  lines : ∀ i l, u.env[i]? = some l → w.env[i]? = some l ∨
    split ∧ ∃ name value, w.env[i]? = some (Environment.line name value) ∧
      (name = Environment.visibleDevices ∧ Environment.isNamed name l = true ∨
        name = Environment.runtimeOptions ∧ u.env.findIdx? (Environment.isNamed name) = some i)
  length_env : w.env.length ≤ u.env.length + 2
  rest : w.rest = u.rest

namespace Appends

variable {split : Prop} {u v w : Spec}

theorem refl (w : Spec) : Appends split w w where
  devices := List.prefix_rfl
  rules := List.prefix_rfl
  prestart := List.prefix_rfl
  length_prestart := Nat.le_succ _
  poststop := List.prefix_rfl
  length_poststop := Nat.le_succ _
  lines _ _ hl := .inl hl
  length_env := Nat.le_add_right _ 2
  rest := rfl

/-- The device step comes behind everything that writes hooks and lines. -/
theorem grows (ha : Appends split u v) (hg : Grows v w) : Appends split u w where
  devices := ha.devices.trans hg.devices
  rules := ha.rules.trans hg.rules
  prestart := hg.prestart ▸ ha.prestart
  length_prestart := hg.prestart ▸ ha.length_prestart
  poststop := hg.poststop ▸ ha.poststop
  length_poststop := hg.poststop ▸ ha.length_poststop
  lines := hg.env ▸ ha.lines
  length_env := hg.env ▸ ha.length_env
  rest := hg.rest.trans ha.rest

end Appends

/-- Only its step adds a hook before the start. -/
theorem Appends.before {split : Prop} {u w : Spec} (ha : Appends split (withHook s u) w)
    (hp : w.prestart = (withHook s u).prestart) : Appends split u w where
  devices := devices_withHook s u ▸ ha.devices
  rules := rules_withHook s u ▸ ha.rules
  prestart := hp ▸ (prestart_withHook s u).1
  length_prestart := hp ▸ (prestart_withHook s u).2
  poststop := poststop_withHook s u ▸ ha.poststop
  length_poststop := poststop_withHook s u ▸ ha.length_poststop
  lines := env_withHook s u ▸ ha.lines
  length_env := env_withHook s u ▸ ha.length_env
  rest := ha.rest.trans (rest_withHook s u)

theorem length_sliced {slice : Slice} {u : Spec}
    (hany : u.env.any (Environment.isNamed Environment.visibleDevices) = true) :
    (sliced s slice u).env.length ≤ u.env.length + 1 := by
  have hlength := (Environment.length_addToken
    (Environment.set u.env Environment.visibleDevices (toString slice.slice))
    Environment.runtimeOptions RuntimeOption.virtual.name).2
  rw [Environment.length_set hany] at hlength
  exact hlength

/-- A line that selects devices is rewritten where it stands, so none is appended for them. -/
theorem lines_sliced {slice : Slice} {u : Spec}
    (hany : u.env.any (Environment.isNamed Environment.visibleDevices) = true) {i : Nat}
    {l : String} (hl : u.env[i]? = some l) : (sliced s slice u).env[i]? = some l ∨
      ∃ name value, (sliced s slice u).env[i]? = some (Environment.line name value) ∧
        (name = Environment.visibleDevices ∧ Environment.isNamed name l = true ∨
          name = Environment.runtimeOptions ∧
            u.env.findIdx? (Environment.isNamed name) = some i) := by
  let number := toString slice.slice
  have hne : Environment.visibleDevices ≠ Environment.runtimeOptions := by decide
  have hidx := Environment.findIdx?_set_of_ne Environment.isName_visibleDevices hne hany number
  have hset := Environment.getElem?_set_of_some hl Environment.visibleDevices number
  obtain hkept | ⟨value, hfirst, hwritten⟩ := Environment.getElem?_addToken hset
    Environment.runtimeOptions RuntimeOption.virtual.name
  · change (sliced s slice u).env[i]? = _ at hkept
    by_cases hn : Environment.isNamed Environment.visibleDevices l = true
    · rw [Environment.rewritten_of_named hn] at hkept
      exact .inr ⟨_, number, hkept, .inl ⟨rfl, hn⟩⟩
    · rw [Environment.rewritten_of_unnamed hn] at hkept
      exact .inl hkept
  · exact .inr ⟨_, value, hwritten, .inr ⟨rfl, hidx ▸ hfirst⟩⟩

theorem appends_sliced {split : Prop} (hs : split) {slice : Slice} {u : Spec}
    (hany : u.env.any (Environment.isNamed Environment.visibleDevices) = true) :
    Appends split u (sliced s slice u) where
  devices := List.prefix_rfl
  rules := List.prefix_rfl
  prestart := prestart_sliced slice u ▸ List.prefix_rfl
  length_prestart := prestart_sliced slice u ▸ Nat.le_succ _
  poststop := List.prefix_append _ _
  length_poststop := by
    change (u.poststop ++ [_]).length ≤ _
    simp
  lines i l hl := by
    obtain hkept | hwritten := lines_sliced hany hl
    · exact .inl hkept
    · exact .inr ⟨hs, hwritten⟩
  length_env := Nat.le_succ_of_le (length_sliced hany)
  rest := by
    unfold sliced
    rw [Spec.rest_addPoststop, Spec.rest_withEnv]

/-- The slice step adds one hook and at most one line, if it makes a slice. -/
theorem appends_addSlice {r t : Run σ Spec} (hr : outcome (addSlice h s svc) r = (.ok (), t)) :
    Appends (t.slices ≠ r.slices) r.work t.work ∧
      t.work.env.length ≤ r.work.env.length + 1 := by
  obtain ⟨made, htrace, ⟨-, hwork⟩ | ⟨q, f, answer, hq, hasked, hwork⟩⟩ := addSlice_asks hr
  · rw [hwork rfl]
    exact ⟨Appends.refl r.work, Nat.le_succ _⟩
  · obtain ⟨slice, rfl, hsliced⟩ := hwork rfl
    have hany := hq.any_isNamed
    have hmade : t.slices ≠ r.slices := by
      rw [Run.slices, htrace, List.filterMap_append, hasked.slices, ← Run.slices]
      simp [Except.toOption]
    rw [hsliced]
    exact ⟨appends_sliced hmade hany, length_sliced hany⟩

/-- The marker is one more line. -/
theorem Appends.marked {split : Prop} {u v : Spec} (ha : Appends split u v)
    (hl : v.env.length ≤ u.env.length + 1) : Appends split u (marked v) := by
  have hlength := length_marked v
  exact {
    devices := devices_marked v ▸ ha.devices
    rules := rules_marked v ▸ ha.rules
    prestart := prestart_marked v ▸ ha.prestart
    length_prestart := prestart_marked v ▸ ha.length_prestart
    poststop := poststop_marked v ▸ ha.poststop
    length_poststop := poststop_marked v ▸ ha.length_poststop
    lines := by
      intro i l hi
      obtain hkept | ⟨hs, name, value, hwritten, hname⟩ := ha.lines i l hi
      · exact .inl (getElem?_marked hkept)
      · exact .inr ⟨hs, name, value, getElem?_marked hwritten, hname⟩
    length_env := by omega
    rest := (rest_marked v).trans ha.rest }

/-- A run that succeeds only appends: at most one hook of each kind, at most two lines, and any
number of devices and rules. Lines are rewritten only if a slice was made. -/
theorem mutate_appends {r r' : Run σ Spec} (hr : outcome (mutate h s svc) r = (.ok (), r')) :
    Appends (r'.slices ≠ r.slices) r.work r'.work := by
  obtain ⟨ra, rb, rc, ha, -, hb, hc, rfl⟩ := mutate_eq_ok.mp hr
  obtain ⟨f, hf⟩ | ⟨-, ls, -, hra⟩ := addHook_cases h s r
  · simp [hf] at ha
  rw [hra] at ha
  obtain ⟨-, rfl⟩ := Prod.mk.inj ha
  have hgrowing : growing.Holds rb (outcome (addDevices h s svc) rb).2 :=
    covers_growing.addDevices rb
  rw [hc] at hgrowing
  obtain ⟨hgrows, hcalls⟩ := hgrowing
  have hslices : rc.slices = rb.slices := slices_of_calls hcalls
  obtain ⟨happends, hlength⟩ := appends_addSlice hb
  have hbefore : Appends (rb.slices ≠ r.slices) r.work rb.work :=
    happends.before (prestart_addSlice hb)
  rw [← hslices] at hbefore
  refine (hbefore.grows hgrows).marked ?_
  rw [hgrows.env]
  exact env_withHook s r.work ▸ hlength

/-- A slice is made on the board: one hook of each kind, and the plugin's marker, are new. -/
theorem mutate_appends_board : ∃ r', firstRun (asking " NODRV") = (.ok (), r') ∧
    r'.slices = [⟨0, 0, 100⟩] ∧ Appends (r'.slices ≠ []) (asking " NODRV") r'.work := by
  obtain ⟨r', hrun, hslices⟩ := exists_firstRun
  have hfirst := hrun
  rw [firstRun] at hrun
  exact ⟨r', hfirst, hslices, mutate_appends hrun⟩

end NpuRuntime.Creation
