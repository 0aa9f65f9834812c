import NpuRuntime.Mount.Helper
import NpuRuntime.Proofs.Query.Run
import NpuRuntime.Proofs.Selection.Listing

/-! # The mount helper's flags
The arguments of the mount helper come in pairs of a flag and its value. Read that way they give
back the options of the container, and nothing that is mounted can be taken for a flag. -/
namespace NpuRuntime

open Query

namespace Invocation

/-- Arguments in pairs of a flag and its value. -/
def flagged : List String → List (String × String)
  | flag :: value :: rest => (flag, value) :: flagged rest
  | _ => []

theorem flagged_flatMap (flag : String) (values rest : List String) :
    flagged (values.flatMap (fun v => [flag, v]) ++ rest) =
      values.map (fun v => (flag, v)) ++ flagged rest := by
  induction values with
  | nil => rfl
  | cons v values ih =>
    change (flag, v) :: flagged (values.flatMap (fun v => [flag, v]) ++ rest) =
      (flag, v) :: (values.map (fun v => (flag, v)) ++ flagged rest)
    rw [ih]

theorem flagged_mountArguments (c : Container) (m : Mounts) (o : RuntimeOptions) :
    flagged (mountArguments c m o) =
      [("--pid", toString c.pid), ("--rootfs", c.rootfs)] ++
        m.files.map (fun f => ("--mount-file", f)) ++
        m.directories.map (fun d => ("--mount-dir", d)) ++
        if o.isEmpty then [] else [("--options", o.text)] := by
  have hrest : flagged (if o.isEmpty then [] else ["--options", o.text]) =
      if o.isEmpty then [] else [("--options", o.text)] := by
    split <;> rfl
  simp only [mountArguments, List.append_assoc]
  change _ :: _ :: flagged (m.files.flatMap _ ++ (m.directories.flatMap _ ++ _)) = _
  rw [flagged_flatMap, flagged_flatMap, hrest]
  rfl

/-- The value of the options names slices. -/
def TellsSlices (i : Invocation) : Prop :=
  ∃ value, ("--options", value) ∈ flagged i.args ∧
    RuntimeOption.virtual.name ∈ Text.pieces ',' value

theorem options_mem_iff {c : Container} {m : Mounts} {o : RuntimeOptions} {value : String} :
    ("--options", value) ∈ flagged (mountArguments c m o) ↔ o.isEmpty = false ∧ value = o.text := by
  rw [flagged_mountArguments]
  cases o.isEmpty <;> simp

theorem tellsSlices_iff {program : String} {c : Container} {m : Mounts} {o : RuntimeOptions} :
    TellsSlices ⟨program, mountArguments c m o⟩ ↔ o.isVirtual = true := by
  unfold TellsSlices
  simp only [options_mem_iff]
  rw [RuntimeOptions.isVirtual_iff]
  constructor
  · rintro ⟨value, ⟨ho, rfl⟩, hmem⟩
    exact (RuntimeOptions.mem_pieces_text ho .virtual).mp hmem
  · intro hmem
    have ho : o.isEmpty = false := by
      rw [RuntimeOptions.isEmpty, List.isEmpty_eq_false_iff]
      exact List.ne_nil_of_mem hmem
    exact ⟨o.text, ⟨ho, rfl⟩, (RuntimeOptions.mem_pieces_text ho .virtual).mpr hmem⟩

variable {σ ω : Type} {h : Host} {s : Settings}

/-- With options that can be read, whatever goes wrong comes from the names of the lists, from the
lists or from the helper. -/
theorem ofContainer_cases {c : Container} {o : RuntimeOptions}
    (ho : RuntimeOptions.parse (valueOf c.env Environment.runtimeOptions) = .ok o)
    (t : Run σ ω) :
    (∃ f t', outcome (ofContainer h s c) t = (.error f, t') ∧
      f.stages.head? ≠ some Stage.options) ∨
    ∃ mounts t', outcome (ofContainer h s c) t =
      (.ok ⟨s.mountHelper, mountArguments c mounts o⟩, t') := by
  unfold ofContainer
  rw [outcome_bind, outcome_ofExcept]
  cases MountNames.parse (valueOf c.env Environment.runtimeMounts) with
  | error e => exact .inl ⟨_, t, rfl, by simp [Failure.ofFault, Failure.of]⟩
  | ok names =>
    dsimp only [mapError_ok]
    rw [outcome_bind, outcome_mapFailure]
    rcases outcome (Mounts.readLists h s.lists names) t with ⟨f | mounts, t'⟩
    · exact .inl ⟨_, t', rfl, by simp [Failure.within]⟩
    · dsimp only [mapError_ok]
      rw [outcome_bind, outcome_ofExcept, ho]
      dsimp only [mapError_ok]
      rw [outcome_bind, outcome_ofExcept]
      cases Trust.realFile h s.mountHelper with
      | error e => exact .inl ⟨_, t', rfl, by simp [Failure.within]⟩
      | ok real => exact .inr ⟨mounts, _, rfl⟩

theorem prepare_of_invisible {state : Bundle.State} {c : Container}
    (hc : Container.ofState h state = .ok c)
    (hv : valueOf c.env Environment.visibleDevices = "") (t : Run σ ω) :
    (outcome (prepare h s state) t).1 = .ok none := by
  unfold prepare
  rw [outcome_bind, outcome_ofExcept, hc]
  dsimp only [mapError_ok]
  rw [if_pos hv]
  rfl

/-- A container that shows devices is prepared, or fails for something else than its options. -/
theorem prepare_cases {state : Bundle.State} {c : Container} {o : RuntimeOptions}
    (hc : Container.ofState h state = .ok c)
    (ho : RuntimeOptions.parse (valueOf c.env Environment.runtimeOptions) = .ok o)
    (hv : valueOf c.env Environment.visibleDevices ≠ "") (t : Run σ ω) :
    (∃ f, (outcome (prepare h s state) t).1 = .error f ∧ f.stages.head? ≠ some Stage.options) ∨
    ∃ mounts, (outcome (prepare h s state) t).1 =
      .ok (some ⟨s.mountHelper, mountArguments c mounts o⟩) := by
  unfold prepare
  rw [outcome_bind, outcome_ofExcept, hc]
  dsimp only [mapError_ok]
  rw [if_neg hv, outcome_bind]
  obtain ⟨f, t', hf, hstage⟩ | ⟨mounts, t', hmounts⟩ := ofContainer_cases (s := s) ho t
  · rw [hf]
    exact .inl ⟨f, rfl, hstage⟩
  · rw [hmounts]
    exact .inr ⟨mounts, rfl⟩

end Invocation

end NpuRuntime
