import NpuRuntime.Proofs.Creation.Steps

/-! # Reading a rewritten environment
Once a slice was made its number and one more option are written into the environment and read
again. The number always reads back; the options do unless their text has grown too long. -/
namespace NpuRuntime.Creation

open Query NpuRuntime.Bundle

variable {σ : Type} {h : Host} {s : Settings} {svc : Service σ}

/-- The bytes that the options of a document take with the name of one more behind them. -/
def sizeRewritten (spec : Spec) : Nat :=
  (Text.trim (Invocation.valueOf spec.env Environment.runtimeOptions)).utf8ByteSize +
    (RuntimeOption.virtual.name.utf8ByteSize + 1)

theorem sizeRewritten_eq (spec : Spec) : sizeRewritten spec =
    (Text.trim (Invocation.valueOf spec.env Environment.runtimeOptions)).utf8ByteSize + 8 := rfl

theorem optionsOf_sliced_of_le (s : Settings) (slice : Slice) {u spec : Spec}
    {options : RuntimeOptions} (henv : u.env = spec.env) (ho : optionsOf spec = .ok options)
    (hv : options.isVirtual = false) (hl : sizeRewritten spec ≤ Selection.maxInput) :
    optionsOf (sliced s slice u) = .ok (options.add .virtual) := by
  have hu : optionsOf u = .ok options := by rw [optionsOf, henv, ← optionsOf, ho]
  have hle := (RuntimeOptions.size_extended_le
    (Invocation.valueOf spec.env Environment.runtimeOptions) .virtual).trans hl
  rw [optionsOf_sliced hu hv, henv, RuntimeOptions.parse_extended (optionsOf_eq_ok.mp ho) hle]
  rfl

theorem optionsOf_sliced_of_lt (s : Settings) (slice : Slice) {u spec : Spec}
    {options : RuntimeOptions} (henv : u.env = spec.env) (ho : optionsOf spec = .ok options)
    (hv : options.isVirtual = false) (hl : Selection.maxInput < sizeRewritten spec) :
    optionsOf (sliced s slice u) =
      .error (.ofFault (.inputTooLong (sizeRewritten spec) Selection.maxInput)) := by
  have hu : optionsOf u = .ok options := by rw [optionsOf, henv, ← optionsOf, ho]
  have hne : Text.trim (Invocation.valueOf spec.env Environment.runtimeOptions) ≠ "" := by
    intro he
    rw [sizeRewritten_eq, he] at hl
    exact absurd hl (by decide)
  have hsize := RuntimeOptions.size_extended hne .virtual
  rw [← sizeRewritten] at hsize
  rw [optionsOf_sliced hu hv, henv, RuntimeOptions.parse_of_long (hsize ▸ hl), hsize]
  rfl

/-- A long text fails the run, and the slice stays behind. -/
theorem finish_of_long {q : Run σ Spec} {slice : Slice} {u : Spec} {f : Failure}
    (hwork : q.work = sliced s slice u) (hw : slice.slice < UInt32.size)
    (hf : optionsOf (sliced s slice u) = .error f) :
    outcome (finish h s svc) q = (.error (f.within .addingDevices), q) := by
  have hselected : selected q.work = .error f := by
    rw [selected, hwork, visible_sliced]
    simp only [if_neg (Text.toString_ne_empty _), Devices.parse_toString hw, hf, Except.map]
  rw [finish, outcome_bind, outcome_mapFailure, outcome_addDevices, hselected]
  rfl

/-- Once the driver has made a slice, its number reads back from the environment, and the options
read back with one more of them exactly if the longer text fits. If it does not, the run fails. -/
theorem rewritten_parses_iff {m : σ} {spec : Spec} {result : Except Failure Unit}
    {r' : Run σ Spec} (hr : outcome (mutate h s svc) { memory := m, work := spec } = (result, r'))
    {slice : Slice} (hs : slice ∈ r'.slices) (hw : slice.slice < UInt32.size) :
    ∃ old, optionsOf spec = .ok old ∧
      Devices.parse (Invocation.valueOf r'.work.env Environment.visibleDevices) =
        .ok ⟨[slice.slice]⟩ ∧
      ((∃ new, RuntimeOptions.parse
          (Invocation.valueOf r'.work.env Environment.runtimeOptions) = .ok new ∧
          .virtual ∈ new.list ∧ ∀ o ∈ old.list, o ∈ new.list) ↔
        sizeRewritten spec ≤ Selection.maxInput) ∧
      (Selection.maxInput < sizeRewritten spec → result = .error ⟨[.addingDevices],
        .fault (.inputTooLong (sizeRewritten spec) Selection.maxInput)⟩) := by
  have hcases := slices_mutate_cases h s svc { memory := m, work := spec }
  rw [hr] at hcases
  obtain hnone | ⟨made, old, u, q, ho, hv, henv, hwork, hmade, hq⟩ := hcases
  · rw [hnone] at hs
    cases hs
  have hslices := slices_finish h s svc q
  have hkeeps := (within_finish h s svc q).1
  rw [← hq] at hslices hkeeps
  obtain rfl : slice = made := by
    rw [hslices, hmade] at hs
    simpa [Run.slices] using hs
  have hvisible : Invocation.valueOf r'.work.env Environment.visibleDevices =
      toString slice.slice := by
    rw [hkeeps.valueOf_visible, hwork, visible_sliced]
  have hoptions : optionsOf r'.work = optionsOf (sliced s slice u) := by
    rw [hkeeps.optionsOf_eq, hwork]
  refine ⟨old, ho, by rw [hvisible, Devices.parse_toString hw], ?_, fun hl => ?_⟩
  · constructor
    · rintro ⟨new, hnew, -⟩
      by_contra hl
      have hf := optionsOf_sliced_of_lt s slice henv ho hv (Nat.lt_of_not_le hl)
      rw [← hoptions, optionsOf_eq_ok.mpr hnew] at hf
      cases hf
    · intro hl
      have hadd := optionsOf_sliced_of_le s slice henv ho hv hl
      rw [← hoptions] at hadd
      refine ⟨_, optionsOf_eq_ok.mp hadd, ?_, fun o hold => ?_⟩
      · exact RuntimeOptions.mem_add.mpr (.inr rfl)
      · exact RuntimeOptions.mem_add.mpr (.inl hold)
  · have hf := optionsOf_sliced_of_lt s slice henv ho hv hl
    rw [finish_of_long hwork hw hf] at hq
    exact (Prod.mk.inj hq).1

/-- A short text reads back with both options. -/
theorem rewritten_parses_iff_board : ∃ r', firstRun (asking " NODRV") = (.ok (), r') ∧
    ⟨0, 0, 100⟩ ∈ r'.slices ∧ sizeRewritten (asking " NODRV") ≤ Selection.maxInput ∧
    Devices.parse (Invocation.valueOf r'.work.env Environment.visibleDevices) = .ok ⟨[100]⟩ ∧
    ∃ new, RuntimeOptions.parse
      (Invocation.valueOf r'.work.env Environment.runtimeOptions) = .ok new ∧
      .virtual ∈ new.list ∧ .noDriver ∈ new.list := by
  have hfirst : (firstRun (asking " NODRV")).1 = .ok () ∧
      ⟨0, 0, 100⟩ ∈ (firstRun (asking " NODRV")).2.slices ∧
      optionsOf (asking " NODRV") = .ok ⟨[.noDriver]⟩ ∧
      sizeRewritten (asking " NODRV") ≤ Selection.maxInput := by
    decide +kernel
  rcases hrun : firstRun (asking " NODRV") with ⟨result, r'⟩
  rw [hrun] at hfirst
  obtain ⟨hok, hs, hold, hl⟩ := hfirst
  obtain rfl : result = .ok () := hok
  rw [firstRun] at hrun
  obtain ⟨old, ho, hvisible, hiff, -⟩ := rewritten_parses_iff hrun hs (by decide)
  rw [hold] at ho
  cases ho
  obtain ⟨new, hnew, hvirtual, hkept⟩ := hiff.mpr hl
  exact ⟨r', rfl, hs, hl, hvisible, new, hnew, hvirtual, hkept _ (by decide)⟩

/-- Twenty-one accepted names: one more does not fit, and the slice is left behind. -/
theorem rewritten_options_too_long :
    let text := Text.join ',' (List.replicate 21 RuntimeOption.noDriver.name)
    optionsOf (asking text) = .ok ⟨[.noDriver]⟩ ∧
      (firstRun (asking text)).2.slices = [⟨0, 0, 100⟩] ∧
      RuntimeOptions.parse (Invocation.valueOf (firstRun (asking text)).2.work.env
        Environment.runtimeOptions) = .error (.inputTooLong 133 128) ∧
      (firstRun (asking text)).1 = .error ⟨[.addingDevices], .fault (.inputTooLong 133 128)⟩ := by
  decide +kernel

end NpuRuntime.Creation
