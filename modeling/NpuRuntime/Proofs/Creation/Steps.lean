import Mathlib.Control.Monad.Basic
import NpuRuntime.Proofs.Creation.Allocating
import NpuRuntime.Proofs.Creation.Nodes
import NpuRuntime.Proofs.Query.Scripted

/-! # All changes in order
A run of all changes taken apart into its steps, once for runs that succeed and once for the slices
that a run makes. At the end stands a board that such runs can be tried on. -/
namespace NpuRuntime.Creation

open Query NpuRuntime.Bundle

variable {σ : Type} {h : Host} {s : Settings} {svc : Service σ}

/-- What is left to do when a slice was made. -/
def finish (h : Host) (s : Settings) (svc : Service σ) : Edit σ Unit := do
  mapFailure (Failure.within .addingDevices) (addDevices h s svc)
  addMarker

theorem outcome_mutate (h : Host) (s : Settings) (svc : Service σ) (r : Run σ Spec) :
    outcome (mutate h s svc) r = match outcome (addHook h s) r with
      | (.error f, ra) => (.error f, ra)
      | (.ok (), ra) =>
        if ra.work.env.length > maxItems then
          (.error (.ofFault (.tooMany .environmentEntries ra.work.env.length maxItems)), ra)
        else outcome (do
          mapFailure (Failure.within .creatingSlice) (addSlice h s svc)
          finish h s svc) ra := by
  unfold mutate
  rw [outcome_bind]
  rcases outcome (addHook h s) r with ⟨f | ⟨⟩, ra⟩
  · rfl
  · dsimp only
    rw [outcome_bind, outcome_current]
    dsimp only
    rw [outcome_bind, outcome_checkCount]
    by_cases hl : ra.work.env.length > maxItems
    · rw [if_pos hl, if_pos hl]
    · rw [if_neg hl, if_neg hl]
      rfl

/-- A run succeeds through a success of each step. -/
theorem mutate_eq_ok {r r' : Run σ Spec} : outcome (mutate h s svc) r = (.ok (), r') ↔
    ∃ ra rb rc, outcome (addHook h s) r = (.ok (), ra) ∧ ra.work.env.length ≤ maxItems ∧
      outcome (addSlice h s svc) ra = (.ok (), rb) ∧
      outcome (addDevices h s svc) rb = (.ok (), rc) ∧ r' = rc.working (marked rc.work) := by
  rw [outcome_mutate]
  constructor
  · intro hr
    rcases ha : outcome (addHook h s) r with ⟨f | ⟨⟩, ra⟩
    · simp [ha] at hr
    · simp only [ha] at hr
      split at hr
      · cases hr
      · next hl =>
        obtain ⟨⟨⟩, rb, hb, hfinish⟩ := outcome_bind_eq_ok.mp hr
        obtain ⟨⟨⟩, rc, hc, hm⟩ := outcome_bind_eq_ok.mp hfinish
        refine ⟨ra, rb, rc, rfl, Nat.not_lt.mp hl, outcome_mapFailure_eq_ok.mp hb,
          outcome_mapFailure_eq_ok.mp hc, ?_⟩
        exact (Prod.mk.inj hm).2.symm
  · rintro ⟨ra, rb, rc, ha, hl, hb, hc, rfl⟩
    simp only [ha]
    rw [if_neg (Nat.not_lt.mpr hl)]
    refine outcome_bind_eq_ok.mpr ⟨(), rb, outcome_mapFailure_eq_ok.mpr hb, ?_⟩
    exact outcome_bind_eq_ok.mpr ⟨(), rc, outcome_mapFailure_eq_ok.mpr hc, outcome_addMarker rc⟩

theorem within_addMarker : adding.Within (addMarker : Edit σ Unit) := by
  intro r
  rw [outcome_addMarker]
  exact ⟨keeps_marked r.work, [], by simp, by simp⟩

theorem within_finish (h : Host) (s : Settings) (svc : Service σ) :
    adding.Within (finish h s svc) :=
  (settles_addDevices.within.mapFailure _).bind fun _ => within_addMarker

theorem slices_finish (h : Host) (s : Settings) (svc : Service σ) (r : Run σ Spec) :
    (outcome (finish h s svc) r).2.slices = r.slices :=
  slices_of_calls (within_finish h s svc r).2

/-- The slices of a run are those of its slice step, and only a success of that is gone on from. -/
theorem slices_mutate_cases (h : Host) (s : Settings) (svc : Service σ) (r : Run σ Spec) :
    (outcome (mutate h s svc) r).2.slices = r.slices ∨
    ∃ slice options spec q, optionsOf r.work = .ok options ∧ options.isVirtual = false ∧
      spec.env = r.work.env ∧ q.work = sliced s slice spec ∧ q.slices = r.slices ++ [slice] ∧
      outcome (mutate h s svc) r = outcome (finish h s svc) q := by
  rw [outcome_mutate]
  obtain ⟨f, hf⟩ | ⟨-, ls, -, ha⟩ := addHook_cases h s r
  · rw [hf]
    exact .inl rfl
  · rw [ha]
    dsimp only
    split
    · exact .inl rfl
    · rw [outcome_bind, outcome_mapFailure]
      obtain ⟨f, q, hq, hslices⟩ | ⟨-, hq⟩ | ⟨slice, options, q, ho, hv, hwork, hslices, hq⟩ :=
        addSlice_cases h s svc ((r.working (withHook s r.work)).noted ls)
      · rw [hq]
        exact .inl hslices
      · rw [hq]
        exact .inl (slices_finish h s svc _)
      · rw [hq]
        have henv := env_withHook s r.work
        refine .inr ⟨slice, options, withHook s r.work, q, ?_, hv, henv, hwork, hslices, rfl⟩
        rw [optionsOf, ← henv]
        exact ho

/-- A host with one card, whose driver answers as where nothing is written. -/
def board : Host where
  files := ⟨[
    ([], Node.rootDirectory),
    (["usr"], Node.rootDirectory),
    (["usr", "bin"], Node.rootDirectory),
    (["usr", "bin", "ascend-docker-hook"], ⟨.reporter, 0o755, 0, 0⟩),
    (["usr", "bin", "ascend-docker-destroy"], ⟨.reporter, 0o755, 0, 0⟩),
    (["dev"], Node.rootDirectory),
    (["dev", "vdavinci100"], ⟨.charDevice 236 100, 0o660, 0, 0⟩),
    (["dev", "davinci_manager"], ⟨.charDevice 237 0, 0o660, 0, 0⟩),
    (["dev", "devmm_svm"], ⟨.charDevice 238 0, 0o660, 0, 0⟩),
    (["dev", "hisi_hdc"], ⟨.charDevice 239 0, 0o660, 0, 0⟩)]⟩

def places : Settings where
  programs := "/usr/bin"
  devices := Settings.deviceDirectory
  lists := Settings.listDirectory
  runtimes := Settings.runtimeCandidates
  level := Filter.default

/-- The device plugin's own container, whose devices are named twice. -/
def asking (options : String) : Spec where
  process := { env := some [
    "ASCEND_VISIBLE_DEVICES= 0", "ASCEND_VNPU_SPECS=vir04",
    Environment.line Environment.runtimeOptions options,
    " ASCEND_VISIBLE_DEVICES =1", "HOSTNAME=ascend-device-plugin"] }
  root := { path := "rootfs" }

/-- The result and the run after the first changes to a document. -/
def firstRun (spec : Spec) : Except Failure Unit × Run Scripted.Counts Spec :=
  outcome (mutate board places Scripted.standard) { memory := [], work := spec }

/-- With options that are read as one name, it makes a slice of the only device. -/
theorem exists_firstRun : ∃ r', firstRun (asking " NODRV") = (.ok (), r') ∧
    r'.slices = [⟨0, 0, 100⟩] := by
  have hfirst : (firstRun (asking " NODRV")).1 = .ok () ∧
      (firstRun (asking " NODRV")).2.slices = [⟨0, 0, 100⟩] := by
    decide +kernel
  -- The run is named before anything is done with it, so that nothing evaluates it again.
  rcases hrun : firstRun (asking " NODRV") with ⟨result, r'⟩
  rw [hrun] at hfirst
  obtain ⟨hok, hslices⟩ := hfirst
  obtain rfl : result = .ok () := hok
  exact ⟨r', rfl, hslices⟩

end NpuRuntime.Creation
