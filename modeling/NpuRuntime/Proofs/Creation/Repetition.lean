import NpuRuntime.Proofs.Creation.Steps

/-! # Changing a document again
A document that was changed once is not changed by any later run, and no later run asks for a
slice. Each step finds what it left, because the steps behind it keep that. -/
namespace NpuRuntime.Creation

open Query NpuRuntime.Bundle

variable {σ : Type} {h : Host} {s : Settings} {svc : Service σ}

/-- After a slice was asked for, or none was, the devices could be added only to a document that
asks for no slice. -/
theorem wanted_eq_none {ra rb rc : Run σ Spec} (hb : outcome (addSlice h s svc) ra = (.ok (), rb))
    (hc : outcome (addDevices h s svc) rb = (.ok (), rc)) : wanted h s rb.work = .ok none := by
  obtain ⟨hw, rfl⟩ | ⟨request, slice, options, -, ho, hv, hq⟩ := addSlice_eq_ok hb
  · exact hw
  · have hvisible : Invocation.valueOf rb.work.env Environment.visibleDevices ≠ "" := by
      rw [hq, visible_sliced]
      exact Text.toString_ne_empty _
    obtain ⟨-, new, -, hn, -⟩ := exists_of_addDevices hvisible hc
    have hnew := hn
    rw [hq] at hnew
    have hadd := eq_add_of_sliced ho hv hnew
    refine wanted_of_isVirtual hn ?_
    rw [hadd, RuntimeOptions.isVirtual_iff, RuntimeOptions.mem_add]
    exact .inr rfl

/-- One more run finds every step done. -/
theorem mutate_settled (hs : svc.Forgets) {r r' : Run σ Spec}
    (hr : outcome (mutate h s svc) r = (.ok (), r')) (henv : r'.work.env.length ≤ maxItems)
    (hprestart : r'.work.prestart.length ≤ maxItems) {q : Run σ Spec} (hq : q.work = r'.work) :
    ∃ q', outcome (mutate h s svc) q = (.ok (), q') ∧ idle.Holds q q' := by
  obtain ⟨ra, rb, rc, ha, -, hb, hc, rfl⟩ := mutate_eq_ok.mp hr
  rw [← hq] at henv hprestart
  have hkc : Keeps rc.work q.work := hq ▸ keeps_marked rc.work
  have hkb : Keeps rb.work q.work := (settles_addDevices.within.holds hc).1.trans hkc
  have hnone : wanted h s q.work = .ok none := hkb.wanted_eq.trans (wanted_eq_none hb hc)
  obtain ⟨f, hf⟩ | ⟨real, ks, hreal, hra⟩ := addHook_cases h s r
  · simp [hf] at ha
  have hhooked : hooked q.work = true := by
    rw [hra] at ha
    obtain ⟨-, rfl⟩ := Prod.mk.inj ha
    rw [hooked, hkb.prestart, prestart_addSlice hb]
    exact hooked_withHook s r.work
  obtain ⟨ls, hhook'⟩ := addHook_of_hooked hreal hprestart hhooked
  have hslice' : outcome (addSlice h s svc) (q.noted ls) = (.ok (), q.noted ls) := by
    rw [outcome_addSlice, work_noted, hnone]
  obtain ⟨q', hdevices', hi⟩ := settles_addDevices.again hs rb rc () hc (q.noted ls) hkc
  have hmarked : q'.working (marked q'.work) = q' := by
    have hw : q'.work = marked rc.work := hi.1.symm.trans hq
    rw [hw, marked_marked, ← hw]
    rfl
  refine ⟨q', ?_, idle.trans (idle.noted q ls) hi⟩
  exact mutate_eq_ok.mpr ⟨_, _, q', hhook', henv, hslice', hdevices', hmarked.symm⟩

/-- The same steps `n` times in a row. -/
def again {ω ε : Type} (n : Nat) (a : Act σ ω ε Unit) : Act σ ω ε Unit :=
  match n with
  | 0 => pure ()
  | n + 1 => do a; again n a

/-- However often a changed document is run again, each run succeeds, the document stays as it is,
and no slice is asked for. -/
theorem mutate_again (hs : svc.Forgets) {r r' : Run σ Spec}
    (hr : outcome (mutate h s svc) r = (.ok (), r')) (henv : r'.work.env.length ≤ maxItems)
    (hprestart : r'.work.prestart.length ≤ maxItems) (n : Nat) {q : Run σ Spec}
    (hq : q.work = r'.work) :
    ∃ q', outcome (again n (mutate h s svc)) q = (.ok (), q') ∧ q'.work = r'.work ∧
      ∃ made, q'.trace = q.trace ++ made ∧ ∀ e ∈ made, e.call.isCreate = false := by
  have hn : ∃ q', outcome (again n (mutate h s svc)) q = (.ok (), q') ∧ idle.Holds q q' := by
    induction n generalizing q with
    | zero => exact ⟨q, rfl, idle.refl q⟩
    | succ n ih =>
      obtain ⟨t, ht, hqt⟩ := mutate_settled hs hr henv hprestart hq
      obtain ⟨q', hq', htq'⟩ := ih (hqt.1.symm.trans hq)
      exact ⟨q', outcome_bind_eq_ok.mpr ⟨(), t, ht, hq'⟩, idle.trans hqt htq'⟩
  obtain ⟨q', hq', hi⟩ := hn
  exact ⟨q', hq', hi.1.symm.trans hq, hi.2⟩

/-- The first run makes a slice; three more leave its document alone. -/
theorem mutate_again_board : Scripted.standard.Forgets ∧
    ∃ r', firstRun (asking " NODRV") = (.ok (), r') ∧ r'.slices = [⟨0, 0, 100⟩] ∧
      r'.work.env.length ≤ maxItems ∧ r'.work.prestart.length ≤ maxItems ∧
      ∃ q', outcome (again 3 (mutate board places Scripted.standard)) r' = (.ok (), q') ∧
        q'.work = r'.work ∧
        ∃ made, q'.trace = r'.trace ++ made ∧ ∀ e ∈ made, e.call.isCreate = false := by
  have hfirst : (firstRun (asking " NODRV")).1 = .ok () ∧
      (firstRun (asking " NODRV")).2.slices = [⟨0, 0, 100⟩] ∧
      (firstRun (asking " NODRV")).2.work.env.length ≤ maxItems ∧
      (firstRun (asking " NODRV")).2.work.prestart.length ≤ maxItems := by
    decide +kernel
  -- The run is named before anything is done with it, so that nothing evaluates it again.
  rcases hrun : firstRun (asking " NODRV") with ⟨result, r'⟩
  rw [hrun] at hfirst
  obtain ⟨hok, hslices, henv, hprestart⟩ := hfirst
  obtain rfl : result = .ok () := hok
  refine ⟨Scripted.forgets_standard, r', rfl, hslices, henv, hprestart, ?_⟩
  rw [firstRun] at hrun
  exact mutate_again Scripted.forgets_standard hrun henv hprestart 3 rfl

end NpuRuntime.Creation
