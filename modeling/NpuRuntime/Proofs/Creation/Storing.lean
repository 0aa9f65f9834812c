import NpuRuntime.Proofs.Bundle.Fitting
import NpuRuntime.Proofs.Creation.Adding
import NpuRuntime.Proofs.Creation.Steps

/-! # Storing and loading again
Whatever is stored is loaded again as it is: a document that was loaded, and the outcome of its
changes. The numbers that a change brings in are those of device nodes, and fit for that reason. -/
namespace NpuRuntime

/-- Device numbers as a kernel keeps them. -/
def Kind.Sized : Kind → Prop
  | .charDevice major minor | .blockDevice major minor =>
    major ≤ Bundle.maxWord ∧ minor ≤ Bundle.maxWord
  | _ => True

instance (k : Kind) : Decidable k.Sized :=
  match k with
  | .charDevice _ _ | .blockDevice _ _ => inferInstanceAs (Decidable (_ ∧ _))
  | .file _ | .reporter | .directory | .link _ | .fifo | .socket => inferInstanceAs (Decidable True)

/-- A node whose owner and numbers are words, as they are in a file system. -/
structure Node.Sized (n : Node) : Prop where
  kind : n.kind.Sized
  uid : n.uid ≤ Bundle.maxWord
  gid : n.gid ≤ Bundle.maxWord

instance (n : Node) : Decidable n.Sized :=
  decidable_of_iff (n.kind.Sized ∧ n.uid ≤ Bundle.maxWord ∧ n.gid ≤ Bundle.maxWord)
    ⟨fun ⟨hkind, huid, hgid⟩ => ⟨hkind, huid, hgid⟩, fun h => ⟨h.kind, h.uid, h.gid⟩⟩

def Host.Sized (h : Host) : Prop := ∀ e ∈ h.files.entries, e.2.Sized

instance (h : Host) : Decidable h.Sized :=
  inferInstanceAs (Decidable (∀ e ∈ h.files.entries, e.2.Sized))

theorem Host.Sized.node {h : Host} (hh : h.Sized) {r : Route} {n : Node} (hn : h.node r = .ok n) :
    n.Sized := by
  obtain ⟨w, -, hn⟩ := bind_eq_ok.mp hn
  cases hfound : h.files.node? w.reached with
  | none =>
    rw [hfound] at hn
    cases hn
  | some m =>
    rw [hfound] at hn
    cases hn
    obtain ⟨e, he, rfl⟩ := Option.map_eq_some_iff.mp hfound
    exact hh e (List.mem_of_find?_eq_some he)

namespace Bundle.Device

variable {depth : Nat}

theorem fits_ofNode {path : String} {n : Node} (hn : n.Sized) {d : Device}
    (hd : ofNode path n = .ok d) : form.Fits (depth + 1) d := by
  obtain ⟨hkind, huid, hgid⟩ := hn
  have hlow : minInteger ≤ 0 := by decide
  have hhigh : (maxWord : Int) ≤ maxInteger := by decide
  have hmode : n.mode &&& 0o7777 ≤ maxWord := Nat.le_trans Nat.and_le_right (by decide)
  have hnumber (major minor : Nat) (hmajor : major ≤ maxWord) (hminor : minor ≤ maxWord)
      (kind : String) : form.Fits (depth + 1) ⟨path, kind, some major, some minor,
        some (n.mode &&& 0o7777), some n.uid, some n.gid, []⟩ := by
    rw [fits_succ]
    refine ⟨?_, ?_, ?_, ?_, ?_, Json.Unnamed.nil shape⟩ <;> rintro _ ⟨⟩ <;> omega
  unfold ofNode at hd
  split at hd
  · next major minor hnode =>
    rw [hnode] at hkind
    cases hd
    exact hnumber major minor hkind.1 hkind.2 "c"
  · next major minor hnode =>
    rw [hnode] at hkind
    cases hd
    exact hnumber major minor hkind.1 hkind.2 "b"
  · cases hd
    exact hnumber 0 0 (Nat.zero_le _) (Nat.zero_le _) "p"
  · cases hd

theorem fits_ofHost {h : Host} (hh : h.Sized) {path : String} {d : Device}
    (hd : ofHost h path = .ok d) : form.Fits (depth + 1) d := by
  unfold ofHost at hd
  split at hd
  · cases hd
  · cases hn : h.node (Route.read path) with
    | error e => simp [hn] at hd
    | ok n =>
      simp only [hn] at hd
      exact fits_ofNode (hh.node hn) hd

end Bundle.Device

namespace Creation

open Query NpuRuntime.Bundle

variable {σ : Type} {h : Host} {s : Settings} {svc : Service σ} {depth : Nat}

theorem fits_fromHost (hh : h.Sized) {d : Device} (hd : FromHost h d) :
    Device.form.Fits (depth + 1) d := by
  obtain ⟨host, name, found, hfound, rfl⟩ := hd
  have hfits : Device.form.Fits (depth + 1) found := Device.fits_ofHost hh hfound
  rw [Device.fits_succ] at hfits ⊢
  exact hfits

/-- A document that fits goes on to fit. -/
def fitting (depth : Nat) : Frame σ Spec :=
  Frame.work (fun u w => u.Fits depth → w.Fits depth) (fun _ => id) fun huv hvw => hvw ∘ huv

theorem admits_fitting (c : Call) : (fitting depth).Admits svc c := fun _ hf => hf

theorem spans_fitting (hh : h.Sized) : Spans (fitting (depth + 5)) h svc where
  device _ _ hd hf := Spec.fits_addDevice hf fun _ => fits_fromHost hh hd
  question c _ := admits_fitting c

theorem fits_addDevices (hh : h.Sized) {r r' : Run σ Spec}
    (hr : outcome (addDevices h s svc) r = (.ok (), r')) (hf : r.work.Fits (depth + 5)) :
    r'.work.Fits (depth + 5) := by
  have hspans : Spans (fitting (depth + 5)) h svc := spans_fitting hh
  have hwithin : (fitting (depth + 5)).Within (addDevices h s svc) :=
    within_addDevices hspans.device <|
      Frame.Within.withSession (admits_fitting _) (admits_fitting _) hspans.addChipNodes
  exact hwithin.holds hr hf

theorem fits_withHook {u : Spec} (hf : u.Fits (depth + 5)) : (withHook s u).Fits (depth + 5) := by
  unfold withHook
  split
  · exact hf
  · exact Spec.fits_addPrestart hf (Hook.fits_start _ _)

theorem fits_sliced {u : Spec} (hf : u.Fits (depth + 5)) (slice : Slice) :
    (sliced s slice u).Fits (depth + 5) :=
  Spec.fits_addPoststop (Spec.fits_withEnv hf _) (Hook.fits_start _ _)

theorem fits_marked {u : Spec} (hf : u.Fits (depth + 5)) : (marked u).Fits (depth + 5) := by
  rcases marked_cases u with hm | hm
  · rwa [hm]
  · rw [hm]
    exact Spec.fits_withEnv hf _

theorem fits_addSlice {r r' : Run σ Spec} (hr : outcome (addSlice h s svc) r = (.ok (), r'))
    (hf : r.work.Fits (depth + 5)) : r'.work.Fits (depth + 5) := by
  obtain ⟨-, rfl⟩ | ⟨request, slice, options, -, -, -, hwork⟩ := addSlice_eq_ok hr
  · exact hf
  · rw [hwork]
    exact fits_sliced hf slice

/-- The outcome of all changes fits if the document did. -/
theorem fits_mutate (hh : h.Sized) {r r' : Run σ Spec}
    (hr : outcome (mutate h s svc) r = (.ok (), r')) (hf : r.work.Fits (depth + 5)) :
    r'.work.Fits (depth + 5) := by
  obtain ⟨ra, rb, rc, ha, -, hb, hc, rfl⟩ := mutate_eq_ok.mp hr
  have hhook : ra.work.Fits (depth + 5) := work_addHook ha ▸ fits_withHook hf
  exact fits_marked (fits_addDevices hh hc (fits_addSlice hb hhook))

/-- A document that is loaded again as it was stored, so that storing it again changes no byte. -/
structure Stable (u : Spec) : Prop where
  loads : Spec.ofBytes (Utf8.bytesOf u.text) = .ok u
  again : (Spec.ofBytes (Utf8.bytesOf u.text)).map (Utf8.bytesOf ·.text) =
    .ok (Utf8.bytesOf u.text)

theorem stable_of_fits {u : Spec} (hf : u.Fits Json.maxDepth) : Stable u where
  loads := Spec.ofBytes_text hf
  again := by
    rw [Spec.ofBytes_text hf]
    rfl

/-- A document with whole numbers is loaded again as it was stored, and so is the outcome of every
change to it that succeeds. -/
theorem load_stored {bytes : List UInt8} {u : Spec} (hu : Spec.ofBytes bytes = .ok u) :
    ∃ v, Json.ofBytes bytes = .ok v ∧ (v.Whole → Stable u ∧
      ∀ {σ : Type} (h : Host) (s : Settings) (svc : Service σ) (r r' : Run σ Spec), h.Sized →
        r.work = u → outcome (mutate h s svc) r = (.ok (), r') → Stable r'.work) := by
  obtain ⟨v, hv, -, hfits⟩ := Spec.exists_of_ofBytes hu
  refine ⟨v, hv, fun hw => ⟨stable_of_fits (hfits hw), ?_⟩⟩
  rintro σ h s svc r r' hh rfl hr
  exact stable_of_fits (fits_mutate hh hr (hfits hw))

/-- The outcome on the board, with a device and a slice of it, is loaded again from its bytes. -/
theorem load_stored_board : ∃ v r', Spec.ofBytes (Utf8.bytesOf (asking " NODRV").text) =
      .ok (asking " NODRV") ∧
    Json.ofBytes (Utf8.bytesOf (asking " NODRV").text) = .ok v ∧ v.Whole ∧ board.Sized ∧
    firstRun (asking " NODRV") = (.ok (), r') ∧ Stable r'.work := by
  have hu : Spec.ofBytes (Utf8.bytesOf (asking " NODRV").text) = .ok (asking " NODRV") := by
    decide +kernel
  have hwhole : (Json.ofBytes (Utf8.bytesOf (asking " NODRV").text)).toOption.any
      (fun v => decide v.Whole) = true := by
    decide +kernel
  obtain ⟨v, hv, hstable⟩ := load_stored hu
  rw [hv] at hwhole
  have hw : v.Whole := of_decide_eq_true hwhole
  obtain ⟨r', hrun, -⟩ := exists_firstRun
  obtain ⟨-, hchanged⟩ := hstable hw
  have hsized : board.Sized := by decide
  exact ⟨v, r', hu, hv, hw, hsized, hrun, hchanged board places Scripted.standard _ r' hsized
    rfl hrun⟩

end Creation

end NpuRuntime
