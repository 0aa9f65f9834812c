import Mathlib.Control.Monad.Basic
import NpuRuntime.Bundle.Spec
import NpuRuntime.Proofs.Query.Ranges
import NpuRuntime.Proofs.Text.Pieces
import NpuRuntime.Slice.Destruction

/-! # Freeing what was made
A slice is handed as text to the helper that frees it. Of what the driver library can make, the
helper reads back every slice whose card and number it takes, and refuses the others untouched. -/
namespace NpuRuntime.Slice

open Query NpuRuntime.Bundle

variable {σ ω : Type} {svc : Service σ} {s : Slice}

/-- A slice with numbers that a driver can give it. -/
structure InRange (s : Slice) : Prop where
  place : IsPlace s.card s.device
  number : IsWord s.slice

theorem split_yields (hs : svc.Ranged) (q : Request) :
    Yields (split svc q : Act σ ω Fault Slice) InRange := by
  refine (findDevice_yields hs q.physical).bind fun ⟨card, device⟩ hplace => ?_
  refine (yields_ask (hs.slice card device q.template)).bind fun number hnumber => ?_
  refine Yields.bind (P := fun _ => True) (fun _ _ _ => trivial) fun _ _ => ?_
  exact yields_pure ⟨hplace, hnumber⟩

theorem create_yields (hs : svc.Ranged) (q : Request) :
    Yields (create svc q : Act σ ω Fault Slice) InRange :=
  (split_yields hs q).withSession

theorem readId_toString {n : Nat} (hn : n < UInt32.size) : readId (toString n) =
    if maxId < n then .error (.of (.idTooLarge n maxId)) else .ok n := by
  rw [readId, Text.natural?_toString]
  dsimp only
  rw [if_neg (Nat.not_le.mpr hn)]

/-- The first of a slice's ids that the helper does not take. -/
def excess? (s : Slice) : Option Nat :=
  [s.card.toNat, s.slice].find? (maxId < ·)

theorem excess?_eq_none (hs : s.InRange) : s.excess? = none ↔ s.card ≤ maxId ∧ s.slice ≤ maxId := by
  have hcard := hs.place.1.1
  simp only [excess?, List.find?_eq_none, List.mem_cons, List.not_mem_nil, or_false,
    forall_eq_or_imp, forall_eq, decide_eq_true_eq]
  omega

theorem ofArguments_arguments (hs : s.InRange) (helper : String) :
    ofArguments (helper :: s.arguments) = match s.excess? with
      | none => .ok s
      | some id => .error (.of (.idTooLarge id maxId)) := by
  obtain ⟨card, device, slice⟩ := s
  obtain ⟨⟨⟨hcard, hcard'⟩, hdevice, hdevice'⟩, -, hslice⟩ := hs
  obtain ⟨card, rfl⟩ := Int.eq_ofNat_of_zero_le hcard
  obtain ⟨device, rfl⟩ := Int.eq_ofNat_of_zero_le hdevice
  dsimp only at hcard' hdevice' hslice
  unfold maxDevicesPerCard at hdevice'
  have hdevice : ¬ maxId < device := by
    unfold maxId
    omega
  have hsize : UInt32.size = 4294967296 := rfl
  have read (n : Nat) (hn : n < UInt32.size) := readId_toString hn
  change (do
    let card ← readId (toString card)
    let device ← readId (toString device)
    let slice ← readId (toString slice)
    return Slice.mk card device slice) = _
  rw [read card (by omega), read device (by omega), read slice (by omega), if_neg hdevice]
  simp only [excess?, List.find?_cons, Int.toNat_natCast]
  by_cases hc : maxId < card
  · simp [hc]
    rfl
  · by_cases hn : maxId < slice
    · simp [hc, hn]
      rfl
    · simp [hc, hn]
      rfl

/-- The calls made in a run, in order. -/
def asked (r : Run σ ω) : List Call := r.trace.map Event.call

@[simp] theorem asked_noted (r : Run σ ω) (ls : List Record) : asked (r.noted ls) = asked r := rfl

@[simp] theorem asked_answered (r : Run σ ω) (c : Call) :
    asked (r.answered svc c) = asked r ++ [c] := by
  rw [asked, trace_answered, List.map_append]
  rfl

theorem asked_free (s : Slice) (t : Run σ ω) : asked (outcome (free svc s) t).2 =
    asked t ++ [.destroy s.card s.device s.slice] := by
  have hw := outcome_ask (ω := ω) svc (.destroy s.card s.device s.slice) t
  unfold free
  rw [outcome_bind, hw]
  cases (svc.respond (.destroy s.card s.device s.slice) t.memory).1.result with
  | error f => exact asked_answered t _
  | ok => exact asked_answered t _

/-- Freeing asks for the slice that was named, in a session of its own. -/
theorem asked_destroy (s : Slice) (t : Run σ ω) : asked (outcome (destroy svc s) t).2 =
    asked t ++ .start :: if (svc.respond .start t.memory).1.result.isOk
      then [.destroy s.card s.device s.slice, .shutdown] else [] := by
  unfold destroy
  rw [outcome_withSession]
  cases (svc.respond .start t.memory).1.result with
  | error f => exact asked_answered t _
  | ok => simp [asked_free, Except.isOk, Except.toBool]

theorem outcome_runDestruction (argv : List String) (t : Run σ ω) :
    outcome (runDestruction svc argv) t = match ofArguments argv with
      | .error f => (.error f, t)
      | .ok s => outcome (mapFailure
          (fun f => (Failure.ofFault f).within (.destroyingSlice s.slice)) (destroy svc s)) t := by
  unfold runDestruction
  rw [outcome_bind, outcome_ofExcept]
  cases ofArguments argv <;> rfl

/-- The hook of a slice that was made leads to a call that frees it, unless its card or its number
is larger than the helper takes; then nothing is asked of the driver. -/
theorem created_freed_iff {h : Host} {script : Library.Script} {q : Request}
    {r : Run Library.Memory ω} (helper : String)
    (hs : (outcome (create (Library.service h script) q : Act _ ω Fault Slice) r).1 = .ok s) :
    ∃ argv, (Hook.start helper s.arguments).args = some argv ∧
      (ofArguments argv = .ok s ↔ s.card ≤ maxId ∧ s.slice ≤ maxId) ∧
      ∀ {τ ω' : Type} (svc : Service τ) (t : Run τ ω'),
        (s.card ≤ maxId ∧ s.slice ≤ maxId →
          asked (outcome (runDestruction svc argv) t).2 =
            asked t ++ .start :: if (svc.respond .start t.memory).1.result.isOk
              then [.destroy s.card s.device s.slice, .shutdown] else []) ∧
        (¬ (s.card ≤ maxId ∧ s.slice ≤ maxId) →
          ∃ id : Nat, maxId < id ∧ (id = s.card ∨ id = s.slice) ∧
            outcome (runDestruction svc argv) t = (.error (.of (.idTooLarge id maxId)), t)) := by
  have hrange := create_yields (Library.ranged h script) q r s hs
  have hread := ofArguments_arguments hrange helper
  have hexcess := excess?_eq_none hrange
  refine ⟨_, rfl, ?_, fun svc t => ⟨fun hle => ?_, fun hle => ?_⟩⟩
  · rw [hread, ← hexcess]
    cases s.excess? <;> simp
  · rw [hexcess.mpr hle] at hread
    rw [outcome_runDestruction, hread]
    exact asked_destroy s t
  · rw [← hexcess, ← ne_eq, Option.ne_none_iff_exists'] at hle
    obtain ⟨id, hid⟩ := hle
    rw [hid] at hread
    refine ⟨id, ?_, ?_, by rw [outcome_runDestruction, hread]⟩
    · have hlarge := List.find?_some (p := fun id => decide (maxId < id)) hid
      exact of_decide_eq_true hlarge
    · have hmem := List.mem_of_find?_eq_some hid
      have hcard := hrange.place.1.1
      simp only [List.mem_cons, List.not_mem_nil, or_false] at hmem
      omega

/-- A host that the driver library is installed on. -/
def installed : Host where
  files := ⟨[
    ([], Node.rootDirectory),
    (["usr"], Node.rootDirectory),
    (["usr", "lib"], Node.rootDirectory),
    (["usr", "lib", "libdcmi.so"], ⟨.file ⟨[], 0⟩, 0o644, 0, 0⟩)]⟩

/-- Splits a device with a library that gives out this card and this number. -/
def splitInto (card number : Int) : Except Fault Slice × Run Library.Memory Unit :=
  let script := { cards := (0, 1, [card]), slices := [("*", 0, number)] }
  outcome (create (Library.service installed script) ⟨0, "vir04"⟩) { memory := {}, work := () }

/-- The largest ids that the helper takes. -/
theorem created_freed_at_bound : (splitInto 65535 65535).1 = .ok ⟨65535, 0, 65535⟩ ∧
    ofArguments ("/usr/bin/ascend-docker-destroy" :: arguments ⟨65535, 0, 65535⟩) =
      .ok ⟨65535, 0, 65535⟩ := by
  have hs : (splitInto 65535 65535).1 = .ok ⟨65535, 0, 65535⟩ := by decide +kernel
  refine ⟨hs, ?_⟩
  rw [splitInto] at hs
  obtain ⟨argv, hargv, hread, -⟩ := created_freed_iff "/usr/bin/ascend-docker-destroy" hs
  cases hargv
  exact hread.mpr ⟨by decide, by decide⟩

/-- A larger number is given out all the same, and the helper refuses it. -/
theorem created_not_freed : (splitInto 0 70000).1 = .ok ⟨0, 0, 70000⟩ ∧
    ofArguments ("/usr/bin/ascend-docker-destroy" :: arguments ⟨0, 0, 70000⟩) =
      .error (.of (.idTooLarge 70000 65535)) := by
  decide +kernel

end NpuRuntime.Slice
