import NpuRuntime.Proofs.Query.Scripted
import NpuRuntime.Proofs.Selection.Grammar
import NpuRuntime.Proofs.Slice.Freed

/-! # Slices named on a command line
The helper frees the slice that its three arguments name, each of them a small number in plain
digits. With any other command line it leaves the driver alone. -/
namespace NpuRuntime.Slice

open Query

variable {σ ω : Type} {argv : List String} {arg : String} {n : Nat} {s : Slice}

/-- A number in plain digits that the helper takes; leading zeros count for nothing. -/
structure IsId (arg : String) (n : Nat) : Prop where
  digits : Text.Digits arg.toList n
  small : n ≤ 65535

/-- The program's name, and three ids behind it. -/
inductive Named : List String → Slice → Prop
  | triple (program : String) {card device slice : String} {c d v : Nat} (hcard : IsId card c)
      (hdevice : IsId device d) (hslice : IsId slice v) :
    Named [program, card, device, slice] ⟨c, d, v⟩

theorem readId_eq_ok_iff : readId arg = .ok n ↔ IsId arg n := by
  have hdigits : Text.natural? arg = some n ↔ Text.Digits arg.toList n := Text.digits?_eq_some_iff
  have hmax : maxId = 65535 := rfl
  have hsize : UInt32.size = 4294967296 := rfl
  constructor
  · intro h
    unfold readId at h
    split at h
    · cases h
    · next m hm =>
      split at h
      · cases h
      · split at h
        · cases h
        · next hsmall =>
          cases h
          exact ⟨hdigits.mp hm, hmax ▸ Nat.not_lt.mp hsmall⟩
  · rintro ⟨hn, hsmall⟩
    simp only [readId, hdigits.mpr hn]
    rw [if_neg (by omega), if_neg (by omega)]

theorem ofArguments_eq_ok_iff : ofArguments argv = .ok s ↔ Named argv s := by
  constructor
  · intro h
    unfold ofArguments at h
    split at h
    · next card device slice hargv =>
      obtain ⟨c, hcard, h⟩ := bind_eq_ok.mp h
      obtain ⟨d, hdevice, h⟩ := bind_eq_ok.mp h
      obtain ⟨v, hslice, h⟩ := bind_eq_ok.mp h
      cases h
      cases argv with
      | nil => cases hargv
      | cons program rest =>
        obtain rfl : rest = [card, device, slice] := hargv
        exact .triple program (readId_eq_ok_iff.mp hcard) (readId_eq_ok_iff.mp hdevice)
          (readId_eq_ok_iff.mp hslice)
    · cases h
  · rintro ⟨program, hcard, hdevice, hslice⟩
    refine bind_eq_ok.mpr ⟨_, readId_eq_ok_iff.mpr hcard, ?_⟩
    refine bind_eq_ok.mpr ⟨_, readId_eq_ok_iff.mpr hdevice, ?_⟩
    exact bind_eq_ok.mpr ⟨_, readId_eq_ok_iff.mpr hslice, rfl⟩

theorem result_free (svc : Service σ) (s : Slice) (r : Run σ ω) : (outcome (free svc s) r).1 =
    (svc.respond (.destroy s.card s.device s.slice) r.memory).1.result := by
  have hask := outcome_ask (ω := ω) svc (.destroy s.card s.device s.slice) r
  unfold free
  rw [outcome_bind, hask]
  cases (svc.respond (.destroy s.card s.device s.slice) r.memory).1.result <;> rfl

/-- Freeing succeeds exactly if the driver starts and then frees the slice. -/
theorem destroy_eq_ok_iff (svc : Service σ) (s : Slice) (r : Run σ ω) :
    (outcome (destroy svc s) r).1 = .ok () ↔ (svc.respond .start r.memory).1.result = .ok () ∧
      (svc.respond (.destroy s.card s.device s.slice) (svc.respond .start r.memory).2).1.result =
        .ok () := by
  unfold destroy
  rw [outcome_withSession]
  cases (svc.respond .start r.memory).1.result with
  | error f => simp
  | ok =>
    rw [and_iff_right rfl]
    exact Eq.congr_left (result_free svc s _)

/-- The helper opens a session for a slice that is named, and if it opens, frees that slice in it
and closes it. It succeeds exactly if the driver starts and frees the slice. When no slice is named
it fails, and nothing is asked. -/
theorem runDestruction_acts (svc : Service σ) (argv : List String) (r : Run σ ω) :
    let ended := outcome (runDestruction svc argv) r
    let opened := svc.respond .start r.memory
    (∀ s, Named argv s →
      asked ended.2 = asked r ++ .start :: (if opened.1.result.isOk
        then [.destroy s.card s.device s.slice, .shutdown] else []) ∧
      (ended.1 = .ok () ↔ opened.1.result = .ok () ∧
        (svc.respond (.destroy s.card s.device s.slice) opened.2).1.result = .ok ())) ∧
    ((∀ s, ¬ Named argv s) → ended.2 = r ∧ ∃ f, ended.1 = .error f) := by
  dsimp only
  rw [outcome_runDestruction]
  constructor
  · intro s hs
    rw [ofArguments_eq_ok_iff.mpr hs]
    refine ⟨asked_destroy s r, ?_⟩
    rw [← destroy_eq_ok_iff]
    dsimp only
    rw [outcome_mapFailure]
    exact mapError_eq_ok
  · intro hnone
    cases hread : ofArguments argv with
    | error f => exact ⟨rfl, f, rfl⟩
    | ok s => exact absurd (ofArguments_eq_ok_iff.mp hread) (hnone s)

/-- The helper with these ids on its command line, and a driver that does as it is told. -/
def freeing (ids : List String) : Except Failure Unit × Run Scripted.Counts Unit :=
  outcome (runDestruction Scripted.standard ("ascend-docker-destroy" :: ids)) ⟨[], (), [], []⟩

/-- The largest id that is taken, behind zeros, and the next one. -/
theorem runDestruction_acts_largest :
    (asked (freeing ["0", "3", "00065535"]).2 = [.start, .destroy 0 3 65535, .shutdown] ∧
      (freeing ["0", "3", "00065535"]).1 = .ok ()) ∧
    asked (freeing ["0", "3", "65536"]).2 = [] ∧
      ∃ f, (freeing ["0", "3", "65536"]).1 = .error f := by
  constructor
  · have hs : Named ["ascend-docker-destroy", "0", "3", "00065535"] ⟨0, 3, 65535⟩ :=
      ofArguments_eq_ok_iff.mp (by decide +kernel)
    obtain ⟨hasked, hended⟩ :=
      (runDestruction_acts Scripted.standard _ ⟨[], (), [], []⟩).1 _ hs
    exact ⟨hasked, hended.mpr ⟨by decide +kernel, by decide +kernel⟩⟩
  · have hnone (s : Slice) : ¬ Named ["ascend-docker-destroy", "0", "3", "65536"] s := by
      intro hs
      have hread : ofArguments ["ascend-docker-destroy", "0", "3", "65536"] =
          .error (.of (.idTooLarge 65536 65535)) := by decide +kernel
      rw [ofArguments_eq_ok_iff.mpr hs] at hread
      cases hread
    obtain ⟨hasked, hended⟩ :=
      (runDestruction_acts Scripted.standard _ ⟨[], (), [], []⟩).2 hnone
    exact ⟨congrArg asked hasked, hended⟩

end NpuRuntime.Slice
