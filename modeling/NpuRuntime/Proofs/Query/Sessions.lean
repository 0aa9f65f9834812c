import NpuRuntime.Proofs.Query.Asking

/-! # Sessions in a trace
A trace taken apart into stretches: a start that failed, or a session from its start to its
shutdown. The calls of a trace are those that the service was asked, one after the other. -/
namespace NpuRuntime.Query

variable {σ ω ω' ε α : Type} {svc : Service σ}

/-- A call that belongs inside a session. -/
def Call.isInner : Call → Bool
  | .start | .shutdown => false
  | _ => true

theorem Call.isInner_of_isQuestion {c : Call} (hc : c.isQuestion = true) : c.isInner = true := by
  cases c <;> first | rfl | cases hc

/-- A start that failed stands alone. After a start that succeeded come inner calls, then one
shutdown. -/
inductive Stretch : List Event → Prop
  | refused (f : Fault) : Stretch [⟨.start, .error f⟩]
  | session {calls : List Event} {closing : Event} (inner : ∀ e ∈ calls, e.call.isInner = true)
      (shutdown : closing.call = .shutdown) : Stretch (⟨.start, .ok ()⟩ :: (calls ++ [closing]))

/-- The service answers these calls in turn, and remembers what it then remembers. -/
inductive Answers (svc : Service σ) : σ → List Event → σ → Prop
  | nil (m : σ) : Answers svc m [] m
  | cons {c : Call} {m n : σ} {rest : List Event} (later : Answers svc (svc.respond c m).2 rest n) :
      Answers svc m (⟨c, (svc.respond c m).1.result⟩ :: rest) n

namespace Answers

theorem one (c : Call) (m : σ) :
    Answers svc m [⟨c, (svc.respond c m).1.result⟩] (svc.respond c m).2 :=
  .cons (.nil _)

theorem append {k m n : σ} {first second : List Event} (hf : Answers svc k first m)
    (hs : Answers svc m second n) : Answers svc k (first ++ second) n := by
  induction hf with
  | nil m => exact hs
  | cons _ ih => exact .cons (ih hs)

/-- Each of the calls was answered from something that was remembered then. -/
theorem exists_of_mem {m n : σ} {made : List Event} {e : Event} (ha : Answers svc m made n)
    (he : e ∈ made) : ∃ k, (svc.respond e.call k).1.result = e.result := by
  induction ha with
  | nil => cases he
  | @cons c k _ _ _ ih =>
    rcases List.mem_cons.mp he with rfl | he
    · exact ⟨k, rfl⟩
    · exact ih he

end Answers

/-- Only inner calls were made. -/
def inner (svc : Service σ) : Frame σ ω where
  Holds r s := ∃ made, s.trace = r.trace ++ made ∧ (∀ e ∈ made, e.call.isInner = true) ∧
    Answers svc r.memory made s.memory
  refl r := ⟨[], by simp, by simp, .nil _⟩
  trans := by
    rintro r s t ⟨first, hs, hf, hrs⟩ ⟨second, ht, hg, hst⟩
    refine ⟨first ++ second, by rw [ht, hs, List.append_assoc], fun e he => ?_, hrs.append hst⟩
    rcases List.mem_append.mp he with he | he
    · exact hf e he
    · exact hg e he
  noted r _ := ⟨[], by simp, by simp, .nil _⟩

theorem admits_inner {c : Call} (hc : c.isInner = true) :
    (inner svc : Frame σ ω).Admits svc c :=
  fun r => ⟨_, trace_answered r svc c, by simpa using hc, .one c r.memory⟩

theorem Asks.inner {a : Act σ ω ε α} (ha : Asks svc a) : (inner svc).Within a :=
  ha.within fun _ hc => admits_inner (Call.isInner_of_isQuestion hc)

/-- All calls between two runs stand in stretches, one behind the other. -/
def InSessions (svc : Service σ) (r : Run σ ω) (s : Run σ ω') : Prop :=
  ∃ stretches : List (List Event), s.trace = r.trace ++ stretches.flatten ∧
    (∀ x ∈ stretches, Stretch x) ∧ Answers svc r.memory stretches.flatten s.memory

theorem InSessions.refl (r : Run σ ω) : InSessions svc r r := ⟨[], by simp, by simp, .nil _⟩

theorem InSessions.trans {ω'' : Type} {r : Run σ ω} {s : Run σ ω'} {t : Run σ ω''}
    (hrs : InSessions svc r s) (hst : InSessions svc s t) : InSessions svc r t := by
  obtain ⟨first, hs, hf, ha⟩ := hrs
  obtain ⟨second, ht, hg, hb⟩ := hst
  refine ⟨first ++ second, ?_, fun x hx => ?_, ?_⟩
  · rw [ht, hs, List.flatten_append, List.append_assoc]
  · rcases List.mem_append.mp hx with hx | hx
    · exact hf x hx
    · exact hg x hx
  · rw [List.flatten_append]
    exact ha.append hb

theorem InSessions.one {r : Run σ ω} {s : Run σ ω'} {x : List Event} (hx : Stretch x)
    (ht : s.trace = r.trace ++ x) (ha : Answers svc r.memory x s.memory) : InSessions svc r s :=
  ⟨[x], by simpa using ht, by simpa using hx, by simpa using ha⟩

def sessions (svc : Service σ) : Frame σ ω where
  Holds := InSessions svc
  refl := InSessions.refl
  trans := InSessions.trans
  noted _ _ := ⟨[], by simp, by simp, .nil _⟩

/-- However a session's body ends, the session is one stretch. -/
theorem within_sessions {lift : Fault → ε} {body : Act σ ω ε α} (hb : (inner svc).Within body) :
    (sessions svc).Within (withSession svc lift body) := by
  intro r
  have hopen := trace_answered r svc .start
  have hfirst : Answers svc r.memory _ (svc.respond .start r.memory).2 := .one .start r.memory
  rw [outcome_withSession]
  rcases hstart : (svc.respond .start r.memory).1.result with f | ⟨⟩
  · rw [hstart] at hopen hfirst
    exact InSessions.one (.refused f) hopen hfirst
  · rw [hstart] at hopen hfirst
    dsimp only
    obtain ⟨calls, hcalls, hinner, hanswers⟩ := hb ((r.answered svc .start).noted [openedNote])
    generalize (outcome body ((r.answered svc .start).noted [openedNote])).2 = t
      at hcalls hanswers ⊢
    refine InSessions.one (.session hinner rfl) ?_
      (hfirst.append (hanswers.append (.one .shutdown t.memory)))
    rw [trace_noted, trace_answered, hcalls, trace_noted, hopen]
    simp

end NpuRuntime.Query
