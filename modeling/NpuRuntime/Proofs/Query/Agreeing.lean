import NpuRuntime.Proofs.Query.Asking

/-! # Two runs of the same steps
Steps that are run twice, with two things in hand that are related but not the same. Where they
come to the same result both times, and hand related things on, the driver sees one sequence of
calls and gives one sequence of answers. Records are left aside. -/
namespace NpuRuntime.Query

variable {σ ω ε ε' α β : Type} {P Q R : ω → ω → Prop}

/-- Two runs that have asked the same and were told the same, with related things in hand. -/
structure Together (R : ω → ω → Prop) (r q : Run σ ω) : Prop where
  memory : r.memory = q.memory
  trace : r.trace = q.trace
  work : R r.work q.work

namespace Together

variable {r q : Run σ ω}

theorem noted (h : Together R r q) (ls ks : List Record) : Together R (r.noted ls) (q.noted ks) :=
  ⟨h.memory, h.trace, h.work⟩

theorem working (h : Together P r q) {u v : ω} (huv : Q u v) :
    Together Q (r.working u) (q.working v) :=
  ⟨h.memory, h.trace, huv⟩

theorem weaken (h : Together P r q) (hPQ : ∀ u v, P u v → Q u v) : Together Q r q :=
  ⟨h.memory, h.trace, hPQ _ _ h.work⟩

theorem answered (h : Together R r q) (svc : Service σ) (c : Call) :
    Together R (r.answered svc c) (q.answered svc c) where
  memory := by
    unfold Run.answered
    rw [h.memory]
  trace := by rw [trace_answered, trace_answered, h.memory, h.trace]
  work := h.work

end Together

/-- Steps that come to one result from any two runs that go together by `P`. Whether they fail or
not, the runs go together by `Q` behind them. -/
def Agrees (P Q : ω → ω → Prop) (a : Act σ ω ε α) : Prop :=
  ∀ r q, Together P r q → (outcome a r).1 = (outcome a q).1 ∧
    Together Q (outcome a r).2 (outcome a q).2

namespace Agrees

theorem pure (x : α) : Agrees R R (pure x : Act σ ω ε α) := fun _ _ h => ⟨rfl, h⟩

theorem throw (e : ε) : Agrees R R (throw e : Act σ ω ε α) := fun _ _ h => ⟨rfl, h⟩

theorem ofExcept (x : Except ε α) : Agrees R R (MonadExcept.ofExcept x : Act σ ω ε α) := by
  intro r q h
  rw [outcome_ofExcept, outcome_ofExcept]
  exact ⟨rfl, h⟩

theorem note (l : Record) : Agrees R R (note l : Act σ ω ε Unit) :=
  fun _ _ h => ⟨rfl, h.noted [l] [l]⟩

theorem ask (svc : Service σ) (c : Call) : Agrees R R (ask svc c : Act σ ω Fault c.Answer) := by
  intro r q h
  rw [outcome_ask, outcome_ask]
  exact ⟨by rw [h.memory], h.answered svc c⟩

/-- Both runs fail for one reason or hand on one value. -/
theorem outcomes {a : Act σ ω ε α} {r q : Run σ ω} (ha : Agrees P Q a) (h : Together P r q) :
    (∃ e r' q', outcome a r = (.error e, r') ∧ outcome a q = (.error e, q') ∧
      Together Q r' q') ∨
    ∃ x r' q', outcome a r = (.ok x, r') ∧ outcome a q = (.ok x, q') ∧ Together Q r' q' := by
  obtain ⟨hresult, hafter⟩ := ha r q h
  cases hr : (outcome a r).1 with
  | error e =>
    exact .inl ⟨e, _, _, outcome_eq_of_result hr, outcome_eq_of_result (hresult ▸ hr), hafter⟩
  | ok x =>
    exact .inr ⟨x, _, _, outcome_eq_of_result hr, outcome_eq_of_result (hresult ▸ hr), hafter⟩

theorem bind {S : ω → ω → Prop} {a : Act σ ω ε α} {f : α → Act σ ω ε β} (ha : Agrees P Q a)
    (hf : ∀ x, Agrees Q S (f x)) (hQS : ∀ u v, Q u v → S u v) : Agrees P S (a >>= f) := by
  intro r q h
  rw [outcome_bind, outcome_bind]
  obtain ⟨e, r', q', hr, hq, hafter⟩ | ⟨x, r', q', hr, hq, hafter⟩ := ha.outcomes h
  · rw [hr, hq]
    exact ⟨rfl, hafter.weaken hQS⟩
  · rw [hr, hq]
    exact hf x r' q' hafter

/-- A sequence in which every step keeps the same relation. -/
theorem andThen {a : Act σ ω ε α} {f : α → Act σ ω ε β} (ha : Agrees R R a)
    (hf : ∀ x, Agrees R R (f x)) : Agrees R R (a >>= f) :=
  ha.bind hf fun _ _ h => h

theorem attempt {a : Act σ ω ε α} (ha : Agrees P Q a) :
    Agrees P Q (attempt a : Act σ ω ε' (Except ε α)) := by
  intro r q h
  obtain ⟨hresult, hafter⟩ := ha r q h
  rw [outcome_attempt, outcome_attempt]
  exact ⟨congrArg Except.ok hresult, hafter⟩

theorem mapFailure {a : Act σ ω ε α} (ha : Agrees P Q a) (f : ε → ε') :
    Agrees P Q (mapFailure f a) := by
  intro r q h
  obtain ⟨hresult, hafter⟩ := ha r q h
  rw [outcome_mapFailure, outcome_mapFailure]
  exact ⟨congrArg (Except.mapError f) hresult, hafter⟩

theorem forM {f : α → Act σ ω ε PUnit} (xs : List α) (hf : ∀ x, Agrees R R (f x)) :
    Agrees R R (xs.forM f) := by
  induction xs with
  | nil => exact .pure _
  | cons x xs ih => exact (hf x).andThen fun _ => ih

theorem withSession (svc : Service σ) {lift : Fault → ε} {body : Act σ ω ε α}
    (hb : Agrees R R body) : Agrees R R (withSession svc lift body) :=
  ((Agrees.ask svc .start).mapFailure lift).andThen fun _ => (Agrees.note _).andThen fun _ =>
    hb.attempt.andThen fun _ => (Agrees.ask svc .shutdown).attempt.andThen fun _ =>
      (Agrees.note _).andThen fun _ => Agrees.ofExcept _

end Agrees

/-- What is in hand has no part in a search. -/
theorem Asks.agrees {svc : Service σ} {a : Act σ ω ε α} (ha : Asks svc a) : Agrees R R a := by
  induction ha with
  | pure x => exact .pure x
  | throw e => exact .throw e
  | note l => exact .note l
  | ask => exact .ask svc _
  | bind _ _ iha ihf => exact iha.andThen ihf
  | attempt _ ih => exact ih.attempt

end NpuRuntime.Query
