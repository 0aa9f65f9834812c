import NpuRuntime.Proofs.Fallible
import NpuRuntime.Query.Basic

/-! # Outcomes of steps
What each building block of steps does to a run. Everything about longer steps is put together
from these equations. -/
namespace NpuRuntime.Query

variable {σ ω ε ε' α β : Type}

/-- The result of some steps and the run after them. -/
def outcome (a : Act σ ω ε α) (r : Run σ ω) : Except ε α × Run σ ω := a.run r

@[simp] theorem outcome_pure (x : α) (r : Run σ ω) :
    outcome (pure x : Act σ ω ε α) r = (.ok x, r) := rfl

@[simp] theorem outcome_ofExcept (x : Except ε α) (r : Run σ ω) :
    outcome (MonadExcept.ofExcept x : Act σ ω ε α) r = (x, r) := by
  cases x <;> rfl

/-- A run with more records. -/
def Run.noted (r : Run σ ω) (ls : List Record) : Run σ ω := { r with log := r.log ++ ls }

@[simp] theorem outcome_note (l : Record) (r : Run σ ω) :
    outcome (note l : Act σ ω ε Unit) r = (.ok (), r.noted [l]) := rfl

@[simp] theorem outcome_noteAll (ls : List Record) (r : Run σ ω) :
    outcome (noteAll ls : Act σ ω ε Unit) r = (.ok (), r.noted ls) := rfl

@[simp] theorem outcome_current (r : Run σ ω) :
    outcome (current : Act σ ω ε ω) r = (.ok r.work, r) := rfl

/-- A run that works on something else. -/
def Run.working (r : Run σ ω) (w : ω) : Run σ ω := { r with work := w }

@[simp] theorem outcome_update (f : ω → ω) (r : Run σ ω) :
    outcome (update f : Act σ ω ε Unit) r = (.ok (), r.working (f r.work)) := rfl

/-- The same run with something else in hand. -/
def Run.over {ω' : Type} (r : Run σ ω) (w : ω') : Run σ ω' :=
  { memory := r.memory, work := w, trace := r.trace, log := r.log }

theorem outcome_workingOn {ω' : Type} (w : ω') (a : Act σ ω' ε α) (r : Run σ ω) :
    outcome (workingOn w a : Act σ ω ε (α × ω')) r =
      ((outcome a (r.over w)).1.map fun x => (x, (outcome a (r.over w)).2.work),
        (outcome a (r.over w)).2.over r.work) := rfl

@[simp] theorem outcome_attempt (a : Act σ ω ε α) (r : Run σ ω) :
    outcome (attempt a : Act σ ω ε' (Except ε α)) r = (.ok (outcome a r).1, (outcome a r).2) := rfl

@[simp] theorem outcome_mapFailure (f : ε → ε') (a : Act σ ω ε α) (r : Run σ ω) :
    outcome (mapFailure f a) r = ((outcome a r).1.mapError f, (outcome a r).2) := rfl

/-- A run after one answered call. -/
def Run.answered (r : Run σ ω) (svc : Service σ) (c : Call) : Run σ ω :=
  let answer := svc.respond c r.memory
  { r with
    memory := answer.2, trace := r.trace ++ [⟨c, answer.1.result⟩], log := r.log ++ answer.1.notes }

@[simp] theorem outcome_ask (svc : Service σ) (c : Call) (r : Run σ ω) :
    outcome (ask svc c : Act σ ω Fault c.Answer) r =
      ((svc.respond c r.memory).1.result, r.answered svc c) :=
  outcome_ofExcept (svc.respond c r.memory).1.result (r.answered svc c)

@[simp] theorem work_noted (r : Run σ ω) (ls : List Record) : (r.noted ls).work = r.work := rfl

@[simp] theorem trace_noted (r : Run σ ω) (ls : List Record) : (r.noted ls).trace = r.trace := rfl

@[simp] theorem trace_working (r : Run σ ω) (w : ω) : (r.working w).trace = r.trace := rfl

theorem trace_answered (r : Run σ ω) (svc : Service σ) (c : Call) :
    (r.answered svc c).trace = r.trace ++ [⟨c, (svc.respond c r.memory).1.result⟩] := rfl

theorem outcome_bind (a : Act σ ω ε α) (f : α → Act σ ω ε β) (r : Run σ ω) :
    outcome (a >>= f) r = match outcome a r with
      | (.ok x, r') => outcome (f x) r'
      | (.error e, r') => (.error e, r') := by
  change (match outcome a r with | (x, r') => (ExceptT.bindCont f x : StateM (Run σ ω) _) r') = _
  rcases outcome a r with ⟨x | x, r'⟩ <;> rfl

/-- What comes next matters only for the value that there is. -/
theorem ofExcept_bind_congr {x : Except ε α} {f g : α → Act σ ω ε β}
    (hfg : ∀ a, x = .ok a → f a = g a) :
    (MonadExcept.ofExcept x >>= f) = (MonadExcept.ofExcept x >>= g) := by
  cases x with
  | error e => rfl
  | ok a => exact hfg a rfl

/-- What is made of a result is made of it alone. -/
theorem result_bind_pure (a : Act σ ω ε α) (f : α → β) (r : Run σ ω) :
    (outcome (a >>= fun x => pure (f x)) r).1 = (outcome a r).1.map f := by
  rw [outcome_bind]
  rcases outcome a r with ⟨e | x, r'⟩ <;> rfl

/-- A value that is there is handed on, and nothing else has happened. -/
theorem result_ofExcept_bind {x : Except ε α} {f : α → Act σ ω ε β} {r : Run σ ω} {y : β} :
    (outcome (MonadExcept.ofExcept x >>= f) r).1 = .ok y ↔
      ∃ a, x = .ok a ∧ (outcome (f a) r).1 = .ok y := by
  rw [outcome_bind, outcome_ofExcept]
  cases x <;> simp

theorem outcome_eq_of_result {a : Act σ ω ε α} {r : Run σ ω} {x : Except ε α}
    (h : (outcome a r).1 = x) : outcome a r = (x, (outcome a r).2) := Prod.ext h rfl

/-- A sequence succeeds through a success of its first part. -/
theorem outcome_bind_eq_ok {a : Act σ ω ε α} {f : α → Act σ ω ε β} {r r'' : Run σ ω} {y : β} :
    outcome (a >>= f) r = (.ok y, r'') ↔
      ∃ x r', outcome a r = (.ok x, r') ∧ outcome (f x) r' = (.ok y, r'') := by
  rw [outcome_bind]
  rcases outcome a r with ⟨x | x, r'⟩
  · simp
  · exact ⟨fun h => ⟨x, r', rfl, h⟩, fun ⟨_, _, e, h⟩ => by cases e; exact h⟩

/-- It fails through a failure of its first part, or of what comes behind a success of that. -/
theorem outcome_bind_eq_error {a : Act σ ω ε α} {f : α → Act σ ω ε β} {r r'' : Run σ ω} {e : ε} :
    outcome (a >>= f) r = (.error e, r'') ↔ outcome a r = (.error e, r'') ∨
      ∃ x r', outcome a r = (.ok x, r') ∧ outcome (f x) r' = (.error e, r'') := by
  rw [outcome_bind]
  rcases outcome a r with ⟨x | x, r'⟩
  · simp
  · refine ⟨fun h => .inr ⟨x, r', rfl, h⟩, ?_⟩
    rintro (h | ⟨y, t, hy, h⟩)
    · cases h
    · cases hy
      exact h

theorem outcome_mapFailure_eq_ok {f : ε → ε'} {a : Act σ ω ε α} {r r' : Run σ ω} {x : α} :
    outcome (mapFailure f a) r = (.ok x, r') ↔ outcome a r = (.ok x, r') := by
  rw [outcome_mapFailure]
  rcases outcome a r with ⟨y | y, t⟩ <;> simp

theorem outcome_mapFailure_eq_error {f : ε → ε'} {a : Act σ ω ε α} {r r' : Run σ ω} {e : ε'} :
    outcome (mapFailure f a) r = (.error e, r') ↔
      ∃ e', outcome a r = (.error e', r') ∧ f e' = e := by
  rw [outcome_mapFailure]
  rcases outcome a r with ⟨y | y, t⟩
  · constructor
    · intro h
      cases h
      exact ⟨y, rfl, rfl⟩
    · rintro ⟨e', he', rfl⟩
      cases he'
      rfl
  · simp

def openedNote : Record := ⟨.debug, .query, "dcmi session opened"⟩

def closedNote : Record := ⟨.debug, .query, "dcmi session closed"⟩

/-- A session's body runs between a successful start and a shutdown. -/
theorem outcome_withSession (svc : Service σ) (lift : Fault → ε) (body : Act σ ω ε α)
    (r : Run σ ω) : outcome (withSession svc lift body) r =
      match (svc.respond .start r.memory).1.result with
      | .error f => (.error (lift f), r.answered svc .start)
      | .ok () =>
        let inside := outcome body ((r.answered svc .start).noted [openedNote])
        (inside.1, (inside.2.answered svc .shutdown).noted [closedNote]) := by
  unfold withSession
  rw [outcome_bind, outcome_mapFailure, outcome_ask]
  rcases (svc.respond .start r.memory).1.result with f | ⟨⟩
  · rfl
  · have hs (t : Run σ ω) := outcome_ask (ω := ω) svc .shutdown t
    simp only [mapError_ok, outcome_bind, outcome_note, outcome_attempt, outcome_ofExcept]
    rw [hs]
    rfl

end NpuRuntime.Query
