import NpuRuntime.Proofs.Query.Run

/-! # Frames
What some steps leave as it was, or change in an agreed way only. A frame is a relation between
the run before and the run after; steps that each keep it keep it together. -/
namespace NpuRuntime.Query

variable {σ ω ε ε' α β : Type}

/-- A relation that no record breaks and that carries over sequences. -/
structure Frame (σ ω : Type) where
  Holds : Run σ ω → Run σ ω → Prop
  refl : ∀ r, Holds r r
  trans : ∀ {r s t}, Holds r s → Holds s t → Holds r t
  noted : ∀ r ls, Holds r (r.noted ls)

namespace Frame

/-- What is worked on changes only as `change` says. -/
def work (change : ω → ω → Prop) (refl : ∀ w, change w w)
    (trans : ∀ {u v w}, change u v → change v w → change u w) : Frame σ ω where
  Holds r s := change r.work s.work
  refl r := refl r.work
  trans := trans
  noted r _ := refl r.work

/-- What is worked on stays the same. -/
def still : Frame σ ω := work (· = ·) (fun _ => rfl) Eq.trans

/-- All calls made are allowed. -/
def calls (allowed : Call → Prop) : Frame σ ω where
  Holds r s := ∃ made, s.trace = r.trace ++ made ∧ ∀ e ∈ made, allowed e.call
  refl r := ⟨[], by simp, by simp⟩
  trans := by
    rintro r s t ⟨first, hs, hf⟩ ⟨second, ht, hg⟩
    refine ⟨first ++ second, by rw [ht, hs, List.append_assoc], fun e he => ?_⟩
    rcases List.mem_append.mp he with he | he
    · exact hf e he
    · exact hg e he
  noted r _ := ⟨[], by simp, by simp⟩

/-- Nothing is asked, and nothing but records is new. -/
def untouched : Frame σ ω where
  Holds r s := s.memory = r.memory ∧ s.trace = r.trace ∧ s.work = r.work
  refl _ := ⟨rfl, rfl, rfl⟩
  trans h k := ⟨k.1.trans h.1, k.2.1.trans h.2.1, k.2.2.trans h.2.2⟩
  noted _ _ := ⟨rfl, rfl, rfl⟩

/-- Both frames at once. -/
def inter (F G : Frame σ ω) : Frame σ ω where
  Holds r s := F.Holds r s ∧ G.Holds r s
  refl r := ⟨F.refl r, G.refl r⟩
  trans h k := ⟨F.trans h.1 k.1, G.trans h.2 k.2⟩
  noted r ls := ⟨F.noted r ls, G.noted r ls⟩

variable {F G : Frame σ ω}

/-- A call keeps the frame, whatever is answered. -/
def Admits (F : Frame σ ω) (svc : Service σ) (c : Call) : Prop :=
  ∀ r : Run σ ω, F.Holds r (r.answered svc c)

theorem admits_work {change : ω → ω → Prop} {refl : ∀ w, change w w}
    {trans : ∀ {u v w}, change u v → change v w → change u w} (svc : Service σ) (c : Call) :
    (work change refl trans).Admits svc c :=
  fun r => refl r.work

theorem admits_calls {allowed : Call → Prop} (svc : Service σ) {c : Call} (h : allowed c) :
    (calls allowed : Frame σ ω).Admits svc c :=
  fun r => ⟨_, trace_answered r svc c, by simpa using h⟩

theorem Admits.inter {svc : Service σ} {c : Call} (hF : F.Admits svc c) (hG : G.Admits svc c) :
    (F.inter G).Admits svc c :=
  fun r => ⟨hF r, hG r⟩

/-- Steps that keep the frame from every run on, whether they fail or not. -/
def Within (F : Frame σ ω) (a : Act σ ω ε α) : Prop := ∀ r, F.Holds r (outcome a r).2

theorem Within.holds {a : Act σ ω ε α} (ha : F.Within a) {x : Except ε α} {r r' : Run σ ω}
    (hr : outcome a r = (x, r')) : F.Holds r r' := by
  have hkept := ha r
  rwa [hr] at hkept

theorem within_pure (x : α) : F.Within (pure x : Act σ ω ε α) := F.refl

theorem within_throw (e : ε) : F.Within (throw e : Act σ ω ε α) := F.refl

theorem within_ofExcept (x : Except ε α) : F.Within (MonadExcept.ofExcept x : Act σ ω ε α) := by
  intro r
  rw [outcome_ofExcept]
  exact F.refl r

theorem within_current : F.Within (current : Act σ ω ε ω) := F.refl

theorem within_note (l : Record) : F.Within (note l : Act σ ω ε Unit) := fun r => F.noted r [l]

theorem within_ask {svc : Service σ} {c : Call} (h : F.Admits svc c) :
    F.Within (ask svc c : Act σ ω Fault c.Answer) := by
  intro r
  rw [outcome_ask]
  exact h r

theorem Within.bind {a : Act σ ω ε α} {f : α → Act σ ω ε β} (ha : F.Within a)
    (hf : ∀ x, F.Within (f x)) : F.Within (a >>= f) := by
  intro r
  have hr := ha r
  rw [outcome_bind]
  generalize outcome a r = o at hr ⊢
  rcases o with ⟨e | x, r'⟩
  · exact hr
  · exact F.trans hr (hf x r')

/-- What comes behind a check may rely on it. -/
theorem within_ofExcept_bind {x : Except ε α} {lift : ε → ε'} {f : α → Act σ ω ε' β}
    (hf : ∀ y, x = .ok y → F.Within (f y)) :
    F.Within (mapFailure lift (MonadExcept.ofExcept x) >>= f) := by
  intro r
  rw [outcome_bind, outcome_mapFailure, outcome_ofExcept]
  cases x with
  | error e => exact F.refl r
  | ok y => exact hf y rfl r

theorem within_forM {f : α → Act σ ω ε PUnit} (xs : List α) (hf : ∀ x, F.Within (f x)) :
    F.Within (xs.forM f) := by
  induction xs with
  | nil => exact within_pure _
  | cons x xs ih => exact (hf x).bind fun _ => ih

theorem Within.attempt {a : Act σ ω ε α} (ha : F.Within a) :
    F.Within (attempt a : Act σ ω ε' (Except ε α)) := ha

theorem Within.mapFailure {a : Act σ ω ε α} (ha : F.Within a) (f : ε → ε') :
    F.Within (mapFailure f a) := ha

theorem Within.withSession {svc : Service σ} {lift : Fault → ε} {body : Act σ ω ε α}
    (hs : F.Admits svc .start) (hd : F.Admits svc .shutdown) (hb : F.Within body) :
    F.Within (withSession svc lift body) :=
  ((within_ask hs).mapFailure lift).bind fun _ => (within_note _).bind fun _ =>
    hb.attempt.bind fun _ => (within_ask hd).attempt.bind fun _ =>
      (within_note _).bind fun _ => within_ofExcept _

end Frame

end NpuRuntime.Query
