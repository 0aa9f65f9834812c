import NpuRuntime.Proofs.Query.Frame
import NpuRuntime.Query.Search

/-! # Asking the driver
Every search is made of questions and records alone. So it keeps each frame that questions keep,
and a service that forgets gives it one result. -/
namespace NpuRuntime.Query

variable {σ ω ε α : Type}

/-- A call that asks for something and changes nothing. -/
def Call.isQuestion : Call → Bool
  | .start | .shutdown | .create .. | .destroy .. => false
  | _ => true

/-- A call that makes a slice. -/
def Call.isCreate : Call → Bool
  | .create .. => true
  | _ => false

theorem Call.isCreate_of_isQuestion {c : Call} (hc : c.isQuestion = true) :
    c.isCreate = false := by
  cases c <;> first | rfl | cases hc

/-- Steps made of questions and records. -/
inductive Asks (svc : Service σ) : {ε α : Type} → Act σ ω ε α → Prop
  | pure {ε α : Type} (x : α) : Asks svc (pure x : Act σ ω ε α)
  | throw {ε α : Type} (e : ε) : Asks svc (throw e : Act σ ω ε α)
  | note {ε : Type} (l : Record) : Asks svc (note l : Act σ ω ε Unit)
  | ask {c : Call} (hc : c.isQuestion = true) : Asks svc (ask svc c : Act σ ω Fault c.Answer)
  | bind {ε α β : Type} {a : Act σ ω ε α} {f : α → Act σ ω ε β} :
    Asks svc a → (∀ x, Asks svc (f x)) → Asks svc (a >>= f)
  | attempt {ε ε' α : Type} {a : Act σ ω ε α} :
    Asks svc a → Asks svc (attempt a : Act σ ω ε' (Except ε α))

variable {svc : Service σ}

namespace Asks

theorem findOnCard (card : Int) (logicId left : Nat) (device : Int) :
    Asks svc (findOnCard svc card logicId left device : Act σ ω Fault (Option Int)) := by
  induction left generalizing device with
  | zero => exact .pure _
  | succ left ih =>
    refine .bind (.ask rfl) fun id => ?_
    split
    · exact .pure _
    · exact ih _

theorem findOnCards (physical logicId : Nat) (cards : List Int) :
    Asks svc (findOnCards svc physical logicId cards : Act σ ω Fault (Int × Int)) := by
  induction cards with
  | nil => exact .throw _
  | cons card cards ih =>
    refine .bind (.ask rfl) fun count => .bind (findOnCard card logicId _ 0) fun found => ?_
    cases found with
    | none => exact ih
    | some device => exact .bind (.note _) fun _ => .pure _

theorem findDevice (physical : Nat) :
    Asks svc (findDevice svc physical : Act σ ω Fault (Int × Int)) := by
  refine .bind (.ask rfl) fun logicId => ?_
  have search : Asks svc (do Query.findOnCards svc physical logicId (← Query.ask svc .cardList) :
      Act σ ω Fault (Int × Int)) := .bind (.ask rfl) (findOnCards physical logicId)
  split
  · exact .bind (.throw _) fun _ => search
  · exact search

theorem chipOnCard (card : Int) (left : Nat) (device : Int) :
    Asks svc (chipOnCard svc card left device : Act σ ω Fault (Option String)) := by
  induction left generalizing device with
  | zero => exact .pure _
  | succ left ih =>
    refine .bind (.attempt (.ask rfl)) fun answer => ?_
    cases answer with
    | error e => exact .bind (.note _) fun _ => ih _
    | ok chip =>
      dsimp only
      split
      · exact .pure _
      · exact .bind (.note _) fun _ => ih _

theorem chipOnCards (cards : List Int) :
    Asks svc (chipOnCards svc cards : Act σ ω Fault String) := by
  induction cards with
  | nil => exact .throw _
  | cons card cards ih =>
    refine .bind (.attempt (.ask rfl)) fun answer => ?_
    cases answer with
    | error e => exact .bind (.note _) fun _ => ih
    | ok count =>
      refine .bind (chipOnCard card _ 0) fun found => ?_
      cases found with
      | none => exact ih
      | some name => exact .pure _

theorem chipName : Asks svc (chipName svc : Act σ ω Fault String) :=
  .bind (.ask rfl) chipOnCards

theorem productOnCard (card : Int) (left : Nat) (device : Int) :
    Asks svc (productOnCard svc card left device : Act σ ω Fault (Option String)) := by
  induction left generalizing device with
  | zero => exact .pure _
  | succ left ih =>
    refine .bind (.attempt (.ask rfl)) fun answer => ?_
    cases answer with
    | error e => exact .bind (.note _) fun _ => ih _
    | ok product => exact .pure _

theorem productOnCards (cards : List Int) :
    Asks svc (productOnCards svc cards : Act σ ω Fault String) := by
  induction cards with
  | nil => exact .pure _
  | cons card cards ih =>
    refine .bind (.attempt (.ask rfl)) fun answer => ?_
    cases answer with
    | error e => exact .bind (.note _) fun _ => ih
    | ok count =>
      refine .bind (productOnCard card _ 0) fun found => ?_
      cases found with
      | none => exact ih
      | some product => exact .pure _

theorem product : Asks svc (product svc : Act σ ω Fault String) :=
  .bind (.ask rfl) productOnCards

/-- A frame that questions keep is kept by steps that only ask. -/
theorem within {F : Frame σ ω} (hF : ∀ c, c.isQuestion = true → F.Admits svc c)
    {a : Act σ ω ε α} (ha : Asks svc a) : F.Within a := by
  induction ha with
  | pure x => exact Frame.within_pure x
  | throw e => exact Frame.within_throw e
  | note l => exact Frame.within_note l
  | ask hc => exact Frame.within_ask (hF _ hc)
  | bind _ _ iha ihf => exact iha.bind ihf
  | attempt _ ih => exact ih.attempt

end Asks

/-- What is answered depends only on the call. -/
def Service.Forgets (svc : Service σ) : Prop :=
  ∀ c m n, (svc.respond c m).1.result = (svc.respond c n).1.result

/-- Steps that only ask such a service come to one result, from whatever run they start. -/
theorem Asks.same_result (hs : svc.Forgets) {a : Act σ ω ε α} (ha : Asks svc a) (r q : Run σ ω) :
    (outcome a r).1 = (outcome a q).1 := by
  induction ha generalizing r q with
  | pure x => rfl
  | throw e => rfl
  | note l => rfl
  | ask hc =>
    rw [outcome_ask, outcome_ask]
    exact hs _ _ _
  | @bind ε α β a f _ _ iha ihf =>
    have h := iha r q
    rw [outcome_bind, outcome_bind]
    generalize outcome a r = o at h ⊢
    generalize outcome a q = p at h ⊢
    obtain ⟨x, r'⟩ := o
    obtain ⟨y, q'⟩ := p
    obtain rfl : x = y := h
    cases x with
    | error e => rfl
    | ok x => exact ihf x r' q'
  | attempt _ ih =>
    rw [outcome_attempt, outcome_attempt, ih r q]

end NpuRuntime.Query
