import NpuRuntime.Fault
import NpuRuntime.Log

/-! # Asking the driver
The driver is a service that answers calls one at a time and may remember what it was asked. -/
namespace NpuRuntime

namespace Query

def maxCards : Nat := 64

def maxDevicesPerCard : Nat := 4

/-- Physical and logic ids lie below this. -/
def maxPhysicalDevices : Nat := maxCards * maxDevicesPerCard

def maxLogicId : Nat := 127

/-- The status of products that cannot report a product type. -/
def notSupportedCode : Int := -8255

def notSupported : String := "not support"

structure ChipInfo where
  kind : String
  name : String
  version : String
  deriving DecidableEq, Repr

def ChipInfo.isValid (c : ChipInfo) : Bool := !(c.kind = "" ∧ c.name = "" ∧ c.version = "")

inductive Call where
  | start
  | shutdown
  | cardList
  | deviceCount (card : Int)
  | logicId (card device : Int)
  | logicIdOf (physical : Nat)
  | create (card device : Int) (template : String)
  | destroy (card device : Int) (slice : Nat)
  | productType (card device : Int)
  | chipInfo (card device : Int)
  deriving DecidableEq, Repr

/-- A signed word is read as the number that it holds. -/
instance signedWord : CoeOut Int32 Int := ⟨Int32.toInt⟩

abbrev Call.Answer : Call → Type
  | .start | .shutdown | .destroy .. => Unit
  | .cardList => List Int
  | .deviceCount _ => Int
  | .logicId .. => Int32
  | .logicIdOf _ | .create .. => Nat
  | .productType .. => String
  | .chipInfo .. => ChipInfo

structure Response (c : Call) where
  result : Except Fault c.Answer
  notes : List Record := []

structure Event where
  call : Call
  result : Except Fault call.Answer

structure Service (σ : Type) where
  respond : (c : Call) → σ → Response c × σ

/-- The service's memory, what is being worked on, and the calls and records made so far. -/
structure Run (σ ω : Type) where
  memory : σ
  work : ω
  trace : List Event := []
  log : List Record := []

/-- Steps that may fail. What they did before failing stays done. -/
abbrev Act (σ ω ε α : Type) := ExceptT ε (StateM (Run σ ω)) α

variable {σ ω ε α : Type}

def note (r : Record) : Act σ ω ε Unit := modify fun s => { s with log := s.log ++ [r] }

def noteAll (rs : List Record) : Act σ ω ε Unit := modify fun s => { s with log := s.log ++ rs }

def current : Act σ ω ε ω := return (← get).work

def update (f : ω → ω) : Act σ ω ε Unit := modify fun s => { s with work := f s.work }

/-- Works on something else for a while, and hands it over with the result. -/
def workingOn {ω' : Type} (w : ω') (a : Act σ ω' ε α) : Act σ ω ε (α × ω') := ExceptT.mk fun s =>
  let (r, t) := a.run { memory := s.memory, work := w, trace := s.trace, log := s.log }
  (r.map fun x => (x, t.work), { s with memory := t.memory, trace := t.trace, log := t.log })

def ask (svc : Service σ) (c : Call) : Act σ ω Fault c.Answer := do
  let s ← get
  let (r, memory) := svc.respond c s.memory
  set { s with
    memory := memory, trace := s.trace ++ [Event.mk c r.result], log := s.log ++ r.notes }
  MonadExcept.ofExcept r.result

/-- Runs steps and hands their failure over as a value. -/
def attempt {ε' : Type} (a : Act σ ω ε α) : Act σ ω ε' (Except ε α) := ExceptT.mk do
  return .ok (← a.run)

def mapFailure {ε' : Type} (f : ε → ε') (a : Act σ ω ε α) : Act σ ω ε' α := ExceptT.mk do
  return (← a.run).mapError f

/-- Starts the driver, runs steps, and shuts the driver down again whether they fail or not. When
it does not start, nothing else is called. -/
def withSession (svc : Service σ) (lift : Fault → ε) (body : Act σ ω ε α) :
    Act σ ω ε α := do
  mapFailure lift (ask svc .start)
  note ⟨.debug, .query, "dcmi session opened"⟩
  let result ← attempt body
  let _ ← attempt (ask svc .shutdown)
  note ⟨.debug, .query, "dcmi session closed"⟩
  MonadExcept.ofExcept result

end Query

end NpuRuntime
