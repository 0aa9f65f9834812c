import NpuRuntime.Proofs.Fallible
import NpuRuntime.Proofs.Query.Run
import NpuRuntime.Query.Library
import NpuRuntime.Query.Search

/-! # Ranges of answers
The driver library checks most of what it hands back. The search for a device relies on these
ranges, and what it finds lies in them again. -/
namespace NpuRuntime.Query

variable {σ ω ε ε' α β : Type}

/-- Whatever some steps hand back, it is as `P` says. -/
def Yields (a : Act σ ω ε α) (P : α → Prop) : Prop :=
  ∀ r x, (outcome a r).1 = .ok x → P x

theorem yields_pure {P : α → Prop} {x : α} (hx : P x) : Yields (pure x : Act σ ω ε α) P := by
  intro r y hy
  cases hy
  exact hx

theorem yields_throw {P : α → Prop} (e : ε) : Yields (throw e : Act σ ω ε α) P := by
  intro r x hx
  cases hx

theorem yields_ask {svc : Service σ} {c : Call} {P : c.Answer → Prop}
    (h : ∀ m x, (svc.respond c m).1.result = .ok x → P x) :
    Yields (ask svc c : Act σ ω Fault c.Answer) P := by
  intro r x hx
  rw [outcome_ask] at hx
  exact h _ x hx

theorem Yields.bind {a : Act σ ω ε α} {f : α → Act σ ω ε β} {P : α → Prop} {Q : β → Prop}
    (ha : Yields a P) (hf : ∀ x, P x → Yields (f x) Q) : Yields (a >>= f) Q := by
  intro r y hy
  obtain ⟨x, r', hx, hxy⟩ := outcome_bind_eq_ok.mp (outcome_eq_of_result hy)
  exact hf x (ha r x (congrArg Prod.fst hx)) r' y (congrArg Prod.fst hxy)

theorem Yields.withSession {svc : Service σ} {lift : Fault → ε} {body : Act σ ω ε α}
    {P : α → Prop} (hb : Yields body P) : Yields (withSession svc lift body) P := by
  intro r x hx
  rw [outcome_withSession] at hx
  split at hx
  · cases hx
  · exact hb _ x hx

/-- A number that a signed word of 32 bits holds and that is not negative. -/
def IsWord (n : Int) : Prop := 0 ≤ n ∧ n < UInt32.size / 2

/-- A place that a device can have. -/
def IsPlace (card device : Int) : Prop := IsWord card ∧ 0 ≤ device ∧ device < maxDevicesPerCard

/-- A service whose answers lie in the ranges that callers rely on. -/
structure Service.Ranged (svc : Service σ) : Prop where
  cards : ∀ m cards, (svc.respond .cardList m).1.result = .ok cards → ∀ c ∈ cards, IsWord c
  count : ∀ card m n, (svc.respond (.deviceCount card) m).1.result = .ok n →
    n ≤ (maxDevicesPerCard : Nat)
  slice : ∀ card device template m n,
    (svc.respond (.create card device template) m).1.result = .ok n → IsWord n

variable {svc : Service σ}

theorem findOnCard_yields (card : Int) (logicId left : Nat) (device : Int) :
    Yields (findOnCard svc card logicId left device : Act σ ω Fault (Option Int))
      fun found => ∀ d ∈ found, device ≤ d ∧ d < device + left := by
  induction left generalizing device with
  | zero => exact yields_pure (by simp)
  | succ left ih =>
    refine (yields_ask (P := fun _ => True) fun _ _ _ => trivial).bind fun id _ => ?_
    split
    · refine yields_pure ?_
      simp only [Option.mem_def, Option.some.injEq, forall_eq']
      omega
    · intro r found hf d hd
      have hrange := ih (device + 1) r found hf d hd
      omega

theorem findOnCards_yields (hs : svc.Ranged) (physical logicId : Nat) (cards : List Int) :
    Yields (findOnCards svc physical logicId cards : Act σ ω Fault (Int × Int))
      fun place => place.1 ∈ cards ∧ 0 ≤ place.2 ∧ place.2 < maxDevicesPerCard := by
  induction cards with
  | nil => exact yields_throw _
  | cons card cards ih =>
    refine (yields_ask (hs.count card)).bind fun (count : Int) hcount => ?_
    refine (findOnCard_yields card logicId count.toNat 0).bind fun found hfound => ?_
    cases found with
    | some device =>
      have hrange := hfound device rfl
      have hcount : count ≤ (maxDevicesPerCard : Nat) := hcount
      refine (Yields.bind (P := fun _ => True) (fun _ _ _ => trivial)) fun _ _ => ?_
      exact yields_pure ⟨List.mem_cons_self, by omega, by omega⟩
    | none =>
      intro r place hplace
      obtain ⟨hmem, hrange⟩ := ih r place hplace
      exact ⟨List.mem_cons_of_mem card hmem, hrange⟩

theorem findDevice_yields (hs : svc.Ranged) (physical : Nat) :
    Yields (findDevice svc physical : Act σ ω Fault (Int × Int))
      fun place => IsPlace place.1 place.2 := by
  refine (yields_ask (P := fun _ => True) fun _ _ _ => trivial).bind fun logicId _ => ?_
  have search : Yields (do findOnCards svc physical logicId (← ask svc .cardList) :
      Act σ ω Fault (Int × Int)) fun place => IsPlace place.1 place.2 := by
    refine (yields_ask hs.cards).bind fun cards hcards => ?_
    intro r place hplace
    obtain ⟨hmem, hrange⟩ := findOnCards_yields hs physical logicId cards r place hplace
    exact ⟨hcards place.1 hmem, hrange⟩
  split
  · exact (yields_throw (P := fun _ => False) _).bind fun _ h => h.elim
  · exact search

namespace Library

theorem result_callInto {c : Call} {script : Script} {e : Entry} {a : Action} {m : Memory}
    {result : Unit → Response c} {x : c.Answer}
    (h : (callInto script e a m result).1.result = .ok x) : (result ()).result = .ok x := by
  unfold callInto at h
  split at h
  · cases h
  split at h
  · cases h
  · exact h

theorem checked_eq_ok {e : Entry} {low high value x : Int} (h : checked e low high value = .ok x) :
    x = value ∧ low ≤ x ∧ x ≤ high := by
  unfold checked at h
  split at h
  · next hv =>
    cases h
    exact ⟨rfl, hv⟩
  · cases h

theorem isWord_of_mem_cardIds {ids : List Int} {n : Nat} {c : Int} (hc : c ∈ cardIds ids n) :
    IsWord c := by
  obtain ⟨hc, hpos⟩ := List.mem_filter.mp hc
  refine ⟨of_decide_eq_true hpos, ?_⟩
  rcases List.mem_append.mp (List.mem_of_mem_take hc) with hc | hc
  · obtain ⟨id, -, rfl⟩ := List.mem_map.mp hc
    have hlt := Int.bmod_lt (x := id) (m := UInt32.size) (by decide)
    unfold UInt32.size at hlt
    unfold signed UInt32.size
    omega
  · rw [List.eq_of_mem_replicate hc]
    decide

theorem isWord_of_cardList {script : Script} {cards : List Int}
    (h : cardList script = .ok cards) : ∀ c ∈ cards, IsWord c := by
  obtain ⟨-, -, h⟩ := bind_eq_ok.mp h
  obtain ⟨n, -, h⟩ := bind_eq_ok.mp h
  cases h
  exact fun c hc => isWord_of_mem_cardIds hc

theorem deviceCount_eq_ok {script : Script} {card n : Int} (hn : deviceCount script card = .ok n) :
    1 ≤ n ∧ n ≤ (maxDevicesPerCard : Nat) := by
  obtain ⟨-, -, hn⟩ := bind_eq_ok.mp hn
  exact (checked_eq_ok hn).2

theorem logicId_eq_ok {script : Script} {card device : Int} {id : Int32}
    (hid : logicId script card device = .ok id) :
    0 ≤ id.toInt ∧ id.toInt ≤ (maxLogicId : Nat) := by
  obtain ⟨-, -, hid⟩ := bind_eq_ok.mp hid
  obtain ⟨n, hn, hid⟩ := bind_eq_ok.mp hid
  cases hid
  obtain ⟨-, hlow, hhigh⟩ := checked_eq_ok hn
  unfold maxLogicId at hhigh ⊢
  rw [Int32.toInt_ofInt_of_le (by omega) (by omega)]
  exact ⟨hlow, hhigh⟩

theorem logicIdOf_eq_ok {script : Script} {physical id : Nat}
    (hid : logicIdOf script physical = .ok id) :
    id < maxPhysicalDevices := by
  obtain ⟨-, -, hid⟩ := bind_eq_ok.mp hid
  obtain ⟨n, hn, hid⟩ := bind_eq_ok.mp hid
  cases hid
  have hhigh := (checked_eq_ok hn).2.2
  unfold maxPhysicalDevices maxCards maxDevicesPerCard at *
  omega

theorem isWord_of_create {script : Script} {card device : Int} {template : String} {n : Nat}
    (h : (create script card device template).result = .ok n) : IsWord n := by
  unfold create at h
  dsimp only at h
  split at h
  · cases h
  · obtain ⟨x, hx, rfl⟩ := map_eq_ok.mp h
    obtain ⟨-, hlow, hhigh⟩ := checked_eq_ok hx
    unfold maxSlice UInt32.size at hhigh
    unfold IsWord UInt32.size
    omega

/-- So do all answers of the library, whatever it was written to do. -/
theorem ranged (h : Host) (script : Script) : (service h script).Ranged where
  cards _ _ hr := isWord_of_cardList (result_callInto hr)
  count _ _ _ hr := (deviceCount_eq_ok (result_callInto hr)).2
  slice := by
    intro card device template m n hr
    change (respond h script m (.create card device template)).1.result = _ at hr
    unfold respond at hr
    dsimp only at hr
    split at hr
    · cases hr
    · exact isWord_of_create (result_callInto hr)

end Library

end NpuRuntime.Query
