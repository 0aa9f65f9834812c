import NpuRuntime.Proofs.Query.Asking

/-! # The first device of a kind
A search that finds a device has asked for every device before it. Its calls and their answers are
set out card by card. -/
namespace NpuRuntime.Query

variable {σ ω : Type} {svc : Service σ}

def idEvent (card device : Int) (id : Int32) : Event := ⟨.logicId card device, .ok id⟩

/-- The answers of a card's devices from `device` on, one logic id each. -/
def idEvents (card device : Int) (ids : List Int32) : List Event :=
  ids.mapIdx fun i id => idEvent card (device + i) id

theorem idEvents_cons (card device : Int) (id : Int32) (ids : List Int32) :
    idEvents card device (id :: ids) =
      idEvent card device id :: idEvents card (device + 1) ids := by
  have hshift (i : Nat) : device + ((i + 1 : Nat) : Int) = device + 1 + i := by omega
  simp only [idEvents, List.mapIdx_cons, hshift, Int.natCast_zero, Int.add_zero]

/-- What was answered of a card: its device count and the logic ids of its devices from 0 on. -/
structure CardReport where
  card : Int
  count : Int
  ids : List Int32

def CardReport.events (c : CardReport) : List Event :=
  ⟨.deviceCount c.card, .ok c.count⟩ :: idEvents c.card 0 c.ids

/-- A report of all devices of a card, none of which has the logic id. -/
def CardReport.Lacks (c : CardReport) (logicId : Nat) : Prop :=
  c.ids.length = c.count.toNat ∧ ∀ id ∈ c.ids, id.toInt ≠ logicId

/-- A search that ended at the first device with the logic id of a physical device. All cards
before its card lack that id, and so do the devices before it on its card. -/
structure Found (physical : Nat) where
  logicId : Nat
  passed : List CardReport
  card : Int
  later : List Int
  count : Int
  before : List Int32
  id : Int32
  logicId_lt : logicId < maxPhysicalDevices
  passed_lack : ∀ c ∈ passed, c.Lacks logicId
  before_lt : before.length < count
  before_lack : ∀ id ∈ before, id.toInt ≠ logicId
  id_eq : id.toInt = logicId

namespace Found

variable {physical : Nat} (f : Found physical)

def device : Int := f.before.length

/-- The card list as it was answered. -/
def cards : List Int := f.passed.map CardReport.card ++ f.card :: f.later

def last : CardReport := ⟨f.card, f.count, f.before ++ [f.id]⟩

/-- The calls of the search with their answers. -/
def events : List Event :=
  ⟨.logicIdOf physical, .ok f.logicId⟩ :: ⟨.cardList, .ok f.cards⟩ ::
    (f.passed ++ [f.last]).flatMap CardReport.events

theorem isQuestion_of_mem_events {e : Event} (he : e ∈ f.events) : e.call.isQuestion = true := by
  rcases List.mem_cons.mp he with rfl | he
  · rfl
  rcases List.mem_cons.mp he with rfl | he
  · rfl
  obtain ⟨c, -, he⟩ := List.mem_flatMap.mp he
  rcases List.mem_cons.mp he with rfl | he
  · rfl
  obtain ⟨i, hi, rfl⟩ := List.mem_mapIdx.mp he
  rfl

/-- The device itself is asked last. -/
theorem idEvent_mem_events : idEvent f.card f.device f.id ∈ f.events := by
  have hid : idEvent f.card f.device f.id ∈ f.last.events := by
    refine List.mem_cons_of_mem _ (List.mem_mapIdx.mpr ⟨f.before.length, by simp [last], ?_⟩)
    simp [last, device]
  have hlast : f.last ∈ f.passed ++ [f.last] := by simp
  refine List.mem_cons_of_mem _ (List.mem_cons_of_mem _ ?_)
  exact List.mem_flatMap.mpr ⟨f.last, hlast, hid⟩

end Found

theorem trace_of_ask {c : Call} {x : c.Answer} {r r' : Run σ ω}
    (hr : outcome (ask svc c : Act σ ω Fault c.Answer) r = (.ok x, r')) :
    r'.trace = r.trace ++ [⟨c, .ok x⟩] := by
  rw [outcome_ask] at hr
  obtain ⟨hx, rfl⟩ := Prod.mk.inj hr
  rw [trace_answered, hx]

/-- Below the range of physical ids an unsigned word is equal to what the signed word holds. -/
theorem toNat_toUInt32_eq_iff {id : Int32} {logicId : Nat} (hlow : logicId < maxPhysicalDevices) :
    id.toUInt32.toNat = logicId ↔ id.toInt = logicId := by
  have hint : id.toInt = if 2 * id.toUInt32.toNat < 2 ^ 32 then (id.toUInt32.toNat : Int)
      else id.toUInt32.toNat - (2 ^ 32 : Nat) := BitVec.toInt_eq_toNat_cond _
  have hword := id.toUInt32.toNat_lt
  unfold maxPhysicalDevices maxCards maxDevicesPerCard at hlow
  split at hint <;> omega

theorem findOnCard_eq_ok {card device : Int} {logicId left : Nat} {r r' : Run σ ω}
    {found : Option Int} (hlow : logicId < maxPhysicalDevices)
    (hr : outcome (findOnCard svc card logicId left device) r = (.ok found, r')) :
    ∃ ids : List Int32, r'.trace = r.trace ++ idEvents card device ids ∧
      ((found = none ∧ ids.length = left ∧ ∀ id ∈ ids, id.toInt ≠ logicId) ∨
        ∃ (before : List Int32) (id : Int32), ids = before ++ [id] ∧ id.toInt = logicId ∧
          (∀ id ∈ before, id.toInt ≠ logicId) ∧ before.length < left ∧
          found = some (device + before.length)) := by
  -- The answers are counted from `device`, which moves on with each device that is passed.
  induction left generalizing device r with
  | zero =>
    cases hr
    exact ⟨[], by simp [idEvents], .inl ⟨rfl, rfl, by simp⟩⟩
  | succ left ih =>
    obtain ⟨(id : Int32), q, hask, hrest⟩ := outcome_bind_eq_ok.mp hr
    have htrace : q.trace = r.trace ++ [idEvent card device id] := trace_of_ask hask
    by_cases heq : id.toInt = logicId
    · rw [if_pos ((toNat_toUInt32_eq_iff hlow).mpr heq)] at hrest
      cases hrest
      refine ⟨[id], ?_, .inr ⟨[], id, by simp, heq, by simp, by simp, by simp⟩⟩
      rw [htrace, idEvents_cons]
      simp [idEvents]
    · rw [if_neg (mt (toNat_toUInt32_eq_iff hlow).mp heq)] at hrest
      obtain ⟨ids, hids, hfound⟩ := ih hrest
      refine ⟨id :: ids, ?_, ?_⟩
      · rw [hids, htrace, idEvents_cons, List.append_assoc, List.singleton_append]
      · obtain ⟨hnone, hlength, hlacks⟩ | ⟨before, last, hbefore, hlast, hlacks, hlt, hsome⟩ :=
          hfound
        · exact .inl ⟨hnone, by simp [hlength], List.forall_mem_cons.mpr ⟨heq, hlacks⟩⟩
        · refine .inr ⟨id :: before, last, by simp [hbefore], hlast,
            List.forall_mem_cons.mpr ⟨heq, hlacks⟩, by simpa using hlt, ?_⟩
          rw [hsome, List.length_cons]
          congr 1
          omega

theorem findOnCards_eq_ok {physical logicId : Nat} {cards : List Int} {r r' : Run σ ω}
    {card device : Int} (hlow : logicId < maxPhysicalDevices)
    (hr : outcome (findOnCards svc physical logicId cards) r = (.ok (card, device), r')) :
    ∃ f : Found physical, f.logicId = logicId ∧ f.cards = cards ∧ f.card = card ∧
      f.device = device ∧
      r'.trace = r.trace ++ (f.passed ++ [f.last]).flatMap CardReport.events := by
  induction cards generalizing r with
  | nil => cases hr
  | cons first rest ih =>
    obtain ⟨(count : Int), q, hask, hrest⟩ := outcome_bind_eq_ok.mp hr
    have htrace := trace_of_ask hask
    obtain ⟨found, t, hsearch, hend⟩ := outcome_bind_eq_ok.mp hrest
    obtain ⟨ids, hids, ⟨rfl, hlength, hlacks⟩ | ⟨before, id, rfl, hid, hlacks, hlt, rfl⟩⟩ :=
      findOnCard_eq_ok hlow hsearch
    · -- The card is passed over, and the search goes on behind it.
      obtain ⟨f, rfl, hcards, hcard, hdevice, hf⟩ := ih hend
      let report : CardReport := ⟨first, count, ids⟩
      refine ⟨{ f with
        passed := report :: f.passed, passed_lack := ?_ }, rfl, ?_, hcard, hdevice, ?_⟩
      · intro c hc
        rcases List.mem_cons.mp hc with rfl | hc
        · exact ⟨hlength, hlacks⟩
        · exact f.passed_lack c hc
      · rw [← hcards]
        rfl
      · rw [hf, hids, htrace, List.append_assoc, List.append_assoc]
        rfl
    · cases hend
      let f : Found physical := {
        logicId, passed := [], card, later := rest, count, before, id
        logicId_lt := hlow
        passed_lack := by simp
        before_lt := by omega
        before_lack := hlacks
        id_eq := hid }
      refine ⟨f, rfl, rfl, rfl, by simp [f, Found.device], ?_⟩
      change t.trace = _
      rw [hids, htrace, List.append_assoc]
      simp [f, Found.last, CardReport.events]

/-- What is found is the first device of the enumeration with the logic id that was answered. -/
theorem findDevice_eq_ok {physical : Nat} {r r' : Run σ ω} {card device : Int}
    (hr : outcome (findDevice svc physical) r = (.ok (card, device), r')) :
    ∃ f : Found physical, f.card = card ∧ f.device = device ∧
      r'.trace = r.trace ++ f.events := by
  obtain ⟨(logicId : Nat), q, hask, hrest⟩ := outcome_bind_eq_ok.mp hr
  have hlogic := trace_of_ask hask
  dsimp only at hrest
  split at hrest
  · cases hrest
  · next hlow =>
    obtain ⟨(cards : List Int), t, hask, hsearch⟩ := outcome_bind_eq_ok.mp hrest
    have hcards := trace_of_ask hask
    obtain ⟨f, rfl, rfl, hcard, hdevice, hf⟩ := findOnCards_eq_ok (Nat.not_le.mp hlow) hsearch
    refine ⟨f, hcard, hdevice, ?_⟩
    rw [hf, hcards, hlogic, List.append_assoc, List.append_assoc]
    rfl

end NpuRuntime.Query
