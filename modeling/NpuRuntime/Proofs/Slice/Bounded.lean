import NpuRuntime.Proofs.Query.Buffers
import NpuRuntime.Proofs.Query.Enumeration
import NpuRuntime.Proofs.Query.Sessions
import NpuRuntime.Proofs.Slice.Freed

/-! # Bounds on what the driver says
Nothing that the library hands back, and nothing that a search or a split makes of it, is out of
range. The library is free to answer whatever it likes. -/
namespace NpuRuntime.Slice

open Query Query.Library

variable {ω : Type} {h : Host} {script : Script}

/-- A device that is found has the logic id of the physical device, by what the library says of
both. -/
theorem logicId_of_findDevice {physical : Nat} {card device : Int} {r : Run Memory ω}
    (hr : (outcome (findDevice (service h script) physical) r).1 = .ok (card, device)) :
    ∃ id : Int32, logicId script card device = .ok id ∧
      ∃ n : Nat, logicIdOf script physical = .ok n ∧ id.toInt = n := by
  have hfound := outcome_eq_of_result hr
  obtain ⟨f, rfl, rfl, hevents⟩ := findDevice_eq_ok hfound
  obtain ⟨made, hmade, -, hanswers⟩ := (Asks.findDevice physical).inner.holds hfound
  obtain rfl : f.events = made := List.append_cancel_left (hevents.symm.trans hmade)
  obtain ⟨_, hof⟩ := hanswers.exists_of_mem List.mem_cons_self
  obtain ⟨_, hid⟩ := hanswers.exists_of_mem f.idEvent_mem_events
  exact ⟨f.id, result_callInto hid, f.logicId, result_callInto hof, f.id_eq⟩

/-- What the library hands back lies in these ranges, and so does what is made of it. Its buffers
are read within their bounds. -/
structure Bounded (h : Host) (script : Script) : Prop where
  cardBuffer : readCardList? script = some (Library.cardList script)
  productBuffer : ∀ card device,
    readProductType? script card device = some (productType script card device)
  chipBuffers : ∀ card device,
    readChipInfo? script card device = some (chipInfo script card device).result
  /-- A template that is handed over leaves room for its closing zero. -/
  templateBuffer : ∀ card device template m,
    ((service h script).respond (.create card device template) m).2 ≠ m →
      template.utf8ByteSize < 32
  cards : ∀ m ids, ((service h script).respond .cardList m).1.result = .ok ids →
    ∃ num : Nat, signed script.cards.2.1 = num ∧ 1 ≤ num ∧ num ≤ 64 ∧
      ids = ((filled 64 0 (script.cards.2.2.map signed)).take num).filter (0 ≤ ·)
  counts : ∀ card m (n : Int),
    ((service h script).respond (.deviceCount card) m).1.result = .ok n → 1 ≤ n ∧ n ≤ 4
  logicIds : ∀ card device m (id : Int32),
    ((service h script).respond (.logicId card device) m).1.result = .ok id →
      0 ≤ id.toInt ∧ id.toInt ≤ 127
  logicIdsOf : ∀ physical m (id : Nat),
    ((service h script).respond (.logicIdOf physical) m).1.result = .ok id → id < 256
  places : ∀ {ω : Type} (r : Run Memory ω) physical card device,
    (outcome (findDevice (service h script) physical) r).1 = .ok (card, device) →
      0 ≤ card ∧ 0 ≤ device ∧ device ≤ 3 ∧ ∃ id : Int32, logicId script card device = .ok id ∧
        ∃ n : Nat, logicIdOf script physical = .ok n ∧ id.toInt = n ∧ n < 128
  slices : ∀ {ω : Type} (r : Run Memory ω) (q : Request) (s : Slice),
    (outcome (create (service h script) q) r).1 = .ok s → s.slice ≤ 2147483647

theorem bounded (h : Host) (script : Script) : Bounded h script where
  cardBuffer := readCardList?_eq script
  productBuffer := readProductType?_eq script
  chipBuffers := readChipInfo?_eq script
  templateBuffer _ _ _ _ hm := size_lt_of_respond_create (h := h) hm
  cards _ _ hids := cardList_eq_ok (result_callInto hids)
  counts _ _ _ hn := deviceCount_eq_ok (result_callInto hn)
  logicIds _ _ _ _ hid := logicId_eq_ok (result_callInto hid)
  logicIdsOf _ _ _ hid := logicIdOf_eq_ok (result_callInto hid)
  places r physical card device hr := by
    obtain ⟨hcard, hlow, hhigh⟩ := findDevice_yields (ranged h script) physical r _ hr
    obtain ⟨id, hid, n, hof, hn⟩ := logicId_of_findDevice hr
    have hsmall := (logicId_eq_ok hid).2
    unfold maxDevicesPerCard at hhigh
    unfold maxLogicId at hsmall
    exact ⟨hcard.1, hlow, by omega, id, hid, n, hof, hn, by omega⟩
  slices r q s hs := by
    have hword := (create_yields (ranged h script) q r s hs).number.2
    unfold UInt32.size at hword
    omega

/-- A library that answers with the largest numbers it can get through. -/
def brimming : Script where
  cards := (0, 3, [7, -1, 5])
  counts := [("*", 0, 4)]
  logicIds := [("5,3", 0, 127)]
  logicIdsOf := [("*", 0, 127)]
  slices := [("*", 0, 2147483647)]

theorem bounded_brimming :
    let svc := service installed brimming
    let start : Run Memory Unit := { memory := { held := true }, work := () }
    (svc.respond .cardList start.memory).1.result = .ok [7, 5] ∧
      (outcome (findDevice svc 6) start).1 = .ok (5, 3) ∧
      (∃ id : Int32, logicId brimming 5 3 = .ok id ∧ id.toInt < 128) ∧
      (outcome (create svc ⟨6, "vir04"⟩) start).1 = .ok ⟨5, 3, 2147483647⟩ := by
  dsimp only
  have hfound : (outcome (findDevice (service installed brimming) 6)
      (⟨⟨true, []⟩, (), [], []⟩ : Run Memory Unit)).1 = .ok (5, 3) := by decide +kernel
  obtain ⟨-, -, -, id, hid, n, -, hn, hlt⟩ := (bounded installed brimming).places _ _ _ _ hfound
  exact ⟨by decide +kernel, hfound, ⟨id, hid, by omega⟩, by decide +kernel⟩

end NpuRuntime.Slice
