import Mathlib.Data.List.TakeWhile
import NpuRuntime.Proofs.Query.Ranges

/-! # Reads from driver buffers
The library copies what it has to say into buffers of fixed lengths. Reads that look at each bound
find nothing to object to, and hand back what the service does. -/
namespace NpuRuntime.Query.Library

variable {α β : Type} {script : Script}

/-- A buffer with `zero` in all cells before the library copied values into it. -/
def filled (length : Nat) (zero : α) (values : List α) : List α :=
  values.take length ++ List.replicate (length - values.length) zero

theorem length_filled (length : Nat) (zero : α) (values : List α) :
    (filled length zero values).length = length := by
  simp only [filled, List.length_append, List.length_take, List.length_replicate]
  omega

/-- The first `n` cells of a buffer; none if it does not have so many. -/
def first? (buffer : List α) (n : Int) : Option (List α) :=
  if 0 ≤ n ∧ n ≤ buffer.length then some (buffer.take n.toNat) else none

theorem first?_eq_some {buffer : List α} {n : Int} (hlow : 0 ≤ n) (hhigh : n ≤ buffer.length) :
    first? buffer n = some (buffer.take n.toNat) := if_pos ⟨hlow, hhigh⟩

/-- The text in front of the first zero of a buffer, or in all of it. -/
def text? (buffer : List UInt8) : Option String :=
  (first? buffer (buffer.findIdx (· == 0))).map Utf8.lenient

theorem takeWhile_filled (length : Nat) (bytes : List UInt8) :
    (filled length 0 bytes).takeWhile (· != 0) = (bytes.take length).takeWhile (· != 0) := by
  have hzeros : (List.replicate (length - bytes.length) (0 : UInt8)).takeWhile (· != 0) = [] := by
    rw [List.takeWhile_replicate]
    rfl
  rw [filled, List.takeWhile_append, hzeros, List.append_nil]
  split
  · next hall => exact ((List.takeWhile_prefix _).eq_of_length hall).symm
  · rfl

theorem text?_filled (length : Nat) (bytes : List UInt8) :
    text? (filled length 0 bytes) = some (bufferText length bytes) := by
  have hend : (filled length 0 bytes).findIdx (· == 0) ≤ (filled length 0 bytes).length :=
    List.findIdx_le_length
  have htext : (filled length 0 bytes).takeWhile (· != 0) =
      (filled length 0 bytes).take ((filled length 0 bytes).findIdx (· == 0)) := by
    simp only [List.takeWhile_eq_take_findIdx_not, bne, Bool.not_not]
  rw [text?, first?_eq_some (Int.natCast_nonneg _) (by exact_mod_cast hend), Int.toNat_natCast,
    ← htext, takeWhile_filled]
  rfl

theorem cardIds_eq {n : Nat} (ids : List Int) (hn : n ≤ maxCards) :
    cardIds ids n = ((filled maxCards 0 (ids.map signed)).take n).filter (0 ≤ ·) := by
  unfold cardIds filled
  rw [List.map_take, List.take_append, List.take_append, List.take_replicate, List.take_replicate]
  have hzeros : min (n - ((ids.map signed).take maxCards).length) maxCards =
      min (n - ((ids.map signed).take maxCards).length) (maxCards - (ids.map signed).length) := by
    rw [List.length_take]
    omega
  rw [hzeros]

/-- What is read once some checks are passed. -/
def readAfter (checks : Except Fault α) (read : α → Option β) : Option (Except Fault β) :=
  match checks with
  | .error f => some (.error f)
  | .ok x => (read x).map .ok

theorem readAfter_eq_some {checks : Except Fault α} {read : α → Option β} {f : α → β}
    (h : ∀ x, checks = .ok x → read x = some (f x)) :
    readAfter checks read = some (checks.map f) := by
  cases checks with
  | error e => rfl
  | ok x => simp only [readAfter, h x rfl, Option.map_some, Except.map]

/-- How many ids the library says it has copied. -/
def cardCount (script : Script) : Except Fault Int := do
  status .cardList (signed script.cards.1)
  checked .cardList 1 maxCards (signed script.cards.2.1)

theorem cardList_eq (script : Script) :
    cardList script = (cardCount script).map fun n => cardIds script.cards.2.2 n.toNat := by
  unfold cardList cardCount
  cases status .cardList (signed script.cards.1) <;> rfl

/-- The card list, with each read inside its buffer or none. -/
def readCardList? (script : Script) : Option (Except Fault (List Int)) :=
  readAfter (cardCount script) fun n =>
    (first? (filled maxCards 0 (script.cards.2.2.map signed)) n).map (List.filter (0 ≤ ·))

def readProductType? (script : Script) (card device : Int) : Option (Except Fault String) :=
  let r := lookUp script.products [card, device] (0, [])
  if signed r.1 = notSupportedCode then some (.ok notSupported)
  else readAfter (status .productType (signed r.1)) fun _ => text? (filled productLength 0 r.2)

def readChipInfo? (script : Script) (card device : Int) : Option (Except Fault ChipInfo) :=
  let r := lookUp script.chips [card, device]
    (0, Utf8.bytesOf "Ascend", Utf8.bytesOf "910B", [])
  readAfter (status .chipInfo (signed r.1)) fun _ => do
    let kind ← text? (filled chipTextLength 0 r.2.1)
    let name ← text? (filled chipTextLength 0 r.2.2.1)
    let version ← text? (filled chipTextLength 0 r.2.2.2)
    return ⟨kind, name, version⟩

theorem cardCount_eq_ok {n : Int} (h : cardCount script = .ok n) :
    n = signed script.cards.2.1 ∧ 1 ≤ n ∧ n ≤ maxCards := by
  obtain ⟨-, -, h⟩ := bind_eq_ok.mp h
  exact checked_eq_ok h

/-- The answered cards are the first ids of the buffer, as many as the library has counted. -/
theorem cardList_eq_ok {ids : List Int} (hids : cardList script = .ok ids) :
    ∃ num : Nat, signed script.cards.2.1 = num ∧ 1 ≤ num ∧ num ≤ maxCards ∧
      ids = ((filled maxCards 0 (script.cards.2.2.map signed)).take num).filter (0 ≤ ·) := by
  rw [cardList_eq] at hids
  obtain ⟨n, hn, rfl⟩ := map_eq_ok.mp hids
  obtain ⟨hsigned, hlow, hhigh⟩ := cardCount_eq_ok hn
  exact ⟨n.toNat, by omega, by omega, by omega, cardIds_eq _ (by omega)⟩

theorem readCardList?_eq (script : Script) : readCardList? script = some (cardList script) := by
  rw [cardList_eq]
  refine readAfter_eq_some fun n hn => ?_
  obtain ⟨-, hlow, hhigh⟩ := cardCount_eq_ok hn
  have hlength := length_filled maxCards 0 (script.cards.2.2.map signed)
  rw [first?_eq_some (by omega) (by omega), Option.map_some, cardIds_eq _ (by omega)]

theorem readProductType?_eq (script : Script) (card device : Int) :
    readProductType? script card device = some (productType script card device) := by
  unfold readProductType? productType
  dsimp only
  split
  · rfl
  · refine (readAfter_eq_some fun _ _ => text?_filled productLength _).trans ?_
    cases status .productType (signed (lookUp script.products [card, device] (0, [])).1) <;> rfl

theorem readChipInfo?_eq (script : Script) (card device : Int) :
    readChipInfo? script card device = some (chipInfo script card device).result := by
  unfold readChipInfo? chipInfo
  simp only [text?_filled]
  cases status .chipInfo (signed (lookUp script.chips [card, device] _).1) <;> rfl

/-- Nothing is asked for a template that leaves no room for its closing zero. -/
theorem size_lt_of_respond_create {h : Host} {card device : Int} {template : String}
    {m : Memory} (hm : (respond h script m (.create card device template)).2 ≠ m) :
    template.utf8ByteSize < templateLength := by
  by_contra hlong
  refine hm ?_
  unfold respond
  dsimp only
  rw [if_pos (Nat.not_lt.mp hlong)]

end NpuRuntime.Query.Library
