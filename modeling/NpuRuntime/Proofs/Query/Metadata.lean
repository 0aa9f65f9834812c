import NpuRuntime.Proofs.First
import NpuRuntime.Proofs.Query.Tables

/-! # The first device that tells
Looking for a chip name or a product type goes through all devices of all cards, whatever fails on
the way. -/
namespace NpuRuntime.Query

variable {σ ω : Type} {svc : Service σ}

namespace Table

variable (t : Table)

/-- All devices in the order of the cards. -/
def places (cards : List Int) : List (Int × Int) :=
  cards.flatMap fun card => (t.devices card).map (card, ·)

/-- A device that has chip information which is not empty, and the name in it. -/
def TellsName (place : Int × Int) (name : String) : Prop :=
  ∃ chip, t (.chipInfo place.1 place.2) = .ok chip ∧
    (chip.kind ≠ "" ∨ chip.name ≠ "" ∨ chip.version ≠ "") ∧ chip.name = name

def TellsProduct (place : Int × Int) (text : String) : Prop :=
  t (.productType place.1 place.2) = .ok text

def name? (place : Int × Int) : Option String :=
  match t (.chipInfo place.1 place.2) with
  | .ok chip => if chip.isValid then some chip.name else none
  | .error _ => none

def product? (place : Int × Int) : Option String := (t (.productType place.1 place.2)).toOption

/-- The same table with another card list. -/
def withCards (cards : List Int) : Table
  | .cardList => .ok cards
  | c => t c

variable {t}

theorem devices_of_error {card : Int} {f : Fault} (hcount : t (.deviceCount card) = .error f) :
    t.devices card = [] := by
  simp [devices, hcount]

theorem places_cons (card : Int) (cards : List Int) :
    t.places (card :: cards) = (t.devices card).map (card, ·) ++ t.places cards := rfl

/-- A card that does not answer has no place. -/
theorem places_insert {card : Int} {f : Fault} (hcount : t (.deviceCount card) = .error f)
    (front back : List Int) : t.places (front ++ card :: back) = t.places (front ++ back) := by
  simp [places, devices_of_error hcount]

theorem places_withCards (cards' cards : List Int) :
    (t.withCards cards').places cards = t.places cards := rfl

theorem name?_eq_some_iff (place : Int × Int) (name : String) :
    t.name? place = some name ↔ t.TellsName place name := by
  have hvalid (chip : ChipInfo) :
      chip.isValid = true ↔ chip.kind ≠ "" ∨ chip.name ≠ "" ∨ chip.version ≠ "" := by
    simp only [ChipInfo.isValid]
    grind
  rw [name?, TellsName]
  cases t (.chipInfo place.1 place.2) with
  | error f => simp
  | ok chip => simp [← hvalid]

theorem product?_eq_some_iff (place : Int × Int) (text : String) :
    t.product? place = some text ↔ t.TellsProduct place text := by
  rw [product?, TellsProduct]
  cases t (.productType place.1 place.2) <;> simp [Except.toOption]

end Table

variable {t : Table}

theorem chipOnCard_result (hs : svc.Follows t) (card : Int) (left : Nat) (device : Int)
    (r : Run σ ω) : (outcome (chipOnCard svc card left device) r).1 =
      .ok (((devicesFrom device left).map (card, ·)).findSome? t.name?) := by
  induction left generalizing device r with
  | zero => rfl
  | succ left ih =>
    rw [devicesFrom_succ, List.map_cons, List.findSome?_cons, chipOnCard, outcome_bind,
      outcome_attempt, outcome_ask_follows hs, Table.name?]
    cases t (.chipInfo card device) with
    | error f =>
      dsimp only
      rw [outcome_bind, outcome_note]
      exact ih _ _
    | ok chip =>
      dsimp only
      by_cases hvalid : chip.isValid
      · rw [if_pos hvalid, if_pos hvalid]
        rfl
      · rw [if_neg hvalid, if_neg hvalid, outcome_bind, outcome_note]
        exact ih _ _

theorem productOnCard_result (hs : svc.Follows t) (card : Int) (left : Nat) (device : Int)
    (r : Run σ ω) : (outcome (productOnCard svc card left device) r).1 =
      .ok (((devicesFrom device left).map (card, ·)).findSome? t.product?) := by
  induction left generalizing device r with
  | zero => rfl
  | succ left ih =>
    rw [devicesFrom_succ, List.map_cons, List.findSome?_cons, productOnCard, outcome_bind,
      outcome_attempt, outcome_ask_follows hs, Table.product?]
    cases t (.productType card device) with
    | error f =>
      dsimp only
      rw [outcome_bind, outcome_note]
      exact ih _ _
    | ok product => rfl

/-- A search of all cards by a search of one card, which `miss` ends, has the first value of all
devices. A card that does not answer leaves a record and no more. -/
theorem searchCards_result (hs : svc.Follows t) {g : Int × Int → Option String}
    {onCard : Int → Nat → Int → Act σ ω Fault (Option String)}
    (hcard : ∀ card left device r, (outcome (onCard card left device) r).1 =
      .ok (((devicesFrom device left).map (card, ·)).findSome? g))
    {onCards : List Int → Act σ ω Fault String} {miss : Except Fault String}
    (hnil : ∀ r, (outcome (onCards []) r).1 = miss)
    (level : Level)
    (hcons : ∀ card rest, onCards (card :: rest) = do
      match ← attempt (ask svc (.deviceCount card)) with
      | .ok count =>
        match ← onCard card count.toNat 0 with
        | some text => return text
        | none => onCards rest
      | .error f =>
        note ⟨level, .query, s!"get device num by card {card} failed: " ++ f.text⟩
        onCards rest)
    (cards : List Int) (r : Run σ ω) :
    (outcome (onCards cards) r).1 = ((t.places cards).findSome? g).elim miss .ok := by
  induction cards generalizing r with
  | nil => exact hnil r
  | cons card rest ih =>
    rw [hcons, outcome_bind, outcome_attempt, outcome_ask_follows hs, Table.places_cons,
      List.findSome?_append]
    cases hcount : t (.deviceCount card) with
    | error f =>
      -- By the table the card has no devices, so passing over it loses none.
      dsimp only
      rw [outcome_bind, outcome_note, Table.devices_of_error hcount]
      exact ih _
    | ok count =>
      dsimp only
      rw [outcome_bind, outcome_eq_of_result (hcard card _ 0 _), Table.devices_of_ok hcount]
      cases ((devicesFrom 0 count.toNat).map (card, ·)).findSome? g with
      | some text => rfl
      | none => exact ih _

theorem chipName_result (hs : svc.Follows t) {cards : List Int} (hcards : t .cardList = .ok cards)
    (r : Run σ ω) : (outcome (chipName svc) r).1 =
      ((t.places cards).findSome? t.name?).elim (.error .noChipInfo) .ok := by
  rw [chipName, outcome_bind, outcome_ask_follows hs, hcards]
  exact searchCards_result hs (chipOnCard_result hs) (fun _ => rfl) .warn (fun _ _ => rfl) cards _

theorem product_result (hs : svc.Follows t) {cards : List Int} (hcards : t .cardList = .ok cards)
    (r : Run σ ω) : (outcome (product svc) r).1 =
      .ok (((t.places cards).findSome? t.product?).getD "") := by
  rw [product, outcome_bind, outcome_ask_follows hs, hcards]
  refine (searchCards_result hs (productOnCard_result hs) (fun _ => rfl) .debug (fun _ _ => rfl)
    cards _).trans ?_
  cases (t.places cards).findSome? t.product? <;> rfl

/-- Both searches take the first device that tells, in the order of the cards. Only a card list that
fails ends them. Without such a device the name is a failure and the product type is empty, which a
device may also report itself. A card whose devices cannot be counted changes nothing. -/
theorem metadata_searches (hs : svc.Follows t) (r : Run σ ω) :
    (∀ f, t .cardList = .error f →
      (outcome (chipName svc) r).1 = .error f ∧ (outcome (product svc) r).1 = .error f) ∧
    (∀ cards, t .cardList = .ok cards →
      (∀ name, (outcome (chipName svc) r).1 = .ok name ↔ First (t.places cards) t.TellsName name) ∧
      ((outcome (chipName svc) r).1 = .error .noChipInfo ↔
        ∀ place ∈ t.places cards, ∀ name, ¬t.TellsName place name) ∧
      (∀ text, (outcome (product svc) r).1 = .ok text ↔
        First (t.places cards) t.TellsProduct text ∨
          text = "" ∧ ∀ place ∈ t.places cards, ∀ text, ¬t.TellsProduct place text) ∧
      ((∀ place ∈ t.places cards, ¬t.TellsProduct place "") →
        ((outcome (product svc) r).1 = .ok "" ↔
          ∀ place ∈ t.places cards, ∀ text, ¬t.TellsProduct place text))) ∧
    ∀ front card back f, t .cardList = .ok (front ++ back) → t (.deviceCount card) = .error f →
      ∀ (σ' ω' : Type) (svc' : Service σ') (r' : Run σ' ω'),
        svc'.Follows (t.withCards (front ++ card :: back)) →
        (outcome (chipName svc') r').1 = (outcome (chipName svc) r).1 ∧
          (outcome (product svc') r').1 = (outcome (product svc) r).1 := by
  refine ⟨fun f hf => ?_, fun cards hcards => ?_, ?_⟩
  · rw [chipName, product, outcome_bind, outcome_bind, outcome_ask_follows hs, hf]
    exact ⟨rfl, rfl⟩
  · have hname? (place) (_ : place ∈ t.places cards) := t.name?_eq_some_iff place
    have hproduct? (place) (_ : place ∈ t.places cards) := t.product?_eq_some_iff place
    have hproduct (text) : (outcome (product svc) r).1 = .ok text ↔
        First (t.places cards) t.TellsProduct text ∨
          text = "" ∧ ∀ place ∈ t.places cards, ∀ text, ¬t.TellsProduct place text := by
      rw [product_result hs hcards, ← findSome?_eq_some_iff_first hproduct?,
        ← findSome?_eq_none_iff_none hproduct?]
      cases (t.places cards).findSome? t.product? <;> simp [eq_comm]
    refine ⟨fun name => ?_, ?_, hproduct, fun hempty => ⟨fun h => ?_, fun h => ?_⟩⟩
    · rw [chipName_result hs hcards, ← findSome?_eq_some_iff_first hname?]
      cases (t.places cards).findSome? t.name? <;> simp
    · rw [chipName_result hs hcards, ← findSome?_eq_none_iff_none hname?]
      cases (t.places cards).findSome? t.name? <;> simp
    · obtain ⟨before, place, after, hplaces, htells, -⟩ | ⟨-, hnone⟩ := (hproduct "").mp h
      · exact absurd htells (hempty place (by simp [hplaces]))
      · exact hnone
    · exact (hproduct "").mpr (.inr ⟨rfl, h⟩)
  · intro front card back f hcards hcount σ' ω' svc' r' hs'
    have hplaces := Table.places_insert hcount front back
    rw [chipName_result hs' rfl, chipName_result hs hcards, product_result hs' rfl,
      product_result hs hcards, Table.places_withCards, hplaces]
    exact ⟨rfl, rfl⟩

/-- Card 1 does not count its devices, and card 4 has none. Of three devices on card 2 the first
does not answer and the second has empty chip information. -/
def patchy : Table
  | .cardList => .ok [1, 4, 2]
  | .deviceCount 4 => .ok 0
  | .deviceCount 2 => .ok 3
  | .chipInfo 2 1 => .ok ⟨"", "", ""⟩
  | .chipInfo 2 2 => .ok ⟨"Ascend", "910B", ""⟩
  | .productType 2 1 => .ok "Atlas"
  | _ => .error (.driverStatus .chipInfo (-8001))

theorem metadata_searches_patchy :
    (outcome (chipName (Service.ofTable patchy)) ⟨(), (), [], []⟩).1 = .ok "910B" ∧
      (outcome (product (Service.ofTable patchy)) ⟨(), (), [], []⟩).1 = .ok "Atlas" := by
  have h := metadata_searches (follows_ofTable patchy) ⟨(), (), [], []⟩
  obtain ⟨hname, -, hproduct, -⟩ := h.2.1 [1, 4, 2] rfl
  have hplaces : patchy.places [1, 4, 2] = [(2, 0), (2, 1), (2, 2)] := rfl
  rw [hplaces] at hname hproduct
  refine ⟨(hname "910B").mpr ⟨[(2, 0), (2, 1)], (2, 2), [], rfl, ⟨_, rfl, by decide, rfl⟩, ?_⟩,
    (hproduct "Atlas").mpr (.inl ⟨[(2, 0)], (2, 1), [(2, 2)], rfl, rfl, ?_⟩)⟩
  · simp [Table.TellsName, patchy]
  · simp [Table.TellsProduct, patchy]

end NpuRuntime.Query
