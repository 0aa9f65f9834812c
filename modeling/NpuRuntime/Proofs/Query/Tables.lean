import NpuRuntime.Proofs.Query.Enumeration
import NpuRuntime.Query.Library

/-! # Searching by a table of answers
Where each call has one answer, everything that a search does can be read off the table: which
calls it makes, where it ends and what it comes to. -/
namespace NpuRuntime.Query

variable {σ ω : Type} {svc : Service σ}

/-- One answer for each call. -/
abbrev Table := (c : Call) → Except Fault c.Answer

/-- A service that answers by a table, however often it is asked. -/
def Service.Follows (svc : Service σ) (t : Table) : Prop :=
  ∀ c m, (svc.respond c m).1.result = t c

/-- A service that has nothing but a table. -/
def Service.ofTable (t : Table) : Service Unit where
  respond c m := ({ result := t c }, m)

theorem follows_ofTable (t : Table) : (Service.ofTable t).Follows t := fun _ _ => rfl

namespace Table

variable (t : Table)

/-- A call with its answer. -/
def event (c : Call) : Event := ⟨c, t c⟩

/-- As many devices as a card reports; none if it does not answer. -/
def devices (card : Int) : List Int :=
  match t (.deviceCount card) with
  | .ok count => (List.range count.toNat).map Int.ofNat
  | .error _ => []

/-- How many devices each card has, and after that a question about each of them. -/
def questions (question : Int → Int → Call) (cards : List Int) : List Call :=
  cards.flatMap fun card => .deviceCount card :: (t.devices card).map (question card)

theorem questions_cons (question : Int → Int → Call) (card : Int) (cards : List Int) :
    t.questions question (card :: cards) =
      .deviceCount card :: ((t.devices card).map (question card) ++ t.questions question cards) :=
  rfl

/-- A device reports a logic id, as a number. -/
def Reports (logicId : Nat) (card device : Int) : Prop :=
  ∃ id, t (.logicId card device) = .ok id ∧ id.toInt = logicId

/-- A call that succeeds and does not report the logic id. -/
structure Passes (logicId : Nat) (c : Call) : Prop where
  succeeds : (t c).isOk = true
  differs : ∀ card device, c = .logicId card device → ¬ t.Reports logicId card device

/-- The search for a physical device: the calls that it makes and what it comes to. -/
inductive Search (physical : Nat) : List Call → Except Fault (Int × Int) → Prop
  | unknown {f : Fault} (hid : t (.logicIdOf physical) = .error f) :
    Search physical [.logicIdOf physical] (.error f)
  | outOfRange {logicId : Nat} (hid : t (.logicIdOf physical) = .ok logicId)
      (hhigh : 256 ≤ logicId) :
    Search physical [.logicIdOf physical] (.error (.driverValue .logicIdOf logicId))
  | noCards {logicId : Nat} {f : Fault} (hid : t (.logicIdOf physical) = .ok logicId)
      (hlow : logicId < 256) (hcards : t .cardList = .error f) :
    Search physical [.logicIdOf physical, .cardList] (.error f)
  | found {logicId : Nat} {cards : List Int} {before after : List Call} {card device : Int}
      (hid : t (.logicIdOf physical) = .ok logicId) (hlow : logicId < 256)
      (hcards : t .cardList = .ok cards)
      (hfirst : t.questions .logicId cards = before ++ .logicId card device :: after)
      (hbefore : ∀ c ∈ before, t.Passes logicId c)
      (hmatch : t.Reports logicId card device) :
    Search physical (.logicIdOf physical :: .cardList :: (before ++ [.logicId card device]))
      (.ok (card, device))
  | failed {logicId : Nat} {cards : List Int} {before after : List Call} {c : Call} {f : Fault}
      (hid : t (.logicIdOf physical) = .ok logicId) (hlow : logicId < 256)
      (hcards : t .cardList = .ok cards)
      (hfirst : t.questions .logicId cards = before ++ c :: after)
      (hbefore : ∀ c ∈ before, t.Passes logicId c) (hfails : t c = .error f) :
    Search physical (.logicIdOf physical :: .cardList :: (before ++ [c])) (.error f)
  | exhausted {logicId : Nat} {cards : List Int} (hid : t (.logicIdOf physical) = .ok logicId)
      (hlow : logicId < 256) (hcards : t .cardList = .ok cards)
      (hall : ∀ c ∈ t.questions .logicId cards, t.Passes logicId c) :
    Search physical (.logicIdOf physical :: .cardList :: t.questions .logicId cards)
      (.error (.noDevice logicId))

namespace Passes

variable {t : Table} {card device : Int}

theorem deviceCount {count : Int} (hcount : t (.deviceCount card) = .ok count) (logicId : Nat) :
    t.Passes logicId (.deviceCount card) :=
  ⟨by rw [hcount]; rfl, by rintro _ _ ⟨⟩⟩

theorem logicId {id : Int32} {logicId : Nat} (hid : t (.logicId card device) = .ok id)
    (hdiffers : id.toInt ≠ logicId) : t.Passes logicId (.logicId card device) := by
  refine ⟨by rw [hid]; rfl, ?_⟩
  rintro _ _ ⟨⟩ ⟨id', hid', hmatch⟩
  cases hid.symm.trans hid'
  exact hdiffers hmatch

end Passes

/-- Questions are asked in order while they pass. A device that reports the logic id ends this, and
so does a call that fails. -/
inductive Scan (logicId : Nat) :
    List Call → List Call → Option (Except Fault (Int × Int)) → Prop
  | nil : Scan logicId [] [] none
  | found {card device : Int} {rest : List Call}
      (hmatch : t.Reports logicId card device) :
    Scan logicId (.logicId card device :: rest) [.logicId card device] (some (.ok (card, device)))
  | failed {c : Call} {rest : List Call} {f : Fault} (hfails : t c = .error f) :
    Scan logicId (c :: rest) [c] (some (.error f))
  | pass {c : Call} {rest asked : List Call} {verdict : Option (Except Fault (Int × Int))}
      (hpass : t.Passes logicId c) :
    Scan logicId rest asked verdict → Scan logicId (c :: rest) (c :: asked) verdict

namespace Scan

variable {t : Table} {logicId : Nat} {calls asked before after rest : List Call}
  {verdict : Option (Except Fault (Int × Int))}

theorem append_left (hbefore : ∀ c ∈ before, t.Passes logicId c)
    (hs : t.Scan logicId calls asked verdict) :
    t.Scan logicId (before ++ calls) (before ++ asked) verdict := by
  induction before with
  | nil => exact hs
  | cons c before ih =>
    obtain ⟨hc, hbefore⟩ := List.forall_mem_cons.mp hbefore
    exact .pass hc (ih hbefore)

theorem append_right {result : Except Fault (Int × Int)}
    (hs : t.Scan logicId calls asked (some result)) (rest : List Call) :
    t.Scan logicId (calls ++ rest) asked (some result) := by
  generalize hverdict : some result = verdict at hs
  induction hs with
  | nil => cases hverdict
  | found hmatch => exact .found hmatch
  | failed hfails => exact .failed hfails
  | pass hpass _ ih => exact .pass hpass (ih hverdict)

theorem passes_of_none (hs : t.Scan logicId calls asked none) :
    asked = calls ∧ ∀ c ∈ calls, t.Passes logicId c := by
  generalize hverdict : none = verdict at hs
  induction hs with
  | nil => exact ⟨rfl, by simp⟩
  | found => cases hverdict
  | failed => cases hverdict
  | pass hpass _ ih =>
    obtain ⟨rfl, hrest⟩ := ih hverdict
    exact ⟨rfl, List.forall_mem_cons.mpr ⟨hpass, hrest⟩⟩

/-- The last call made is the first one that does not pass. -/
theorem exists_of_some {result : Except Fault (Int × Int)}
    (hs : t.Scan logicId calls asked (some result)) : ∃ before c after,
      calls = before ++ c :: after ∧ asked = before ++ [c] ∧ (∀ c ∈ before, t.Passes logicId c) ∧
      ((∃ card device, c = .logicId card device ∧ t.Reports logicId card device ∧
          result = .ok (card, device)) ∨
        ∃ f, t c = .error f ∧ result = .error f) := by
  generalize hverdict : some result = verdict at hs
  induction hs with
  | nil => cases hverdict
  | @found card device rest hmatch =>
    cases hverdict
    exact ⟨[], _, rest, rfl, rfl, by simp, .inl ⟨card, device, rfl, hmatch, rfl⟩⟩
  | @failed c rest f hfails =>
    cases hverdict
    exact ⟨[], c, rest, rfl, rfl, by simp, .inr ⟨f, hfails, rfl⟩⟩
  | @pass c _ _ _ hpass _ ih =>
    obtain ⟨before, last, after, rfl, rfl, hbefore, hend⟩ := ih hverdict
    exact ⟨c :: before, last, after, rfl, rfl, List.forall_mem_cons.mpr ⟨hpass, hbefore⟩, hend⟩

/-- One table allows one course. -/
theorem unique {asked' : List Call} {verdict' : Option (Except Fault (Int × Int))}
    (hs : t.Scan logicId calls asked verdict) (hs' : t.Scan logicId calls asked' verdict') :
    asked = asked' ∧ verdict = verdict' := by
  have hpassed {c : Call} {f : Fault} (hpass : t.Passes logicId c) (hfails : t c = .error f) :
      False := by
    have hsucceeds := hpass.succeeds
    rw [hfails] at hsucceeds
    cases hsucceeds
  induction hs generalizing asked' verdict' with
  | nil =>
    cases hs'
    exact ⟨rfl, rfl⟩
  | found hmatch =>
    cases hs' with
    | found => exact ⟨rfl, rfl⟩
    | failed hfails =>
      obtain ⟨id, hid, -⟩ := hmatch
      cases hid.symm.trans hfails
    | pass hpass => exact absurd hmatch (hpass.differs _ _ rfl)
  | failed hfails =>
    cases hs' with
    | found hmatch =>
      obtain ⟨id, hid, -⟩ := hmatch
      cases hid.symm.trans hfails
    | failed hfails' =>
      cases hfails.symm.trans hfails'
      exact ⟨rfl, rfl⟩
    | pass hpass => exact (hpassed hpass hfails).elim
  | pass hpass _ ih =>
    cases hs' with
    | found hmatch => exact absurd hmatch (hpass.differs _ _ rfl)
    | failed hfails => exact (hpassed hpass hfails).elim
    | pass _ hs' =>
      obtain ⟨rfl, rfl⟩ := ih hs'
      exact ⟨rfl, rfl⟩

end Scan

namespace Search

variable {t : Table} {physical logicId : Nat} {cards : List Int} {asked asked' : List Call}
  {result result' : Except Fault (Int × Int)}

/-- What the questions to the cards come to is what the search comes to. -/
theorem of_scan {verdict : Option (Except Fault (Int × Int))}
    (hid : t (.logicIdOf physical) = .ok logicId) (hlow : logicId < 256)
    (hcards : t .cardList = .ok cards)
    (hs : t.Scan logicId (t.questions .logicId cards) asked verdict) :
    t.Search physical (.logicIdOf physical :: .cardList :: asked)
      (verdict.getD (.error (.noDevice logicId))) := by
  cases verdict with
  | none =>
    obtain ⟨rfl, hall⟩ := hs.passes_of_none
    exact .exhausted hid hlow hcards hall
  | some result =>
    obtain ⟨before, c, after, hfirst, rfl, hbefore, hend⟩ := hs.exists_of_some
    obtain ⟨card, device, rfl, hmatch, rfl⟩ | ⟨f, hfails, rfl⟩ := hend
    · exact .found hid hlow hcards hfirst hbefore hmatch
    · exact .failed hid hlow hcards hfirst hbefore hfails

theorem exists_scan (h : t.Search physical asked result)
    (hid : t (.logicIdOf physical) = .ok logicId) (hlow : logicId < 256)
    (hcards : t .cardList = .ok cards) : ∃ rest verdict,
      asked = .logicIdOf physical :: .cardList :: rest ∧
      result = verdict.getD (.error (.noDevice logicId)) ∧
      t.Scan logicId (t.questions .logicId cards) rest verdict := by
  cases h with
  | unknown hid' => cases hid.symm.trans hid'
  | outOfRange hid' hhigh =>
    cases hid.symm.trans hid'
    omega
  | noCards _ _ hcards' => cases hcards.symm.trans hcards'
  | @found _ _ _ _ card device hid' _ hcards' hfirst hbefore hmatch =>
    cases hid.symm.trans hid'
    cases hcards.symm.trans hcards'
    exact ⟨_, some (.ok (card, device)), rfl, rfl, hfirst ▸ (Scan.found hmatch).append_left hbefore⟩
  | @failed _ _ _ _ _ f hid' _ hcards' hfirst hbefore hfails =>
    cases hid.symm.trans hid'
    cases hcards.symm.trans hcards'
    exact ⟨_, some (.error f), rfl, rfl, hfirst ▸ (Scan.failed hfails).append_left hbefore⟩
  | exhausted hid' _ hcards' hall =>
    cases hid.symm.trans hid'
    cases hcards.symm.trans hcards'
    exact ⟨_, none, rfl, rfl, by simpa using Scan.nil.append_left hall⟩

theorem eq_of_unknown {f : Fault} (h : t.Search physical asked result)
    (hid : t (.logicIdOf physical) = .error f) :
    asked = [.logicIdOf physical] ∧ result = .error f := by
  cases h <;> cases hid.symm.trans ‹t (.logicIdOf physical) = _›
  exact ⟨rfl, rfl⟩

theorem eq_of_outOfRange (h : t.Search physical asked result)
    (hid : t (.logicIdOf physical) = .ok logicId) (hhigh : 256 ≤ logicId) :
    asked = [.logicIdOf physical] ∧ result = .error (.driverValue .logicIdOf logicId) := by
  cases h <;> cases hid.symm.trans ‹t (.logicIdOf physical) = _›
  case outOfRange => exact ⟨rfl, rfl⟩
  all_goals omega

theorem eq_of_noCards {f : Fault} (h : t.Search physical asked result)
    (hid : t (.logicIdOf physical) = .ok logicId) (hlow : logicId < 256)
    (hcards : t .cardList = .error f) :
    asked = [.logicIdOf physical, .cardList] ∧ result = .error f := by
  cases h with
  | unknown hid' => cases hid.symm.trans hid'
  | outOfRange hid' hhigh =>
    cases hid.symm.trans hid'
    omega
  | noCards _ _ hcards' =>
    cases hcards.symm.trans hcards'
    exact ⟨rfl, rfl⟩
  | found _ _ hcards' => cases hcards.symm.trans hcards'
  | failed _ _ hcards' => cases hcards.symm.trans hcards'
  | exhausted _ _ hcards' => cases hcards.symm.trans hcards'

/-- One table allows one search. -/
theorem unique (h : t.Search physical asked result) (h' : t.Search physical asked' result') :
    asked = asked' ∧ result = result' := by
  cases hid : t (.logicIdOf physical) with
  | error f =>
    obtain ⟨rfl, rfl⟩ := h.eq_of_unknown hid
    obtain ⟨rfl, rfl⟩ := h'.eq_of_unknown hid
    exact ⟨rfl, rfl⟩
  | ok logicId =>
    obtain hlow | hhigh : logicId < 256 ∨ 256 ≤ logicId := Nat.lt_or_ge _ _
    · cases hcards : t .cardList with
      | error f =>
        obtain ⟨rfl, rfl⟩ := h.eq_of_noCards hid hlow hcards
        obtain ⟨rfl, rfl⟩ := h'.eq_of_noCards hid hlow hcards
        exact ⟨rfl, rfl⟩
      | ok cards =>
        obtain ⟨rest, verdict, rfl, rfl, hs⟩ := h.exists_scan hid hlow hcards
        obtain ⟨rest', verdict', rfl, rfl, hs'⟩ := h'.exists_scan hid hlow hcards
        obtain ⟨rfl, rfl⟩ := hs.unique hs'
        exact ⟨rfl, rfl⟩
    · obtain ⟨rfl, rfl⟩ := h.eq_of_outOfRange hid hhigh
      obtain ⟨rfl, rfl⟩ := h'.eq_of_outOfRange hid hhigh
      exact ⟨rfl, rfl⟩

end Search

end Table

variable {t : Table}

theorem outcome_ask_follows (hs : svc.Follows t) (c : Call) (r : Run σ ω) :
    outcome (ask svc c : Act σ ω Fault c.Answer) r = (t c, r.answered svc c) := by
  rw [outcome_ask, hs]

theorem trace_answered_follows (hs : svc.Follows t) (c : Call) (r : Run σ ω) :
    (r.answered svc c).trace = r.trace ++ [t.event c] := by
  rw [trace_answered, hs]
  rfl

/-- The devices of a card from `device` on, `left` of them. -/
def devicesFrom (device : Int) (left : Nat) : List Int :=
  (List.range left).map fun i : Nat => device + i

theorem devicesFrom_succ (device : Int) (left : Nat) :
    devicesFrom device (left + 1) = device :: devicesFrom (device + 1) left := by
  have hshift (i : Nat) : device + ((i : Int) + 1) = device + 1 + i := by omega
  simp [devicesFrom, List.range_succ_eq_map, hshift]

theorem Table.devices_of_ok {card count : Int} (hcount : t (.deviceCount card) = .ok count) :
    t.devices card = devicesFrom 0 count.toNat := by
  simp [devices, devicesFrom, hcount]

/-- What the search of one card says about the search as a whole. -/
def verdictOf (card : Int) : Except Fault (Option Int) → Option (Except Fault (Int × Int))
  | .ok none => none
  | .ok (some device) => some (.ok (card, device))
  | .error f => some (.error f)

theorem findOnCard_scan (hs : svc.Follows t) (card : Int) {logicId : Nat}
    (hlow : logicId < maxPhysicalDevices) (left : Nat) (device : Int) (r : Run σ ω) : ∃ asked,
      t.Scan logicId ((devicesFrom device left).map (.logicId card)) asked
        (verdictOf card (outcome (findOnCard svc card logicId left device) r).1) ∧
      (outcome (findOnCard svc card logicId left device) r).2.trace =
        r.trace ++ asked.map t.event := by
  -- The devices are counted from `device`, which moves on with each one that passes.
  induction left generalizing device r with
  | zero => exact ⟨[], .nil, by simp [findOnCard]⟩
  | succ left ih =>
    rw [devicesFrom_succ, List.map_cons, findOnCard, outcome_bind, outcome_ask_follows hs]
    cases hid : t (.logicId card device) with
    | error f => exact ⟨[.logicId card device], .failed hid, trace_answered_follows hs _ r⟩
    | ok id =>
      dsimp only
      by_cases hmatch : id.toInt = logicId
      · rw [if_pos ((toNat_toUInt32_eq_iff hlow).mpr hmatch)]
        exact ⟨[.logicId card device], .found ⟨id, hid, hmatch⟩, trace_answered_follows hs _ r⟩
      · rw [if_neg (mt (toNat_toUInt32_eq_iff hlow).mp hmatch)]
        obtain ⟨asked, hscan, htrace⟩ := ih (device + 1) (r.answered svc (.logicId card device))
        refine ⟨.logicId card device :: asked, .pass (.logicId hid hmatch) hscan, ?_⟩
        rw [htrace, trace_answered_follows hs, List.append_assoc]
        rfl

theorem findOnCards_scan (hs : svc.Follows t) (physical : Nat) {logicId : Nat}
    (hlow : logicId < maxPhysicalDevices) (cards : List Int) (r : Run σ ω) : ∃ asked verdict,
      t.Scan logicId (t.questions .logicId cards) asked verdict ∧
      (outcome (findOnCards svc physical logicId cards) r).1 =
        verdict.getD (.error (.noDevice logicId)) ∧
      (outcome (findOnCards svc physical logicId cards) r).2.trace =
        r.trace ++ asked.map t.event := by
  induction cards generalizing r with
  | nil => exact ⟨[], none, .nil, rfl, by simp [findOnCards]; rfl⟩
  | cons card rest ih =>
    rw [findOnCards, outcome_bind, outcome_ask_follows hs, Table.questions_cons]
    cases hcount : t (.deviceCount card) with
    | error f =>
      exact ⟨[.deviceCount card], some (.error f), .failed hcount, rfl,
        trace_answered_follows hs _ r⟩
    | ok count =>
      have hpass : t.Passes logicId (.deviceCount card) := .deviceCount hcount logicId
      have htrace := trace_answered_follows hs (.deviceCount card) r
      dsimp only
      obtain ⟨asked, hscan, hasked⟩ :=
        findOnCard_scan hs card hlow count.toNat 0 (r.answered svc (.deviceCount card))
      rw [outcome_bind, Table.devices_of_ok hcount]
      generalize outcome (findOnCard svc card logicId count.toNat 0)
        (r.answered svc (.deviceCount card)) = o at hscan hasked ⊢
      obtain ⟨f | found, q⟩ := o
      · refine ⟨.deviceCount card :: asked, some (.error f), .pass hpass (hscan.append_right _),
          rfl, ?_⟩
        rw [hasked, htrace, List.append_assoc]
        rfl
      cases found with
      | some device =>
        refine ⟨.deviceCount card :: asked, some (.ok (card, device)),
          .pass hpass (hscan.append_right _), rfl, ?_⟩
        change q.trace = _
        rw [hasked, htrace, List.append_assoc]
        rfl
      | none =>
        -- All devices of the card pass, so its questions come before those of the other cards.
        obtain ⟨rfl, hpassed⟩ := hscan.passes_of_none
        obtain ⟨later, verdict, hlater, hresult, hend⟩ := ih q
        refine ⟨_, verdict, .pass hpass (hlater.append_left hpassed), hresult, ?_⟩
        change (outcome (findOnCards svc physical logicId rest) q).2.trace = _
        rw [hend, hasked, htrace]
        simp

/-- Every search takes one of the courses that its table allows. -/
theorem exists_search (hs : svc.Follows t) (physical : Nat) (r : Run σ ω) : ∃ asked,
    t.Search physical asked (outcome (findDevice svc physical) r).1 ∧
      (outcome (findDevice svc physical) r).2.trace = r.trace ++ asked.map t.event := by
  have htrace := trace_answered_follows hs (.logicIdOf physical) r
  rw [findDevice, outcome_bind, outcome_ask_follows hs]
  cases hid : t (.logicIdOf physical) with
  | error f => exact ⟨_, .unknown hid, htrace⟩
  | ok logicId =>
    dsimp only
    by_cases hhigh : logicId ≥ maxPhysicalDevices
    · rw [if_pos hhigh]
      exact ⟨_, .outOfRange hid hhigh, htrace⟩
    rw [if_neg hhigh]
    have hlow : logicId < 256 := Nat.not_le.mp hhigh
    have hlist := trace_answered_follows hs .cardList (r.answered svc (.logicIdOf physical))
    rw [htrace, List.append_assoc] at hlist
    change ∃ asked, t.Search physical asked (outcome (_ >>= _) _).1 ∧
      (outcome (_ >>= _) _).2.trace = _
    rw [outcome_bind, outcome_ask_follows hs]
    cases hcards : t .cardList with
    | error f => exact ⟨_, .noCards hid hlow hcards, hlist⟩
    | ok cards =>
      obtain ⟨asked, verdict, hscan, hresult, hasked⟩ := findOnCards_scan hs physical hlow cards
        ((r.answered svc (.logicIdOf physical)).answered svc .cardList)
      refine ⟨.logicIdOf physical :: .cardList :: asked, ?_, ?_⟩
      · dsimp only
        rw [hresult]
        exact .of_scan hid hlow hcards hscan
      · dsimp only
        rw [hasked, hlist, List.append_assoc]
        rfl

theorem Table.event_inj (c d : Call) (h : t.event c = t.event d) : c = d :=
  congrArg Event.call h

/-- The search for a physical device has the result and makes the calls that the table allows, and
no others. The logic id is reported missing exactly if every call succeeds and no device has it,
unless some call claims so itself. -/
theorem findDevice_searches (hs : svc.Follows t) (physical : Nat) (r : Run σ ω) :
    (∀ asked result, ((outcome (findDevice svc physical) r).1 = result ∧
        (outcome (findDevice svc physical) r).2.trace = r.trace ++ asked.map t.event) ↔
      t.Search physical asked result) ∧
    ∀ logicId, (∀ c, t c ≠ .error (.noDevice logicId)) →
      ((outcome (findDevice svc physical) r).1 = .error (.noDevice logicId) ↔
        t (.logicIdOf physical) = .ok logicId ∧ logicId < 256 ∧ ∃ cards, t .cardList = .ok cards ∧
          ∀ c ∈ t.questions .logicId cards, t.Passes logicId c) := by
  obtain ⟨asked, hsearch, htrace⟩ := exists_search hs physical r
  have hcourse {asked' result} (h : t.Search physical asked' result) :
      (outcome (findDevice svc physical) r).1 = result ∧
        (outcome (findDevice svc physical) r).2.trace = r.trace ++ asked'.map t.event := by
    obtain ⟨rfl, hresult⟩ := hsearch.unique h
    exact ⟨hresult, htrace⟩
  refine ⟨fun asked' result => ⟨?_, hcourse⟩, fun logicId hclaims => ⟨fun hresult => ?_, ?_⟩⟩
  · rintro ⟨rfl, htrace'⟩
    have hmaps := List.append_cancel_left (htrace.symm.trans htrace')
    obtain rfl := (List.map_inj_right t.event_inj).mp hmaps
    exact hsearch
  · rw [hresult] at hsearch
    generalize hend : Except.error (Fault.noDevice logicId) = result at hsearch
    cases hsearch with
    | unknown hid => cases hend; exact absurd hid (hclaims _)
    | outOfRange => cases hend
    | noCards _ _ hcards => cases hend; exact absurd hcards (hclaims _)
    | found => cases hend
    | failed _ _ _ _ _ hfails => cases hend; exact absurd hfails (hclaims _)
    | exhausted hid hlow hcards hall => cases hend; exact ⟨hid, hlow, _, hcards, hall⟩
  · rintro ⟨hid, hlow, cards, hcards, hall⟩
    exact (hcourse (.exhausted hid hlow hcards hall)).1

/-- Cards 3 and 5 with two devices each, whose logic ids are -2, -1, 6 and 7. -/
def twoCards : Table
  | .logicIdOf physical => .ok physical
  | .cardList => .ok [3, 5]
  | .deviceCount _ => .ok 2
  | .logicId card device => .ok (Int32.ofInt (4 * card + device - 14))
  | _ => .error (.driverAbsent .notStarted)

theorem findDevice_searches_twoCards :
    let found := outcome (findDevice (Service.ofTable twoCards) 6) ⟨(), (), [], []⟩
    found.1 = .ok (5, 0) ∧ found.2.trace = [Call.logicIdOf 6, .cardList, .deviceCount 3,
      .logicId 3 0, .logicId 3 1, .deviceCount 5, .logicId 5 0].map twoCards.event := by
  have hquestions : twoCards.questions .logicId [3, 5] =
      [.deviceCount 3, .logicId 3 0, .logicId 3 1, .deviceCount 5] ++ .logicId 5 0 ::
        [.logicId 5 1] := rfl
  have hpassed : ∀ c ∈ [Call.deviceCount 3, .logicId 3 0, .logicId 3 1, .deviceCount 5],
      twoCards.Passes 6 c := by
    simp only [List.forall_mem_cons]
    exact ⟨.deviceCount rfl 6, .logicId rfl (by decide), .logicId rfl (by decide),
      .deviceCount rfl 6, by simp⟩
  exact ((findDevice_searches (follows_ofTable twoCards) 6 ⟨(), (), [], []⟩).1 _ _).mpr
    (.found rfl (by decide) rfl hquestions hpassed ⟨6, rfl, by decide⟩)

end NpuRuntime.Query
