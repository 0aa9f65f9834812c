import NpuRuntime.Proofs.Json.Members
import NpuRuntime.Proofs.Json.Numbers
import NpuRuntime.Proofs.Json.Texts

/-! # Values that fit
A value that was read nests no deeper than its reader goes and names each member of an object once.
If its numbers are whole too, it is read again from what was written for it. -/
namespace NpuRuntime.Json

mutual
/-- All numbers of a value, in the order of the text. -/
def numbers : Json → List Number
  | .number n => [n]
  | .array items => itemNumbers items
  | .object members => memberNumbers members
  | .null | .bool _ | .string _ => []

def itemNumbers : List Json → List Number
  | [] => []
  | v :: rest => numbers v ++ itemNumbers rest

def memberNumbers : List (String × Json) → List Number
  | [] => []
  | (_, v) :: rest => numbers v ++ memberNumbers rest
end

/-- Every number of the value is a whole number of 64 bits. -/
def Whole (v : Json) : Prop := ∀ n ∈ v.numbers, n.IsWhole

instance (v : Json) : Decidable v.Whole := inferInstanceAs (Decidable (∀ n ∈ v.numbers, n.IsWhole))

theorem itemNumbers_eq_flatMap (items : List Json) : itemNumbers items = items.flatMap numbers := by
  induction items with
  | nil => rfl
  | cons v rest ih => rw [itemNumbers, ih, List.flatMap_cons]

theorem memberNumbers_eq_flatMap (ms : Members) :
    memberNumbers ms = ms.flatMap fun m => numbers m.2 := by
  induction ms with
  | nil => rfl
  | cons m rest ih => rw [memberNumbers, ih, List.flatMap_cons]

@[simp] theorem whole_null : Whole .null := by simp [Whole, numbers]

@[simp] theorem whole_bool (b : Bool) : Whole (.bool b) := by simp [Whole, numbers]

@[simp] theorem whole_string (s : String) : Whole (.string s) := by simp [Whole, numbers]

@[simp] theorem whole_number {n : Number} : Whole (.number n) ↔ n.IsWhole := by
  simp [Whole, numbers]

@[simp] theorem whole_array {items : List Json} : Whole (.array items) ↔ ∀ v ∈ items, Whole v := by
  simp only [Whole, numbers, itemNumbers_eq_flatMap, List.mem_flatMap]
  exact ⟨fun h v hv n hn => h n ⟨v, hv, hn⟩, fun h n ⟨v, hv, hn⟩ => h v hv n hn⟩

@[simp] theorem whole_object {ms : Members} : Whole (.object ms) ↔ ∀ m ∈ ms, Whole m.2 := by
  simp only [Whole, numbers, memberNumbers_eq_flatMap, List.mem_flatMap]
  exact ⟨fun h m hm n hn => h n ⟨m, hm, hn⟩, fun h n ⟨m, hm, hn⟩ => h m hm n hn⟩

/-- The value nests at most `depth` deep, and no object in it names a member twice. -/
inductive Shaped : Nat → Json → Prop
  | null {depth : Nat} : Shaped depth .null
  | bool {depth : Nat} (b : Bool) : Shaped depth (.bool b)
  | number {depth : Nat} (n : Number) : Shaped depth (.number n)
  | string {depth : Nat} (s : String) : Shaped depth (.string s)
  | array {depth : Nat} {items : List Json} (values : ∀ v ∈ items, Shaped depth v) :
    Shaped (depth + 1) (.array items)
  | object {depth : Nat} {ms : Members} (names : (ms.map Prod.fst).Nodup)
    (values : ∀ m ∈ ms, Shaped depth m.2) : Shaped (depth + 1) (.object ms)

/-- A value that survives being written and read again at this depth. -/
structure Fits (depth : Nat) (v : Json) : Prop where
  shaped : Shaped depth v
  whole : v.Whole

mutual
theorem shaped_of_toJson {depth : Nat} {raw : Raw} {v : Json} (h : raw.toJson depth = .ok v) :
    Shaped depth v := by
  match raw, depth with
  | .null, _ =>
    cases h
    exact .null
  | .bool b, _ =>
    cases h
    exact .bool b
  | .number n, _ =>
    rw [Raw.toJson] at h
    split at h
    · cases h
      exact .number _
    · cases h
  | .cutNumber, _ => cases h
  | .text t, _ =>
    obtain ⟨s, -, hs⟩ := bind_eq_ok.mp h
    cases hs
    exact .string s
  | .fault f, _ => cases h
  | .array items stop, 0 => cases h
  | .array items stop, depth + 1 =>
    obtain ⟨vs, hvs, hstop⟩ := bind_eq_ok.mp h
    cases stop with
    | some f => cases hstop
    | none =>
      cases hstop
      exact .array (shaped_of_itemsToJson hvs)
  | .object members stop, 0 => cases h
  | .object members stop, depth + 1 =>
    obtain ⟨ms, hms, hstop⟩ := bind_eq_ok.mp h
    cases stop with
    | some f => cases hstop
    | none =>
      cases hstop
      have hshaped := shaped_of_membersToJson hms List.nodup_nil (by simp)
      exact .object hshaped.1 hshaped.2

theorem shaped_of_itemsToJson {depth : Nat} {items : List Raw} {vs : List Json}
    (h : Raw.itemsToJson depth items = .ok vs) : ∀ v ∈ vs, Shaped depth v := by
  match items with
  | [] =>
    cases h
    simp
  | raw :: rest =>
    obtain ⟨v, hv, h⟩ := bind_eq_ok.mp h
    obtain ⟨ws, hws, h⟩ := bind_eq_ok.mp h
    cases h
    exact List.forall_mem_cons.mpr ⟨shaped_of_toJson hv, shaped_of_itemsToJson hws⟩

theorem shaped_of_membersToJson {depth : Nat} {members : List (RawText × Raw)} {acc ms : Members}
    (h : Raw.membersToJson depth acc members = .ok ms) (hn : (acc.map Prod.fst).Nodup)
    (hv : ∀ m ∈ acc, Shaped depth m.2) :
    (ms.map Prod.fst).Nodup ∧ ∀ m ∈ ms, Shaped depth m.2 := by
  match members with
  | [] =>
    cases h
    exact ⟨hn, hv⟩
  | (text, raw) :: rest =>
    obtain ⟨name, -, h⟩ := bind_eq_ok.mp h
    obtain ⟨v, hraw, h⟩ := bind_eq_ok.mp h
    refine shaped_of_membersToJson h (nodup_put hn name v) fun m hm => ?_
    obtain hm | rfl := mem_of_mem_put hm
    · exact hv m hm
    · exact shaped_of_toJson hraw
end

mutual
/-- How the text of a value is read. -/
def written : Json → Raw
  | .null => .null
  | .bool b => .bool b
  | .number n => .number n.numeral
  | .string s => .text (writtenText s)
  | .array items => .array (writtenItems items) none
  | .object members => .object (writtenMembers members) none

def writtenItems : List Json → List Raw
  | [] => []
  | v :: rest => written v :: writtenItems rest

def writtenMembers : List (String × Json) → List (RawText × Raw)
  | [] => []
  | (name, v) :: rest => (writtenText name, written v) :: writtenMembers rest
end

theorem itemsToJson_written {depth : Nat} {items : List Json}
    (h : ∀ v ∈ items, (written v).toJson depth = .ok v) :
    Raw.itemsToJson depth (writtenItems items) = .ok items := by
  induction items with
  | nil => rfl
  | cons v rest ih =>
    obtain ⟨hv, hrest⟩ := List.forall_mem_cons.mp h
    rw [writtenItems, Raw.itemsToJson, hv, ih hrest]
    rfl

theorem membersToJson_written {depth : Nat} (acc : Members) {ms : Members}
    (hn : ((acc ++ ms).map Prod.fst).Nodup)
    (h : ∀ m ∈ ms, (written m.2).toJson depth = .ok m.2) :
    Raw.membersToJson depth acc (writtenMembers ms) = .ok (acc ++ ms) := by
  induction ms generalizing acc with
  | nil => simp [writtenMembers, Raw.membersToJson]
  | cons m rest ih =>
    obtain ⟨hm, hrest⟩ := List.forall_mem_cons.mp h
    have hput : put acc m.1 m.2 = acc ++ [m] := by
      refine put_of_not_mem (fun hmem => ?_) m.2
      rw [List.map_append, List.nodup_append] at hn
      exact hn.2.2 _ hmem _ (by simp) rfl
    rw [writtenMembers, Raw.membersToJson, read_writtenText, hm]
    change Raw.membersToJson depth (put acc m.1 m.2) (writtenMembers rest) = _
    rw [hput, ih (acc ++ [m]) (by simpa using hn) hrest, List.append_assoc]
    rfl

/-- A value that fits is read from what was written for it. -/
theorem toJson_written {depth : Nat} {v : Json} (h : Fits depth v) :
    (written v).toJson depth = .ok v := by
  obtain ⟨hshaped, hwhole⟩ := h
  induction hshaped with
  | null => rfl
  | bool b => rfl
  | number n =>
    rw [written, Raw.toJson, Number.value?_numeral (whole_number.mp hwhole)]
  | string s =>
    rw [written, Raw.toJson, read_writtenText]
    rfl
  | array values ih =>
    have hitems := itemsToJson_written fun v hv => ih v hv (whole_array.mp hwhole v hv)
    rw [written, Raw.toJson, hitems]
    rfl
  | object names values ih =>
    have hmembers := membersToJson_written [] names
      fun m hm => ih m hm (whole_object.mp hwhole m hm)
    rw [written, Raw.toJson, hmembers]
    rfl

end NpuRuntime.Json
