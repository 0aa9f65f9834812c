import NpuRuntime.Proofs.Json.Layout
import NpuRuntime.Proofs.Json.Values

/-! # Readers and printers of parts
A reader and a printer belong together if the reader loses nothing but what the layout allows, and
reads again what was printed. Lists keep this, and so do the parts of a document that have no
members of their own. -/
namespace NpuRuntime.Json

variable {β : Type}

/-- How a part of a document is read, printed and laid out, and what survives at which depth. -/
structure Codec (β : Type) where
  read : Nat → Raw → Except Fault β
  print : β → Json
  layout : Layout
  Fits : Nat → β → Prop

structure Codec.Lawful (c : Codec β) : Prop where
  reads {depth : Nat} {raw : Raw} {x : β} (h : c.read depth raw = .ok x) :
    ∃ v, raw.toJson depth = .ok v ∧ Same c.layout v (c.print x) ∧ (v.Whole → c.Fits depth x)
  restores {depth : Nat} {x : β} (h : c.Fits depth x) :
    c.read depth (written (c.print x)) = .ok x
  prints {depth : Nat} {x : β} (h : c.Fits depth x) : Json.Fits depth (c.print x)
  solid (x : β) : c.print x ≠ .null

namespace Codec

def text : Codec String where
  read _ := Raw.toText
  print := .string
  layout := .value
  Fits _ _ := True

theorem toJson_of_toText {depth : Nat} {raw : Raw} {s : String} (h : raw.toText = .ok s) :
    raw.toJson depth = .ok (.string s) := by
  cases raw with
  | text t =>
    rw [Raw.toText] at h
    rw [Raw.toJson, h]
    rfl
  | _ => cases h

theorem lawful_text : text.Lawful where
  reads h := ⟨_, toJson_of_toText h, rfl, fun _ => trivial⟩
  restores _ := read_writtenText _
  prints _ := ⟨.string _, whole_string _⟩
  solid _ := by simp [text]

def flag : Codec Bool where
  read _ := Raw.toBool
  print := .bool
  layout := .value
  Fits _ _ := True

@[simp] theorem fits_text {depth : Nat} (s : String) : text.Fits depth s := trivial

@[simp] theorem fits_flag {depth : Nat} (b : Bool) : flag.Fits depth b := trivial

theorem lawful_flag : flag.Lawful where
  reads {depth raw b} h := by
    cases raw with
    | bool c =>
      cases h
      exact ⟨_, rfl, rfl, fun _ => trivial⟩
    | _ => cases h
  restores _ := rfl
  prints _ := ⟨.bool _, whole_bool _⟩
  solid _ := by simp [flag]

def int (low high : Int) : Codec Int where
  read _ := Raw.toInt low high
  print n := .number (.int n)
  layout := .value
  Fits _ n := low ≤ n ∧ n ≤ high

@[simp] theorem fits_int {low high n : Int} {depth : Nat} :
    (int low high).Fits depth n ↔ low ≤ n ∧ n ≤ high := Iff.rfl

theorem toJson_of_toInt (depth : Nat) {low high n : Int} {raw : Raw}
    (h : raw.toInt low high = .ok n) :
    raw.toJson depth = .ok (.number (.int n)) ∧ low ≤ n ∧ n ≤ high := by
  cases raw with
  | number m =>
    rw [Raw.toInt] at h
    rw [Raw.toJson]
    rcases hv : m.value? with _ | i | d
    · simp [hv] at h
    · simp only [hv] at h ⊢
      split at h
      · next hr =>
        cases h
        exact ⟨rfl, hr⟩
      · cases h
    · simp [hv] at h
  | _ => cases h

theorem toInt_written {low high n : Int} (hl : -2 ^ 63 ≤ low) (hh : high < 2 ^ 64)
    (hn : low ≤ n ∧ n ≤ high) : (written (.number (.int n))).toInt low high = .ok n := by
  have hw : (Number.int n).IsWhole := ⟨Int.le_trans hl hn.1, Int.lt_of_le_of_lt hn.2 hh⟩
  rw [written, Raw.toInt, Number.value?_numeral hw]
  exact if_pos hn

theorem lawful_int {low high : Int} (hl : -2 ^ 63 ≤ low) (hh : high < 2 ^ 64) :
    (int low high).Lawful where
  reads {depth raw x} h := by
    obtain ⟨hjson, hrange⟩ := toJson_of_toInt depth h
    exact ⟨_, hjson, rfl, fun _ => hrange⟩
  restores h := toInt_written hl hh h
  prints h := ⟨.number _, whole_number.mpr ⟨Int.le_trans hl h.1, Int.lt_of_le_of_lt h.2 hh⟩⟩
  solid _ := by simp [int]

def nat (most : Nat) : Codec Nat where
  read _ := Raw.toNat most
  print n := .number (.int n)
  layout := .value
  Fits _ n := n ≤ most

@[simp] theorem fits_nat {most n depth : Nat} : (nat most).Fits depth n ↔ n ≤ most := Iff.rfl

theorem lawful_nat {most : Nat} (hm : most < 2 ^ 64) : (nat most).Lawful where
  reads {depth raw x} h := by
    obtain ⟨n, hn, hx⟩ := bind_eq_ok.mp h
    cases hx
    obtain ⟨hjson, hlow, hhigh⟩ := toJson_of_toInt depth hn
    refine ⟨_, hjson, ?_, fun _ => ?_⟩
    · change Json.number (.int n) = .number (.int n.toNat)
      rw [Int.toNat_of_nonneg hlow]
    · change n.toNat ≤ most
      omega
  restores {depth n} h := by
    have hn : n ≤ most := h
    change (do return (← (written (.number (.int n))).toInt 0 most).toNat) = Except.ok n
    rw [toInt_written (by decide) (by omega) (by omega)]
    rfl
  prints {depth n} h := by
    have hn : n ≤ most := h
    refine ⟨.number _, whole_number.mpr ⟨?_, ?_⟩⟩
    · omega
    · omega
  solid _ := by simp [nat]

def list (c : Codec β) : Codec (List β) where
  read depth := Raw.toList depth c.read
  print xs := .array (xs.map c.print)
  layout := .list c.layout
  Fits
    | 0, _ => False
    | depth + 1, xs => ∀ x ∈ xs, c.Fits depth x

theorem Lawful.reads_items {c : Codec β} (hc : c.Lawful) {depth : Nat} {items : List Raw}
    {xs : List β} (h : items.mapM (c.read depth) = .ok xs) :
    ∃ vs, Raw.itemsToJson depth items = .ok vs ∧
      List.Forall₂ (Same c.layout) vs (xs.map c.print) ∧
      ((∀ v ∈ vs, Whole v) → ∀ x ∈ xs, c.Fits depth x) := by
  induction items generalizing xs with
  | nil =>
    cases h
    exact ⟨[], rfl, .nil, by simp⟩
  | cons raw items ih =>
    rw [List.mapM_cons] at h
    obtain ⟨x, hx, h⟩ := bind_eq_ok.mp h
    obtain ⟨ys, hys, h⟩ := bind_eq_ok.mp h
    cases h
    obtain ⟨v, hv, hsame, hfits⟩ := hc.reads hx
    obtain ⟨vs, hvs, hsames, hfitsAll⟩ := ih hys
    refine ⟨v :: vs, ?_, .cons hsame hsames, fun hw => ?_⟩
    · rw [Raw.itemsToJson, hv, hvs]
      rfl
    · obtain ⟨hw, hws⟩ := List.forall_mem_cons.mp hw
      exact List.forall_mem_cons.mpr ⟨hfits hw, hfitsAll hws⟩

theorem Lawful.restores_items {c : Codec β} (hc : c.Lawful) {depth : Nat} {xs : List β}
    (h : ∀ x ∈ xs, c.Fits depth x) :
    (writtenItems (xs.map c.print)).mapM (c.read depth) = .ok xs := by
  induction xs with
  | nil => rfl
  | cons x xs ih =>
    obtain ⟨hx, hxs⟩ := List.forall_mem_cons.mp h
    rw [List.map_cons, writtenItems, List.mapM_cons, hc.restores hx, ih hxs]
    rfl

theorem Lawful.list {c : Codec β} (hc : c.Lawful) : c.list.Lawful where
  reads {depth raw xs} h := by
    match raw, depth with
    | .array items stop, depth + 1 =>
      obtain ⟨ys, hys, hstop⟩ := bind_eq_ok.mp h
      cases stop with
      | some f => cases hstop
      | none =>
        cases hstop
        obtain ⟨vs, hvs, hsame, hfits⟩ := hc.reads_items hys
        refine ⟨.array vs, ?_, ⟨_, _, rfl, rfl, hsame⟩, fun hw => hfits (whole_array.mp hw)⟩
        rw [Raw.toJson, hvs]
        rfl
    | .array items stop, 0 => cases h
    | .null, _ | .bool _, _ | .number _, _ | .cutNumber, _ | .text _, _ | .object _ _, _
    | .fault _, _ => cases h
  restores {depth xs} h := by
    cases depth with
    | zero => cases h
    | succ depth =>
      change ((writtenItems (xs.map c.print)).mapM (c.read depth) >>= pure) = Except.ok xs
      rw [hc.restores_items h]
      rfl
  prints {depth xs} h := by
    cases depth with
    | zero => cases h
    | succ depth =>
      have hitems : ∀ v ∈ xs.map c.print, Json.Fits depth v := by
        simpa using fun x hx => hc.prints (h x hx)
      exact ⟨.array fun v hv => (hitems v hv).shaped,
        whole_array.mpr fun v hv => (hitems v hv).whole⟩
  solid _ := by simp [Codec.list]

theorem fits_getD {c : Codec β} {depth : Nat} {found : Option (List β)}
    (h : ∀ xs ∈ found, c.list.Fits (depth + 1) xs) : c.list.Fits (depth + 1) (found.getD []) := by
  cases found with
  | none => exact fun _ hx => absurd hx List.not_mem_nil
  | some xs => exact h xs rfl

theorem fits_append {c : Codec β} {depth : Nat} {found : Option (List β)}
    (h : ∀ xs ∈ found, c.list.Fits (depth + 1) xs) {x : β} (hx : c.Fits depth x) :
    c.list.Fits (depth + 1) (found.getD [] ++ [x]) := by
  intro y hy
  rcases List.mem_append.mp hy with hy | hy
  · exact fits_getD h y hy
  · rwa [List.mem_singleton.mp hy]

end Codec

end NpuRuntime.Json
