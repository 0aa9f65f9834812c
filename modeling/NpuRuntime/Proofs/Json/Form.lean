import Mathlib.Data.List.Nodup
import NpuRuntime.Proofs.Json.Codec

/-! # Records
A record has members with names of their own and keeps all others as they come. If each named
member can be read back, and each stands in the record for itself, then so can the whole record. -/
namespace NpuRuntime.Json

variable {α β : Type}

/-- A named member of a record. A required one is always there. -/
structure Field (α : Type) where
  {β : Type}
  name : String
  required : Bool := false
  codec : Codec β
  get : α → Option β
  set : Option β → α → α

namespace Field

/-- Reads a field; null stands for an optional one that is absent. -/
def read (f : Field α) (depth : Nat) (raw : Raw) : Except Fault (Option f.β) :=
  if f.required then some <$> f.codec.read depth raw else raw.toOption (f.codec.read depth)

/-- The member that is printed for a field, if there is one. -/
def members (f : Field α) (r : α) : Members := optional f.name ((f.get r).map f.codec.print)

/-- A field holds what was read from this member. -/
structure Holds (f : Field α) (depth : Nat) (v : Json) (x : Option f.β) : Prop where
  kept : Kept (!f.required) (Same f.codec.layout) (some v) (x.map f.codec.print)
  fits : v.Whole → ∀ b ∈ x, f.codec.Fits depth b
  required : f.required = true → x.isSome = true

/-- A field that is always there. -/
@[simp] def always (name : String) (codec : Codec β) (get : α → β) (set : β → α → α) : Field α where
  name := name
  required := true
  codec := codec
  get r := some (get r)
  set x r := set (x.getD (get r)) r

/-- A field that may be absent. -/
@[simp] def maybe (name : String) (codec : Codec β) (get : α → Option β) (set : Option β → α → α) :
    Field α where
  name := name
  codec := codec
  get := get
  set := set

@[simp] theorem some_getD {x : Option β} (h : x.isSome = true) (b : β) : some (x.getD b) = x := by
  cases x with
  | none => cases h
  | some a => rfl

/-- Stores what is read for a field. -/
def store (f : Field α) (depth : Nat) (raw : Raw) (r : α) : Except Fault α :=
  if f.required then do return f.set (some (← f.codec.read depth raw)) r
  else do return f.set (← raw.toOption (f.codec.read depth)) r

variable {f : Field α} {depth : Nat}

theorem store_eq_map (f : Field α) (depth : Nat) (raw : Raw) (r : α) :
    f.store depth raw r = (f.read depth raw).map fun x => f.set x r := by
  unfold store read
  split
  · cases f.codec.read depth raw <;> rfl
  · cases raw.toOption (f.codec.read depth) <;> rfl

theorem toOption_of_ne_null {raw : Raw} (h : raw ≠ .null) (g : Raw → Except Fault β) :
    raw.toOption g = some <$> g raw := by
  cases raw <;> first | rfl | exact absurd rfl h

theorem exists_of_read (hf : f.codec.Lawful) {raw : Raw} {x : Option f.β}
    (h : f.read depth raw = .ok x) : ∃ v, raw.toJson depth = .ok v ∧ f.Holds depth v x := by
  have present {g : Option f.β} (hg : some <$> f.codec.read depth raw = .ok g) :
      ∃ v, raw.toJson depth = .ok v ∧ f.Holds depth v g := by
    obtain ⟨b, hb, rfl⟩ := map_eq_ok.mp hg
    obtain ⟨v, hv, hsame, hfits⟩ := hf.reads hb
    refine ⟨v, hv, .kept hsame, fun hw c hc => ?_, fun _ => rfl⟩
    cases hc
    exact hfits hw
  unfold read at h
  split at h
  · exact present h
  · next hrequired =>
    by_cases hnull : raw = .null
    · subst hnull
      cases h
      refine ⟨.null, rfl, .dropped (by simpa using hrequired), by simp, fun hr => ?_⟩
      exact absurd hr hrequired
    · rw [toOption_of_ne_null hnull] at h
      exact present h

theorem read_written (hf : f.codec.Lawful) {x : f.β} (h : f.codec.Fits depth x) :
    f.read depth (written (f.codec.print x)) = .ok (some x) := by
  have hread : some <$> f.codec.read depth (written (f.codec.print x)) = .ok (some x) := by
    rw [hf.restores h]
    rfl
  unfold read
  split
  · exact hread
  · rw [toOption_of_ne_null, hread]
    intro hnull
    have hsolid := hf.solid x
    generalize f.codec.print x = v at hnull hsolid
    cases v <;> first | exact hsolid rfl | cases hnull

end Field

/-- The fields of a record, and how it is read and printed. -/
structure Form (α : Type) where
  fields : List (Field α)
  shape : Raw.Shape
  inner : String → Layout
  take : Nat → String → Raw → α → Except Fault α
  init : α
  other : α → Members
  withOther : Members → α → α
  print : α → Json

/-- Members without names in a shape, which survive at a depth. -/
structure Unnamed (shape : Raw.Shape) (depth : Nat) (ms : Members) : Prop where
  distinct : (ms.map Prod.fst).Nodup
  unknown : ∀ m ∈ ms, shape.knows m.1 = false
  fits : ∀ m ∈ ms, Fits depth m.2

theorem Unnamed.nil (shape : Raw.Shape) {depth : Nat} : Unnamed shape depth [] where
  distinct := List.nodup_nil
  unknown := by simp
  fits := by simp

namespace Form

def Fits (R : Form α) : Nat → α → Prop
  | 0, _ => False
  | depth + 1, r => (∀ f ∈ R.fields, ∀ x ∈ f.get r, f.codec.Fits depth x) ∧
      Unnamed R.shape depth (R.other r)

def codec (R : Form α) : Codec α where
  read depth raw := raw.toRecord depth R.shape R.take R.init
  print := R.print
  layout := .record R.shape R.inner
  Fits := R.Fits

theorem fits_succ {R : Form α} {depth : Nat} {r : α} : R.Fits (depth + 1) r ↔
    (∀ f ∈ R.fields, ∀ x ∈ f.get r, f.codec.Fits depth x) ∧ Unnamed R.shape depth (R.other r) :=
  Iff.rfl

@[simp] theorem fits_codec {R : Form α} {depth : Nat} {r : α} :
    R.codec.Fits depth r ↔ R.Fits depth r := Iff.rfl

/-- Each field stands for itself, and together with the other members they make up the record. -/
structure Independent (R : Form α) : Prop where
  get_set : ∀ f ∈ R.fields, ∀ x r, (f.required = true → x.isSome = true) → f.get (f.set x r) = x
  get_set_of_ne : ∀ f ∈ R.fields, ∀ g ∈ R.fields, f.name ≠ g.name → ∀ x r,
    g.get (f.set x r) = g.get r
  get_withOther : ∀ f ∈ R.fields, ∀ ms r, f.get (R.withOther ms r) = f.get r
  other_set : ∀ f ∈ R.fields, ∀ x r, R.other (f.set x r) = R.other r
  other_withOther : ∀ ms r, R.other (R.withOther ms r) = ms
  get_required : ∀ f ∈ R.fields, f.required = true → ∀ r, (f.get r).isSome = true
  get_init : ∀ f ∈ R.fields, f.required = false → f.get R.init = none
  other_init : R.other R.init = []

/-- The record is read and printed field by field, and nothing else makes it up. -/
structure Lawful (R : Form α) : Prop extends R.Independent where
  ext : ∀ r q, (∀ f ∈ R.fields, f.get r = f.get q) → R.other r = R.other q → r = q
  distinct : (R.fields.map (·.name)).Nodup
  shape : R.shape = ⟨(R.fields.filter (·.required)).map (·.name),
    (R.fields.filter (!·.required)).map (·.name)⟩
  inner : R.fields.map (fun f => R.inner f.name) = R.fields.map (·.codec.layout)
  codecs : ∀ f ∈ R.fields, f.codec.Lawful
  print (r : α) : R.print r = .object (R.fields.flatMap (·.members r) ++ R.other r)
  take (depth : Nat) (raw : Raw) (r : α) : R.fields.map (fun f => R.take depth f.name raw r) =
    R.fields.map fun f => f.store depth raw r
  takeOther {name : String} (hname : name ∉ R.fields.map (·.name)) (depth : Nat) (raw : Raw)
    (r : α) : R.take depth name raw r =
      (do return R.withOther (put (R.other r) name (← raw.toJson depth)) r)

/-- The members that are printed for a record. -/
def printed (R : Form α) (r : α) : Members := R.fields.flatMap (·.members r) ++ R.other r

theorem names_printed (R : Form α) (r : α) : (R.printed r).map Prod.fst =
    (R.fields.filter fun f => (f.get r).isSome).map (·.name) ++ (R.other r).map Prod.fst := by
  rw [printed, List.map_append]
  congr 1
  induction R.fields with
  | nil => rfl
  | cons f fields ih =>
    rw [List.flatMap_cons, List.map_append, ih, List.filter_cons]
    cases hf : f.get r <;> simp [Field.members, optional, hf]

theorem mem_names_printed {R : Form α} {r : α} {name : String} :
    name ∈ (R.printed r).map Prod.fst ↔
      (∃ f ∈ R.fields, (f.get r).isSome = true ∧ f.name = name) ∨
        name ∈ (R.other r).map Prod.fst := by
  rw [names_printed, List.mem_append, List.mem_map]
  simp only [List.mem_filter, and_assoc]

theorem not_mem_other {shape : Raw.Shape} {ms : Members} {name : String}
    (hu : ∀ m ∈ ms, shape.knows m.1 = false) (hk : shape.knows name = true) :
    name ∉ ms.map Prod.fst := by
  intro h
  obtain ⟨m, hm, rfl⟩ := List.mem_map.mp h
  rw [hu m hm] at hk
  cases hk

theorem fits_getD {R : Form α} {depth : Nat} {found : Option α} {missing : α}
    (h : ∀ r ∈ found, R.Fits depth r) (hm : R.Fits depth missing) :
    R.Fits depth (found.getD missing) := by
  cases found with
  | none => exact hm
  | some r => exact h r rfl

namespace Lawful

variable {R : Form α} (hR : R.Lawful)

include hR

/-- The record that is read from no members at all. -/
theorem fits_init (hr : ∀ f ∈ R.fields, f.required = false) {depth : Nat} :
    R.Fits (depth + 1) R.init := by
  refine ⟨fun f hf x hx => ?_, hR.other_init ▸ Unnamed.nil R.shape⟩
  rw [hR.get_init f hf (hr f hf)] at hx
  cases hx

theorem inner_eq {f : Field α} (hf : f ∈ R.fields) : R.inner f.name = f.codec.layout :=
  List.map_inj_left.mp hR.inner f hf

theorem take_eq {f : Field α} (hf : f ∈ R.fields) (depth : Nat) (raw : Raw) (r : α) :
    R.take depth f.name raw r = (f.read depth raw).map fun x => f.set x r :=
  (List.map_inj_left.mp (hR.take depth raw r) f hf).trans (f.store_eq_map depth raw r)

theorem knows_iff {name : String} :
    R.shape.knows name = true ↔ name ∈ R.fields.map (·.name) := by
  rw [Raw.Shape.knows, hR.shape]
  simp only [Bool.or_eq_true, List.contains_iff_mem, List.mem_map, List.mem_filter,
    Bool.not_eq_true']
  constructor
  · rintro (⟨f, ⟨hf, -⟩, rfl⟩ | ⟨f, ⟨hf, -⟩, rfl⟩) <;> exact ⟨f, hf, rfl⟩
  · rintro ⟨f, hf, rfl⟩
    cases hr : f.required with
    | true => exact .inl ⟨f, ⟨hf, hr⟩, rfl⟩
    | false => exact .inr ⟨f, ⟨hf, hr⟩, rfl⟩

theorem takeOther_eq {name : String} (hn : R.shape.knows name = false) (depth : Nat) (raw : Raw)
    (r : α) : R.take depth name raw r =
      (raw.toJson depth).map fun v => R.withOther (put (R.other r) name v) r := by
  have hname : name ∉ R.fields.map (·.name) := by
    rw [← hR.knows_iff, hn]
    exact Bool.false_ne_true
  rw [hR.takeOther hname]
  cases raw.toJson depth <;> rfl

theorem knows {f : Field α} (hf : f ∈ R.fields) : R.shape.knows f.name = true :=
  hR.knows_iff.mpr (List.mem_map.mpr ⟨f, hf, rfl⟩)

theorem eq_of_name {f g : Field α} (hf : f ∈ R.fields) (hg : g ∈ R.fields)
    (h : f.name = g.name) : f = g :=
  List.inj_on_of_nodup_map hR.distinct hf hg h

theorem optional_contains {f : Field α} (hf : f ∈ R.fields) :
    R.shape.optional.contains f.name = !f.required := by
  rw [hR.shape, Bool.eq_iff_iff, List.contains_iff_mem]
  simp only [List.mem_map, List.mem_filter]
  constructor
  · rintro ⟨g, ⟨hg, hr⟩, hname⟩
    rwa [hR.eq_of_name hf hg hname.symm]
  · intro hr
    exact ⟨f, ⟨hf, hr⟩, rfl⟩

theorem mem_required {f : Field α} (hf : f ∈ R.fields) (hr : f.required = true) :
    f.name ∈ R.shape.required := by
  rw [hR.shape]
  exact List.mem_map.mpr ⟨f, List.mem_filter.mpr ⟨hf, hr⟩, rfl⟩

theorem nodup_printed {r : α} (hd : ((R.other r).map Prod.fst).Nodup)
    (hu : ∀ m ∈ R.other r, R.shape.knows m.1 = false) :
    ((R.printed r).map Prod.fst).Nodup := by
  rw [names_printed, List.nodup_append]
  refine ⟨hR.distinct.sublist (List.filter_sublist.map _), hd, ?_⟩
  rintro a ha b hb rfl
  obtain ⟨f, hf, rfl⟩ := List.mem_map.mp ha
  exact not_mem_other hu (hR.knows (List.mem_filter.mp hf).1) hb

theorem rest_printed {r : α} (hu : ∀ m ∈ R.other r, R.shape.knows m.1 = false) :
    R.shape.rest (R.printed r) = R.other r := by
  have hnamed : ∀ m ∈ R.fields.flatMap (·.members r), R.shape.knows m.1 = true := by
    intro m hm
    obtain ⟨f, hf, hm⟩ := List.mem_flatMap.mp hm
    rw [Field.members, optional, List.mem_map] at hm
    obtain ⟨v, -, rfl⟩ := hm
    exact hR.knows hf
  rw [Raw.Shape.rest, printed, List.filter_append]
  rw [List.filter_eq_nil_iff.mpr, List.filter_eq_self.mpr, List.nil_append]
  · intro m hm
    rw [hu m hm]
    rfl
  · intro m hm
    rw [hnamed m hm]
    exact Bool.not_eq_true _ |>.mpr rfl

theorem get?_printed {r : α} (hd : ((R.other r).map Prod.fst).Nodup)
    (hu : ∀ m ∈ R.other r, R.shape.knows m.1 = false) {f : Field α} (hf : f ∈ R.fields) :
    get? (R.printed r) f.name = (f.get r).map f.codec.print := by
  cases hx : f.get r with
  | none =>
    refine get?_eq_none_iff.mpr fun hm => ?_
    rcases mem_names_printed.mp hm with ⟨g, hg, hsome, hname⟩ | hother
    · rw [hR.eq_of_name hg hf hname, hx] at hsome
      cases hsome
    · exact not_mem_other hu (hR.knows hf) hother
  | some x =>
    refine get?_of_mem (hR.nodup_printed hd hu) (List.mem_append_left _ ?_)
    refine List.mem_flatMap.mpr ⟨f, hf, ?_⟩
    rw [Field.members, hx]
    exact List.mem_singleton.mpr rfl

end Lawful

/-- A record read so far and a plain value read so far agree, `seen` being the names of the members
that both have seen. -/
structure Tracks (R : Form α) (depth : Nat) (seen : List String) (r : α) (ms : Members) :
    Prop where
  distinct : (ms.map Prod.fst).Nodup
  other : R.other r = R.shape.rest ms
  held : ∀ f ∈ R.fields, f.name ∈ seen → ∃ v, get? ms f.name = some v ∧ f.Holds depth v (f.get r)
  unheld : ∀ f ∈ R.fields, f.name ∉ seen →
    get? ms f.name = none ∧ (f.required = false → f.get r = none)

namespace Lawful

variable {R : Form α} (hR : R.Lawful) {depth : Nat} {seen : List String} {r : α} {ms : Members}

include hR

theorem tracks_init : R.Tracks depth [] R.init [] where
  distinct := List.nodup_nil
  other := hR.other_init
  held _ _ h := absurd h List.not_mem_nil
  unheld f hf _ := ⟨rfl, hR.get_init f hf⟩

theorem tracks_field (ht : R.Tracks depth seen r ms) {f : Field α} (hf : f ∈ R.fields)
    (hs : f.name ∉ seen) {v : Json} {x : Option f.β} (hx : f.Holds depth v x) :
    R.Tracks depth (f.name :: seen) (f.set x r) (put ms f.name v) where
  distinct := nodup_put ht.distinct f.name v
  other := by
    have hunnamed : (!R.shape.knows f.name) = false := by rw [hR.knows hf]; rfl
    rw [hR.other_set f hf, ht.other, Raw.Shape.rest, Raw.Shape.rest]
    exact (filter_put_of_false (p := fun name => !R.shape.knows name) hunnamed ms v).symm
  held g hg hname := by
    by_cases hfg : f.name = g.name
    · obtain rfl := hR.eq_of_name hf hg hfg
      have hnew : f.name ∉ ms.map Prod.fst := get?_eq_none_iff.mp (ht.unheld f hf hs).1
      refine ⟨v, ?_, ?_⟩
      · rw [put_of_not_mem hnew, get?_append, (ht.unheld f hf hs).1, get?_cons, if_pos rfl]
        rfl
      · rw [hR.get_set f hf x r hx.required]
        exact hx
    · obtain ⟨w, hw, hholds⟩ := ht.held g hg ((List.mem_cons.mp hname).resolve_left (Ne.symm hfg))
      refine ⟨w, by rw [get?_put_of_ne hfg, hw], ?_⟩
      rw [hR.get_set_of_ne f hf g hg hfg]
      exact hholds
  unheld g hg hname := by
    obtain ⟨hne, hs⟩ := not_or.mp (List.mem_cons.not.mp hname)
    rw [get?_put_of_ne (Ne.symm hne), hR.get_set_of_ne f hf g hg (Ne.symm hne)]
    exact ht.unheld g hg hs

theorem tracks_other (ht : R.Tracks depth seen r ms) {name : String}
    (hn : R.shape.knows name = false) (v : Json) :
    R.Tracks depth (name :: seen) (R.withOther (put (R.other r) name v) r) (put ms name v) where
  distinct := nodup_put ht.distinct name v
  other := by
    have hunnamed : (!R.shape.knows name) = true := by rw [hn]; rfl
    rw [hR.other_withOther, ht.other, Raw.Shape.rest, Raw.Shape.rest]
    exact (filter_put_of_true (p := fun name => !R.shape.knows name) hunnamed ms v).symm
  held f hf hname := by
    have hne : name ≠ f.name := by
      rintro rfl
      rw [hR.knows hf] at hn
      cases hn
    obtain ⟨w, hw, hholds⟩ := ht.held f hf ((List.mem_cons.mp hname).resolve_left (Ne.symm hne))
    exact ⟨w, by rw [get?_put_of_ne hne, hw], by rwa [hR.get_withOther f hf]⟩
  unheld f hf hname := by
    obtain ⟨hne, hs⟩ := not_or.mp (List.mem_cons.not.mp hname)
    rw [get?_put_of_ne (Ne.symm hne), hR.get_withOther f hf]
    exact ht.unheld f hf hs

/-- The two readers go through the members side by side. -/
theorem tracks_members {stop : Option Fault} {members : List (RawText × Raw)} {q : α}
    (h : Raw.eachMember R.shape (R.take depth) stop seen r members = .ok q)
    (ht : R.Tracks depth seen r ms) :
    stop = none ∧ ∃ ns seen', Raw.membersToJson depth ms members = .ok ns ∧
      R.Tracks depth seen' q ns ∧ ∀ name ∈ R.shape.required, name ∈ seen' := by
  induction members generalizing seen r ms with
  | nil =>
    cases stop with
    | some f => cases h
    | none =>
      rw [Raw.eachMember] at h
      split at h
      · next hall =>
        cases h
        exact ⟨rfl, ms, seen, rfl, ht, by simpa using hall⟩
      · cases h
  | cons m members ih =>
    obtain ⟨text, raw⟩ := m
    obtain ⟨name, hname, h⟩ := bind_eq_ok.mp h
    have onward {v : Json} {r' : α} (hv : raw.toJson depth = .ok v)
        (ht' : R.Tracks depth (name :: seen) r' (put ms name v))
        (h : Raw.eachMember R.shape (R.take depth) stop (name :: seen) r' members = .ok q) :
        stop = none ∧ ∃ ns seen', Raw.membersToJson depth ms ((text, raw) :: members) = .ok ns ∧
          R.Tracks depth seen' q ns ∧ ∀ name ∈ R.shape.required, name ∈ seen' := by
      obtain ⟨hstop, ns, seen', hns, hrest⟩ := ih h ht'
      refine ⟨hstop, ns, seen', ?_, hrest⟩
      rw [Raw.membersToJson, hname, hv]
      exact hns
    dsimp only at h
    split at h
    · cases h
    · next hnew =>
      obtain ⟨r', hr', h⟩ := bind_eq_ok.mp h
      cases hk : R.shape.knows name with
      | true =>
        obtain ⟨f, hf, rfl⟩ := List.mem_map.mp (hR.knows_iff.mp hk)
        rw [hR.take_eq hf, map_eq_ok] at hr'
        obtain ⟨x, hx, rfl⟩ := hr'
        obtain ⟨v, hv, hholds⟩ := Field.exists_of_read (hR.codecs f hf) hx
        have hs : f.name ∉ seen := by simpa [hk] using hnew
        exact onward hv (hR.tracks_field ht hf hs hholds) h
      | false =>
        rw [hR.takeOther_eq hk, map_eq_ok] at hr'
        obtain ⟨v, hv, rfl⟩ := hr'
        exact onward hv (hR.tracks_other ht hk v) h

/-- Reading a record loses nothing, and what it keeps survives if all numbers are whole. -/
theorem reads {raw : Raw} {depth : Nat} (h : R.codec.read depth raw = .ok r) :
    ∃ v, raw.toJson depth = .ok v ∧ Same R.codec.layout v (R.print r) ∧
      (v.Whole → R.Fits depth r) := by
  match raw, depth with
  | .object members stop, depth + 1 =>
    obtain ⟨rfl, ns, seen, hns, ht, hrequired⟩ := hR.tracks_members h hR.tracks_init
    have hjson : (Raw.object members none).toJson (depth + 1) = .ok (.object ns) := by
      rw [Raw.toJson, hns]
      rfl
    have hd : ((R.other r).map Prod.fst).Nodup :=
      ht.other ▸ ht.distinct.sublist (List.filter_sublist.map _)
    have hu : ∀ m ∈ R.other r, R.shape.knows m.1 = false := by
      intro m hm
      rw [ht.other, Raw.Shape.rest, List.mem_filter] at hm
      simpa using hm.2
    have habsent : ∀ f ∈ R.fields, f.name ∉ seen → f.get r = none := by
      intro f hf hs
      refine (ht.unheld f hf hs).2 ?_
      rw [← Bool.not_eq_true]
      exact fun hr => hs (hrequired _ (hR.mem_required hf hr))
    refine ⟨_, hjson, ⟨ns, _, rfl, hR.print r, ht.distinct, hR.nodup_printed hd hu, ?_, ?_⟩, ?_⟩
    · exact ht.other.symm.trans (hR.rest_printed hu).symm
    · intro name hname
      obtain ⟨f, hf, rfl⟩ := List.mem_map.mp (hR.knows_iff.mp hname)
      rw [hR.optional_contains hf, hR.inner_eq hf]
      change Kept _ _ _ (get? (R.printed r) f.name)
      rw [hR.get?_printed hd hu hf]
      by_cases hs : f.name ∈ seen
      · obtain ⟨v, hv, hholds⟩ := ht.held f hf hs
        rw [hv]
        exact hholds.kept
      · rw [(ht.unheld f hf hs).1, habsent f hf hs]
        exact .absent
    · intro hw
      have hshaped := shaped_of_toJson hjson
      cases hshaped with
      | object _ values =>
        refine ⟨fun f hf x hx => ?_, hd, hu, fun m hm => ?_⟩
        · by_cases hs : f.name ∈ seen
          · obtain ⟨v, hv, hholds⟩ := ht.held f hf hs
            exact hholds.fits (whole_object.mp hw _ (mem_of_get? hv)) x hx
          · rw [habsent f hf hs] at hx
            cases hx
        · rw [ht.other] at hm
          have hm := List.mem_of_mem_filter hm
          exact ⟨values m hm, whole_object.mp hw m hm⟩
  | .object members stop, 0 => cases h
  | .null, _ | .bool _, _ | .number _, _ | .cutNumber, _ | .text _, _ | .array _ _, _
  | .fault _, _ => cases h

theorem prints {depth : Nat} (h : R.Fits depth r) : Json.Fits depth (R.print r) := by
  cases depth with
  | zero => cases h
  | succ depth =>
    obtain ⟨hfields, hother⟩ := h
    have hfits : ∀ m ∈ R.printed r, Json.Fits depth m.2 := by
      intro m hm
      rcases List.mem_append.mp hm with hm | hm
      · obtain ⟨f, hf, hm⟩ := List.mem_flatMap.mp hm
        cases hx : f.get r with
        | none => simp [Field.members, optional, hx] at hm
        | some x =>
          obtain rfl : m = (f.name, f.codec.print x) := by
            simpa [Field.members, optional, hx] using hm
          exact (hR.codecs f hf).prints (hfields f hf x hx)
      · exact hother.fits m hm
    rw [hR.print]
    have hdistinct := hR.nodup_printed hother.distinct hother.unknown
    exact ⟨.object hdistinct fun m hm => (hfits m hm).shaped,
      whole_object.mpr fun m hm => (hfits m hm).whole⟩

end Lawful

/-- Members of distinct names, all required ones among them, are taken one after the other. -/
theorem eachMember_written {shape : Raw.Shape} (take : String → Raw → α → Except Fault α)
    {ms : Members} {seen : List String} (r : α) (hn : (ms.map Prod.fst).Nodup)
    (hs : ∀ name ∈ ms.map Prod.fst, name ∉ seen)
    (hr : ∀ name ∈ shape.required, name ∈ seen ∨ name ∈ ms.map Prod.fst) :
    Raw.eachMember shape take none seen r (writtenMembers ms) =
      ms.foldlM (fun r m => take m.1 (written m.2) r) r := by
  induction ms generalizing seen r with
  | nil =>
    have hall : shape.required.all seen.contains = true := by simpa using hr
    rw [writtenMembers, Raw.eachMember, if_pos hall]
    rfl
  | cons m ms ih =>
    obtain ⟨hm, hn⟩ := List.nodup_cons.mp hn
    obtain ⟨hs, hss⟩ := List.forall_mem_cons.mp hs
    have hnew : ¬ (shape.knows m.1 && seen.contains m.1) = true := by simp [hs]
    have hunseen : ∀ name ∈ ms.map Prod.fst, name ∉ m.1 :: seen := by
      intro name hname
      rw [List.mem_cons, not_or]
      exact ⟨fun h => hm (h ▸ hname), hss name hname⟩
    have hrequired : ∀ name ∈ shape.required, name ∈ m.1 :: seen ∨ name ∈ ms.map Prod.fst := by
      intro name hname
      rw [List.mem_cons]
      rcases hr name hname with h | h
      · exact .inl (.inr h)
      · exact (List.mem_cons.mp h).imp_left .inl
    have hrest (r' : α) := ih r' hn hunseen hrequired
    rw [writtenMembers, Raw.eachMember, read_writtenText, List.foldlM_cons]
    refine (if_neg hnew).trans ?_
    exact congrArg _ (funext hrest)

namespace Lawful

variable {R : Form α} (hR : R.Lawful) {depth : Nat} {r q : α}

include hR

/-- A printed field is taken up, and nothing else changes. -/
theorem take_field {f : Field α} (hf : f ∈ R.fields)
    (hfits : ∀ x ∈ f.get r, f.codec.Fits depth x) (hinit : f.required = false → f.get q = none) :
    ∃ p, (f.members r).foldlM (fun q m => R.take depth m.1 (written m.2) q) q = .ok p ∧
      R.other p = R.other q ∧ f.get p = f.get r ∧
      ∀ g ∈ R.fields, g.name ≠ f.name → g.get p = g.get q := by
  cases hx : f.get r with
  | none =>
    have hr : f.required = false := by
      rw [← Bool.not_eq_true]
      intro hr
      have hsome := hR.get_required f hf hr r
      rw [hx] at hsome
      cases hsome
    refine ⟨q, ?_, rfl, hinit hr, fun _ _ _ => rfl⟩
    rw [Field.members, hx]
    rfl
  | some x =>
    have hmembers : f.members r = [(f.name, f.codec.print x)] := by
      rw [Field.members, hx]
      rfl
    refine ⟨f.set (some x) q, ?_, hR.other_set f hf _ q, hR.get_set f hf _ q fun _ => rfl,
      fun g hg hname => hR.get_set_of_ne f hf g hg (Ne.symm hname) _ q⟩
    rw [hmembers, List.foldlM_cons, hR.take_eq hf,
      Field.read_written (hR.codecs f hf) (hfits x hx)]
    rfl

/-- The printed fields are taken up one by one. -/
theorem take_fields {fields : List (Field α)} (hsub : ∀ f ∈ fields, f ∈ R.fields)
    (hd : (fields.map (·.name)).Nodup)
    (hfits : ∀ f ∈ fields, ∀ x ∈ f.get r, f.codec.Fits depth x)
    (hinit : ∀ f ∈ fields, f.required = false → f.get q = none) :
    ∃ q', (fields.flatMap (·.members r)).foldlM
        (fun q m => R.take depth m.1 (written m.2) q) q = .ok q' ∧
      R.other q' = R.other q ∧ (∀ f ∈ fields, f.get q' = f.get r) ∧
      ∀ g ∈ R.fields, g.name ∉ fields.map (·.name) → g.get q' = g.get q := by
  induction fields generalizing q with
  | nil => exact ⟨q, rfl, rfl, by simp, fun _ _ _ => rfl⟩
  | cons f fields ih =>
    obtain ⟨hf, hsub⟩ := List.forall_mem_cons.mp hsub
    obtain ⟨hfd, hd⟩ := List.nodup_cons.mp hd
    obtain ⟨hx, hfits⟩ := List.forall_mem_cons.mp hfits
    obtain ⟨hfinit, hinit⟩ := List.forall_mem_cons.mp hinit
    have hne : ∀ g ∈ fields, f.name ≠ g.name := by
      intro g hg h
      exact hfd (List.mem_map.mpr ⟨g, hg, h.symm⟩)
    obtain ⟨p, hp, hother, hget, hgets⟩ := hR.take_field hf hx hfinit
    obtain ⟨q', hq', hother', hget', hgets'⟩ := ih (q := p) hsub hd hfits fun g hg hr => by
      rw [hgets g (hsub g hg) (Ne.symm (hne g hg)), hinit g hg hr]
    refine ⟨q', ?_, hother'.trans hother, ?_, fun g hg hname => ?_⟩
    · rw [List.flatMap_cons, List.foldlM_append, hp]
      exact hq'
    · refine List.forall_mem_cons.mpr ⟨?_, hget'⟩
      rw [hgets' f hf hfd, hget]
    · obtain ⟨hnf, hname⟩ := not_or.mp (List.mem_cons.not.mp hname)
      rw [hgets' g hg hname, hgets g hg hnf]

/-- The other members are taken up behind those that are there. -/
theorem take_others {ms : Members} (hu : ∀ m ∈ ms, R.shape.knows m.1 = false)
    (hd : ((R.other q ++ ms).map Prod.fst).Nodup) (hfits : ∀ m ∈ ms, Json.Fits depth m.2) :
    ∃ q', ms.foldlM (fun q m => R.take depth m.1 (written m.2) q) q = .ok q' ∧
      R.other q' = R.other q ++ ms ∧ ∀ f ∈ R.fields, f.get q' = f.get q := by
  induction ms generalizing q with
  | nil => exact ⟨q, rfl, by simp, fun _ _ => rfl⟩
  | cons m ms ih =>
    obtain ⟨hm, hu⟩ := List.forall_mem_cons.mp hu
    obtain ⟨hmfits, hfits⟩ := List.forall_mem_cons.mp hfits
    have hput : put (R.other q) m.1 m.2 = R.other q ++ [m] := by
      refine put_of_not_mem (fun hmem => ?_) m.2
      rw [List.map_append, List.nodup_append] at hd
      exact hd.2.2 _ hmem _ (by simp) rfl
    have hother : R.other (R.withOther (put (R.other q) m.1 m.2) q) = R.other q ++ [m] := by
      rw [hR.other_withOther, hput]
    obtain ⟨q', hq', hother', hget⟩ := ih (q := R.withOther (put (R.other q) m.1 m.2) q) hu
      (by rw [hother]; simpa using hd) hfits
    refine ⟨q', ?_, ?_, fun f hf => ?_⟩
    · rw [List.foldlM_cons, hR.takeOther_eq hm, toJson_written hmfits]
      exact hq'
    · rw [hother', hother]
      simp
    · rw [hget f hf, hR.get_withOther f hf]

theorem restores (h : R.Fits depth r) : R.codec.read depth (written (R.print r)) = .ok r := by
  cases depth with
  | zero => cases h
  | succ depth =>
    obtain ⟨hfields, hother⟩ := h
    have hnodup := hR.nodup_printed hother.distinct hother.unknown
    have hrequired : ∀ name ∈ R.shape.required, name ∈ (R.printed r).map Prod.fst := by
      intro name hname
      rw [hR.shape] at hname
      obtain ⟨f, hf, rfl⟩ := List.mem_map.mp hname
      obtain ⟨hf, hr⟩ := List.mem_filter.mp hf
      exact mem_names_printed.mpr (.inl ⟨f, hf, hR.get_required f hf hr r, rfl⟩)
    have heach := eachMember_written (R.take depth) R.init hnodup
      (fun name _ => List.not_mem_nil) (fun name hname => .inr (hrequired name hname))
    obtain ⟨q, hq, hqother, hqget, -⟩ := hR.take_fields (fun _ hf => hf)
      hR.distinct hfields hR.get_init
    rw [hR.other_init] at hqother
    obtain ⟨q', hq', hqother', hqget'⟩ := hR.take_others (q := q) hother.unknown
      (by rw [hqother]; exact hother.distinct) hother.fits
    have hsame : q' = r := by
      refine hR.ext q' r (fun f hf => ?_) ?_
      · rw [hqget' f hf, hqget f hf]
      · rw [hqother', hqother, List.nil_append]
    rw [hR.print]
    refine heach.trans ?_
    rw [printed, List.foldlM_append, hq]
    exact hq'.trans (congrArg Except.ok hsame)

/-- A record with lawful fields is itself read, printed and read again without loss. -/
theorem codec : R.codec.Lawful where
  reads := hR.reads
  restores := hR.restores
  prints := hR.prints
  solid r h := by
    have hprint : R.print r = .null := h
    rw [hR.print] at hprint
    cases hprint

end Lawful

end Form

end NpuRuntime.Json
