import Mathlib.Data.List.Basic
import Mathlib.Data.List.Induction
import Mathlib.Data.List.Perm.Subperm
import Mathlib.Data.Set.List
import NpuRuntime.Proofs.Selection.Options

/-! # Lists of options
A text is read as options exactly if it is empty, or not too long and made of allowed names. What
is read has each option once, where the text first names it. Written out, options are read as they
are. -/
namespace NpuRuntime.RuntimeOptions

variable {s : String} {o : RuntimeOptions} {names : List String} {xs : List RuntimeOption}

/-- The options that some names stand for, once each, in the order in which they are first named. -/
structure Lists (o : RuntimeOptions) (names : List String) : Prop where
  mem : ∀ x, x ∈ o.list ↔ x.name ∈ names
  order : o.list.Pairwise fun x y => names.idxOf x.name < names.idxOf y.name

theorem Lists.nodup (h : o.Lists names) : o.list.Nodup := by
  refine h.order.imp fun hlt heq => ?_
  rw [heq] at hlt
  exact Nat.lt_irrefl _ hlt

theorem lists_empty : empty.Lists [] where
  mem x := by simp [empty]
  order := .nil

/-- Names that come later do not change the order. -/
theorem Lists.order_append (h : o.Lists names) (more : List String) :
    o.list.Pairwise fun x y => (names ++ more).idxOf x.name < (names ++ more).idxOf y.name := by
  refine h.order.imp_of_mem fun hx hy hlt => ?_
  rwa [List.idxOf_append_of_mem ((h.mem _).mp hx), List.idxOf_append_of_mem ((h.mem _).mp hy)]

theorem mem_names_append {x y : RuntimeOption} :
    y.name ∈ names ++ [x.name] ↔ y.name ∈ names ∨ y = x := by
  rw [List.mem_append, List.mem_singleton]
  exact or_congr_right ⟨name_injective, congrArg RuntimeOption.name⟩

theorem Lists.add (h : o.Lists names) (x : RuntimeOption) :
    (o.add x).Lists (names ++ [x.name]) where
  mem y := by rw [mem_add, mem_names_append, h.mem]
  order := by
    have hkept := h.order_append [x.name]
    by_cases hx : x ∈ o.list
    · have hsame : o.add x = o := if_pos (List.contains_iff_mem.mpr hx)
      rwa [hsame]
    · have hnew : o.add x = ⟨o.list ++ [x]⟩ := if_neg (mt List.contains_iff_mem.mp hx)
      rw [hnew, List.pairwise_append]
      refine ⟨hkept, List.pairwise_singleton _ _, fun y hy z hz => ?_⟩
      obtain rfl := List.mem_singleton.mp hz
      have hnamed := (h.mem y).mp hy
      rw [List.idxOf_append_of_mem hnamed, List.idxOf_append_of_notMem (mt (h.mem z).mpr hx)]
      exact Nat.lt_of_lt_of_le (List.idxOf_lt_length_of_mem hnamed) (Nat.le_add_right _ _)

theorem lists_foldl_add (xs : List RuntimeOption) :
    (xs.foldl RuntimeOptions.add empty).Lists (xs.map RuntimeOption.name) := by
  induction xs using List.reverseRecOn with
  | nil => exact lists_empty
  | append_singleton xs x ih =>
    rw [List.foldl_append, List.map_append]
    exact ih.add x

/-- Distinct options are all kept. -/
theorem foldl_add_of_nodup (h : (o.list ++ xs).Nodup) :
    xs.foldl RuntimeOptions.add o = ⟨o.list ++ xs⟩ := by
  induction xs generalizing o with
  | nil => rw [List.foldl_nil, List.append_nil]
  | cons x xs ih =>
    have hx : x ∉ o.list := fun hmem =>
      (List.nodup_append.mp h).2.2 x hmem x List.mem_cons_self rfl
    have hnew : o.add x = ⟨o.list ++ [x]⟩ := if_neg (mt List.contains_iff_mem.mp hx)
    have hsplit : o.list ++ x :: xs = o.list ++ [x] ++ xs := by simp
    rw [List.foldl_cons, hnew, hsplit]
    exact ih (hsplit ▸ h)

theorem pieces_text (ho : o.isEmpty = false) :
    Text.pieces ',' o.text = o.list.map RuntimeOption.name := by
  have hplain (x : RuntimeOption) : ',' ∉ x.name.toList := by
    cases x <;> decide
  refine Text.pieces_join ?_ ?_
  · intro p hp
    obtain ⟨x, -, rfl⟩ := List.mem_map.mp hp
    exact hplain x
  · intro hnil
    rw [List.map_eq_nil_iff] at hnil
    simp [isEmpty, hnil] at ho

theorem mem_pieces_text (ho : o.isEmpty = false) (x : RuntimeOption) :
    x.name ∈ Text.pieces ',' o.text ↔ x ∈ o.list := by
  rw [pieces_text ho]
  constructor
  · intro hx
    obtain ⟨y, hy, hname⟩ := List.mem_map.mp hx
    exact name_injective hname ▸ hy
  · exact List.mem_map_of_mem

theorem namesOf_text (ho : o.isEmpty = false) : namesOf o.text = o.list.map RuntimeOption.name := by
  have htrim (x : RuntimeOption) : Text.trim x.name = x.name := by
    cases x <;> decide
  rw [namesOf, pieces_text ho, List.map_map]
  exact List.map_congr_left fun x _ => htrim x

theorem text_ne_empty (ho : o.isEmpty = false) : o.text ≠ "" := by
  intro hnone
  have hpieces := pieces_text ho
  rw [hnone] at hpieces
  have hblank : "" ∈ o.list.map RuntimeOption.name := hpieces ▸ List.mem_singleton_self ""
  obtain ⟨x, -, hx⟩ := List.mem_map.mp hblank
  cases x <;> exact absurd hx (by decide)

theorem length_le_of_nodup (h : o.list.Nodup) : o.list.length ≤ 2 := by
  have hall : o.list ⊆ [.noDriver, .virtual] := fun x _ => by cases x <;> simp
  exact (h.subperm hall).length_le

/-- A list of short texts is short: each of them comes with one comma at most. -/
theorem size_join_le {n : Nat} {parts : List String} (h : ∀ p ∈ parts, p.utf8ByteSize ≤ n) :
    (Text.join ',' parts).utf8ByteSize ≤ (n + 1) * parts.length := by
  induction parts with
  | nil => simp [Text.join]
  | cons first rest ih =>
    obtain ⟨hfirst, hrest⟩ := List.forall_mem_cons.mp h
    cases rest with
    | nil =>
      have hone : Text.join ',' [first] = first := by simp [Text.join]
      rw [hone, List.length_singleton]
      omega
    | cons second rest =>
      have hcomma : (String.ofList [',']).utf8ByteSize = 1 := by decide
      have hlater := ih hrest
      rw [Text.join_cons_cons, String.utf8ByteSize_append, String.utf8ByteSize_append, hcomma,
        List.length_cons, Nat.mul_succ]
      omega

theorem size_text_le (h : o.list.Nodup) : o.text.utf8ByteSize ≤ 128 := by
  have hname : ∀ p ∈ o.list.map RuntimeOption.name, p.utf8ByteSize ≤ 7 := by
    intro p hp
    obtain ⟨x, -, rfl⟩ := List.mem_map.mp hp
    cases x <;> decide
  have hsize := size_join_le hname
  have hlength := length_le_of_nodup h
  rw [List.length_map] at hsize
  rw [text]
  omega

/-- Distinct options are read from what is written of them. -/
theorem parse_text (h : o.list.Nodup) : parse o.text = .ok o := by
  by_cases hempty : o.isEmpty = true
  · obtain ⟨list⟩ := o
    obtain rfl : list = [] := List.isEmpty_iff.mp hempty
    rfl
  · have ho : o.isEmpty = false := Bool.eq_false_iff.mpr hempty
    refine (parse_eq_ok (text_ne_empty ho)).mpr ⟨size_text_le h, o.list, namesOf_text ho, ?_⟩
    exact (foldl_add_of_nodup (o := empty) h).symm

theorem isName_iff {t : String} :
    (∃ x : RuntimeOption, x.name = t) ↔ t = "NODRV" ∨ t = "VIRTUAL" := by
  constructor
  · rintro ⟨x, rfl⟩
    cases x with
    | noDriver => exact .inl rfl
    | virtual => exact .inr rfl
  · rintro (rfl | rfl)
    · exact ⟨.noDriver, rfl⟩
    · exact ⟨.virtual, rfl⟩

theorem exists_names_iff : (∃ xs : List RuntimeOption, xs.map RuntimeOption.name = names) ↔
    ∀ t ∈ names, t = "NODRV" ∨ t = "VIRTUAL" := by
  have hrange := Set.ext_iff.mp (Set.range_list_map RuntimeOption.name) names
  exact hrange.trans (forall₂_congr fun t _ => isName_iff)

theorem exists_parse_iff : (∃ o, parse s = .ok o) ↔
    s = "" ∨ s.utf8ByteSize ≤ 128 ∧ ∀ t ∈ namesOf s, t = "NODRV" ∨ t = "VIRTUAL" := by
  by_cases hs : s = ""
  · exact iff_of_true ⟨empty, hs ▸ parse_empty⟩ (.inl hs)
  · rw [or_iff_right hs, ← exists_names_iff]
    constructor
    · rintro ⟨o, ho⟩
      obtain ⟨hshort, xs, hxs, -⟩ := (parse_eq_ok hs).mp ho
      exact ⟨hshort, xs, hxs.symm⟩
    · rintro ⟨hshort, xs, hxs⟩
      exact ⟨_, (parse_eq_ok hs).mpr ⟨hshort, xs, hxs.symm, rfl⟩⟩

theorem lists_of_parse (h : parse s = .ok o) : o.Lists (namesOf s) := by
  by_cases hs : s = ""
  · subst hs
    cases h
    refine ⟨fun x => ?_, .nil⟩
    cases x <;> decide
  · obtain ⟨-, xs, hnames, rfl⟩ := (parse_eq_ok hs).mp h
    rw [hnames]
    exact lists_foldl_add xs

/-- A text is read exactly if it is empty, or at most 128 bytes long with an allowed name for each
of its tokens. The options are those named, in the order of their first tokens, and they are read
again from their own text. -/
theorem parse_reads (s : String) :
    ((∃ o, parse s = .ok o) ↔
      s = "" ∨ s.utf8ByteSize ≤ 128 ∧ ∀ t ∈ namesOf s, t = "NODRV" ∨ t = "VIRTUAL") ∧
    ∀ o, parse s = .ok o → o.Lists (namesOf s) ∧ (o.isVirtual = true ↔ "VIRTUAL" ∈ namesOf s) ∧
      parse o.text = .ok o := by
  refine ⟨exists_parse_iff, fun o ho => ?_⟩
  have hlists := lists_of_parse ho
  exact ⟨hlists, isVirtual_iff.trans (hlists.mem .virtual), parse_text hlists.nodup⟩

/-- Blanks around tokens, an option named twice, and the two options in either order. -/
theorem parse_reads_padded :
    let o : RuntimeOptions := ⟨[.virtual, .noDriver]⟩
    parse " VIRTUAL,NODRV ,VIRTUAL" = .ok o ∧ o.Lists ["VIRTUAL", "NODRV", "VIRTUAL"] ∧
      o.text = "VIRTUAL,NODRV" ∧ parse o.text = .ok o := by
  have hread : parse " VIRTUAL,NODRV ,VIRTUAL" = .ok ⟨[.virtual, .noDriver]⟩ := by decide +kernel
  have hnames : namesOf " VIRTUAL,NODRV ,VIRTUAL" = ["VIRTUAL", "NODRV", "VIRTUAL"] := by
    decide +kernel
  obtain ⟨hlists, -, htext⟩ := (parse_reads " VIRTUAL,NODRV ,VIRTUAL").2 _ hread
  exact ⟨hread, hnames ▸ hlists, by decide, htext⟩

end NpuRuntime.RuntimeOptions
