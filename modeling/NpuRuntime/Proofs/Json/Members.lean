import NpuRuntime.Json.Basic

/-! # Members of objects
Putting a member replaces the one of its name where it stands, or adds one at the end. So names
stay distinct, and the members of other names stay as they are and in their order. -/
namespace NpuRuntime.Json

variable {ms : Members} {name : String}

theorem any_name_iff : ms.any (·.1 == name) = true ↔ name ∈ ms.map Prod.fst := by
  rw [List.any_eq_true, List.mem_map]
  simp only [beq_iff_eq]

theorem put_of_not_mem (h : name ∉ ms.map Prod.fst) (v : Json) :
    put ms name v = ms ++ [(name, v)] := if_neg fun hn => h (any_name_iff.mp hn)

/-- A member with a new value, if it has this name. -/
def replaced (name : String) (v : Json) (m : String × Json) : String × Json :=
  if m.1 == name then (name, v) else m

theorem put_of_mem (h : name ∈ ms.map Prod.fst) (v : Json) :
    put ms name v = ms.map (replaced name v) := if_pos (any_name_iff.mpr h)

theorem fst_replaced (name : String) (v : Json) (m : String × Json) :
    (replaced name v m).1 = m.1 := by
  by_cases hm : m.1 = name <;> simp [replaced, hm]

theorem replaced_of_ne {m : String × Json} (h : m.1 ≠ name) (v : Json) :
    replaced name v m = m := by
  simp [replaced, h]

theorem names_put (ms : Members) (name : String) (v : Json) : (put ms name v).map Prod.fst =
    if name ∈ ms.map Prod.fst then ms.map Prod.fst else ms.map Prod.fst ++ [name] := by
  split
  · next h =>
    rw [put_of_mem h, List.map_map]
    exact List.map_congr_left fun m _ => fst_replaced name v m
  · next h =>
    rw [put_of_not_mem h, List.map_append]
    rfl

theorem nodup_put (h : (ms.map Prod.fst).Nodup) (name : String) (v : Json) :
    ((put ms name v).map Prod.fst).Nodup := by
  rw [names_put]
  split
  · exact h
  · next hn =>
    refine List.nodup_append.mpr ⟨h, List.pairwise_singleton _ _, ?_⟩
    rintro a ha b hb rfl
    exact hn (List.mem_singleton.mp hb ▸ ha)

theorem mem_of_mem_put {m : String × Json} {v : Json} (h : m ∈ put ms name v) :
    m ∈ ms ∨ m = (name, v) := by
  by_cases hn : name ∈ ms.map Prod.fst
  · rw [put_of_mem hn, List.mem_map] at h
    obtain ⟨k, hk, rfl⟩ := h
    unfold replaced
    split
    · exact .inr rfl
    · exact .inl hk
  · rw [put_of_not_mem hn, List.mem_append, List.mem_singleton] at h
    exact h

theorem filter_replaced (p : String → Bool) (ms : Members) (name : String) (v : Json) :
    (ms.map (replaced name v)).filter (p ·.1) =
      (ms.filter (p ·.1)).map (replaced name v) := by
  rw [List.filter_map]
  congr 1
  refine List.filter_congr fun m _ => ?_
  rw [Function.comp_apply, fst_replaced]

theorem filter_put_of_false {p : String → Bool} (hp : p name = false) (ms : Members) (v : Json) :
    (put ms name v).filter (p ·.1) = ms.filter (p ·.1) := by
  by_cases hn : name ∈ ms.map Prod.fst
  · rw [put_of_mem hn, filter_replaced]
    refine (List.map_congr_left fun m hm => ?_).trans (List.map_id _)
    have hm : p m.1 = true := (List.mem_filter.mp hm).2
    refine replaced_of_ne (fun h => ?_) v
    rw [h, hp] at hm
    cases hm
  · simp [put_of_not_mem hn, hp]

theorem filter_put_of_true {p : String → Bool} (hp : p name = true) (ms : Members) (v : Json) :
    (put ms name v).filter (p ·.1) = put (ms.filter (p ·.1)) name v := by
  have hmem : name ∈ (ms.filter (p ·.1)).map Prod.fst ↔ name ∈ ms.map Prod.fst := by
    simp only [List.mem_map, List.mem_filter]
    constructor
    · rintro ⟨m, ⟨hm, -⟩, rfl⟩
      exact ⟨m, hm, rfl⟩
    · rintro ⟨m, hm, rfl⟩
      exact ⟨m, ⟨hm, hp⟩, rfl⟩
  by_cases hn : name ∈ ms.map Prod.fst
  · rw [put_of_mem hn, filter_replaced, put_of_mem (hmem.mpr hn)]
  · rw [put_of_not_mem hn, put_of_not_mem fun h => hn (hmem.mp h), List.filter_append]
    simp [hp]

theorem get?_cons (m : String × Json) (ms : Members) (name : String) :
    get? (m :: ms) name = if m.1 = name then some m.2 else get? ms name := by
  by_cases h : m.1 = name <;> simp [get?, h]

theorem get?_append (first second : Members) (name : String) :
    get? (first ++ second) name = (get? first name).or (get? second name) := by
  induction first with
  | nil => rfl
  | cons m first ih =>
    rw [List.cons_append, get?_cons, get?_cons, ih]
    split <;> rfl

theorem get?_eq_none_iff : get? ms name = none ↔ name ∉ ms.map Prod.fst := by
  induction ms with
  | nil => simp [get?]
  | cons m ms ih =>
    rw [get?_cons]
    by_cases h : m.1 = name
    · simp [h]
    · simp [h, ih, Ne.symm h]

/-- Members of distinct names are found by their names. -/
theorem get?_of_mem (hn : (ms.map Prod.fst).Nodup) {v : Json} (h : (name, v) ∈ ms) :
    get? ms name = some v := by
  induction ms with
  | nil => cases h
  | cons m ms ih =>
    obtain ⟨hm, hn⟩ := List.nodup_cons.mp hn
    rw [get?_cons]
    rcases List.mem_cons.mp h with rfl | h
    · exact if_pos rfl
    · rw [if_neg, ih hn h]
      rintro rfl
      exact hm (List.mem_map.mpr ⟨_, h, rfl⟩)

theorem mem_of_get? {v : Json} (h : get? ms name = some v) : (name, v) ∈ ms := by
  induction ms with
  | nil => cases h
  | cons m ms ih =>
    rw [get?_cons] at h
    split at h
    · next hm =>
      cases h
      exact hm ▸ List.mem_cons_self
    · exact List.mem_cons_of_mem _ (ih h)

theorem get?_put_of_ne {other : String} (h : name ≠ other) (ms : Members) (v : Json) :
    get? (put ms name v) other = get? ms other := by
  by_cases hn : name ∈ ms.map Prod.fst
  · rw [put_of_mem hn]
    clear hn
    induction ms with
    | nil => rfl
    | cons m ms ih =>
      rw [List.map_cons, get?_cons, get?_cons, ih, fst_replaced]
      split
      · next hm => rw [replaced_of_ne (hm ▸ h.symm)]
      · rfl
  · rw [put_of_not_mem hn, get?_append, get?_cons, if_neg h]
    exact Option.or_none

end NpuRuntime.Json
