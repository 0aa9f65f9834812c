import NpuRuntime.Environment
import NpuRuntime.Proofs.Text.Pieces

/-! # Laws of environment lists
What a lookup finds after a line was set, extended or appended. Names are those that a written
line gives back: trimmed, and without an equals sign. -/
namespace NpuRuntime.Environment

/-- A line made of this name is found under it. -/
structure IsName (name : String) : Prop where
  plain : '=' ∉ name.toList
  trimmed : Text.trim name = name

theorem isName_visibleDevices : IsName visibleDevices := ⟨by decide, by decide⟩

theorem isName_runtimeOptions : IsName runtimeOptions := ⟨by decide, by decide⟩

variable {name other : String}

theorem valueIn?_line (h : IsName name) (value : String) :
    valueIn? name (line name value) = some value := by
  have hc : Text.cut? '=' (line name value) = some (name, value) := Text.cut?_append h.plain value
  simp [valueIn?, hc, h.trimmed]

theorem valueIn?_line_of_ne (h : IsName name) (hne : name ≠ other) (value : String) :
    valueIn? other (line name value) = none := by
  have hc : Text.cut? '=' (line name value) = some (name, value) := Text.cut?_append h.plain value
  simp [valueIn?, hc, h.trimmed, hne]

/-- A line has one name. -/
theorem valueIn?_eq_none_of_ne {l : String} (h : isNamed name l = true) (hne : name ≠ other) :
    valueIn? other l = none := by
  unfold isNamed valueIn? at h
  unfold valueIn?
  cases hc : Text.cut? '=' l with
  | none => rfl
  | some cut =>
    have hk : Text.trim cut.1 = name := by
      by_contra hk
      simp [hc, hk] at h
    simp [hk, hne]

theorem any_isNamed (env : Lines) (name : String) :
    env.any (isNamed name) = (get? env name).isSome := by
  induction env with
  | nil => rfl
  | cons l env ih =>
    cases hl : valueIn? name l <;> simp [get?, isNamed, hl]
    simpa [get?, isNamed] using ih

theorem get?_cons_of_some {l value : String} (h : valueIn? name l = some value) (env : Lines) :
    get? (l :: env) name = some value := by
  simp [get?, h]

theorem get?_cons_of_none {l : String} (h : valueIn? name l = none) (env : Lines) :
    get? (l :: env) name = get? env name := by
  simp [get?, h]

theorem get?_append (env rest : Lines) (name : String) :
    get? (env ++ rest) name = (get? env name).or (get? rest name) := by
  simp [get?, List.findSome?_append]

/-- An appended line is not seen under a name that it does not have. -/
theorem get?_append_of_none {l : String} (h : valueIn? name l = none) (env : Lines) :
    get? (env ++ [l]) name = get? env name := by
  rw [get?_append, get?_cons_of_none h, get?_nil, Option.or_none]

/-- What setting a value makes of one line. -/
def rewritten (name value l : String) : String := if isNamed name l then line name value else l

theorem rewritten_of_named {l : String} (hl : isNamed name l = true) (value : String) :
    rewritten name value l = line name value := if_pos hl

theorem rewritten_of_unnamed {l : String} (hl : ¬ isNamed name l = true) (value : String) :
    rewritten name value l = l := if_neg hl

theorem valueIn?_rewritten_of_ne (h : IsName name) (hne : name ≠ other) (value l : String) :
    valueIn? other (rewritten name value l) = valueIn? other l := by
  by_cases hl : isNamed name l = true
  · rw [rewritten_of_named hl, valueIn?_line_of_ne h hne, valueIn?_eq_none_of_ne hl hne]
  · rw [rewritten_of_unnamed hl]

theorem set_of_any {env : Lines} (h : env.any (isNamed name) = true) (value : String) :
    set env name value = env.map (rewritten name value) :=
  if_pos h

/-- All lines stay in their places; a new one comes behind them. -/
theorem set_eq_append (env : Lines) (name value : String) : set env name value =
    env.map (rewritten name value) ++ if env.any (isNamed name) then [] else [line name value] := by
  cases hany : env.any (isNamed name) with
  | true => rw [set_of_any hany, if_pos rfl, List.append_nil]
  | false =>
    have hkept : ∀ l ∈ env, rewritten name value l = l := fun l hl =>
      rewritten_of_unnamed (List.any_eq_false.mp hany l hl) value
    rw [set, hany, if_neg Bool.false_ne_true, if_neg Bool.false_ne_true,
      List.map_congr_left hkept, List.map_id']

theorem get?_set (h : IsName name) (env : Lines) (value : String) :
    get? (set env name value) name = some value := by
  unfold set
  split
  · next hany =>
    induction env with
    | nil => simp at hany
    | cons l env ih =>
      by_cases hl : isNamed name l = true
      · simp only [List.map_cons, hl, if_true]
        exact get?_cons_of_some (valueIn?_line h value) _
      · have hn : valueIn? name l = none := by simpa [isNamed] using hl
        simp only [List.map_cons, if_neg hl]
        rw [get?_cons_of_none hn]
        exact ih (by simpa [hl] using hany)
  · next hany =>
    rw [any_isNamed, Bool.not_eq_true, Option.isSome_eq_false_iff,
      Option.isNone_iff_eq_none] at hany
    rw [get?_append, hany, Option.none_or]
    exact get?_cons_of_some (valueIn?_line h value) []

theorem get?_set_of_ne (h : IsName name) (hne : name ≠ other) (env : Lines) (value : String) :
    get? (set env name value) other = get? env other := by
  have hmap : get? (env.map (rewritten name value)) other = get? env other := by
    rw [get?, List.findSome?_map]
    exact congrArg env.findSome? (funext (valueIn?_rewritten_of_ne h hne value))
  rw [set_eq_append]
  split
  · rw [List.append_nil, hmap]
  · rw [get?_append_of_none (valueIn?_line_of_ne h hne value), hmap]

theorem addToken_cons_of_some {l value : String} (h : valueIn? name l = some value) (env : Lines)
    (token : String) : (addToken (l :: env) name token).1 =
      ((withToken value token).elim l (line name)) :: env := by
  have hn : isNamed name l = true := by simp [isNamed, h]
  cases hw : withToken value token <;> simp [addToken, List.findIdx?_cons, hn, h, hw]

theorem addToken_cons_of_none {l : String} (h : valueIn? name l = none) (env : Lines)
    (token : String) : (addToken (l :: env) name token).1 = l :: (addToken env name token).1 := by
  have hn : isNamed name l = false := by simp [isNamed, h]
  unfold addToken
  rw [List.findIdx?_cons, hn]
  cases hi : env.findIdx? (isNamed name) with
  | none => simp
  | some i =>
    simp only [Bool.false_eq_true, if_false, Option.map_some, List.getElem?_cons_succ]
    cases (env[i]?.bind (valueIn? name)).bind (withToken · token) <;> simp

/-- The first value of the name gets the token, or the token alone becomes its value. -/
theorem get?_addToken (h : IsName name) (env : Lines) (token : String) :
    get? (addToken env name token).1 name =
      some ((get? env name).elim token fun value => (withToken value token).getD value) := by
  induction env with
  | nil => exact get?_cons_of_some (valueIn?_line h token) []
  | cons l env ih =>
    cases hl : valueIn? name l with
    | none => rw [addToken_cons_of_none hl, get?_cons_of_none hl, get?_cons_of_none hl, ih]
    | some value =>
      rw [addToken_cons_of_some hl, get?_cons_of_some hl, Option.elim_some]
      cases withToken value token with
      | none => rw [Option.elim_none, get?_cons_of_some hl, Option.getD_none]
      | some new =>
        rw [Option.elim_some, get?_cons_of_some (valueIn?_line h new), Option.getD_some]

theorem get?_addToken_of_ne (h : IsName name) (hne : name ≠ other) (env : Lines) (token : String) :
    get? (addToken env name token).1 other = get? env other := by
  induction env with
  | nil => exact get?_cons_of_none (valueIn?_line_of_ne h hne token) []
  | cons l env ih =>
    cases hl : valueIn? name l with
    | none =>
      rw [addToken_cons_of_none hl]
      cases hv : valueIn? other l with
      | some v => rw [get?_cons_of_some hv, get?_cons_of_some hv]
      | none => rw [get?_cons_of_none hv, get?_cons_of_none hv, ih]
    | some value =>
      have hn : valueIn? other l = none := valueIn?_eq_none_of_ne (by simp [isNamed, hl]) hne
      rw [addToken_cons_of_some hl, get?_cons_of_none hn]
      cases withToken value token with
      | none => rw [Option.elim_none, get?_cons_of_none hn]
      | some new => rw [Option.elim_some, get?_cons_of_none (valueIn?_line_of_ne h hne new)]

theorem isNamed_line (h : IsName name) (value : String) :
    isNamed name (line name value) = true := by
  rw [isNamed, valueIn?_line h, Option.isSome_some]

theorem eq_line_of_mem_set {env : Lines} {value l : String} (hl : l ∈ set env name value)
    (hn : isNamed name l = true) : l = line name value := by
  rw [set_eq_append] at hl
  rcases List.mem_append.mp hl with hl | hl
  · obtain ⟨old, -, rfl⟩ := List.mem_map.mp hl
    by_cases hold : isNamed name old = true
    · exact rewritten_of_named hold value
    · rw [rewritten_of_unnamed hold] at hn
      exact absurd hn hold
  · split at hl
    · cases hl
    · exact List.mem_singleton.mp hl

/-- Once a value was set no line gives another one. -/
theorem eq_of_mem_set (h : IsName name) {env : Lines} {value v l : String}
    (hl : l ∈ set env name value) (hv : valueIn? name l = some v) : v = value := by
  have hn : isNamed name l = true := by rw [isNamed, hv, Option.isSome_some]
  rw [eq_line_of_mem_set hl hn, valueIn?_line h] at hv
  exact (Option.some.inj hv).symm

theorem getElem?_set_of_some {env : Lines} {i : Nat} {l : String} (hl : env[i]? = some l)
    (name value : String) : (set env name value)[i]? = some (rewritten name value l) := by
  have hlt : i < (env.map (rewritten name value)).length := by
    rw [List.length_map]
    exact (List.getElem?_eq_some_iff.mp hl).1
  rw [set_eq_append, List.getElem?_append_left hlt, List.getElem?_map, hl, Option.map_some]

/-- Where there is no other line, there is one with the name. -/
theorem eq_line_of_getElem?_set {env : Lines} {i : Nat} {value l : String} (hnone : env[i]? = none)
    (hl : (set env name value)[i]? = some l) : l = line name value := by
  have hle : (env.map (rewritten name value)).length ≤ i := by
    rw [List.length_map]
    exact List.getElem?_eq_none_iff.mp hnone
  rw [set_eq_append, List.getElem?_append_right hle] at hl
  have hmem := List.mem_of_getElem? hl
  split at hmem
  · cases hmem
  · exact List.mem_singleton.mp hmem

/-- A line without the name is neither written nor moved. -/
theorem getElem?_set_iff (h : IsName name) {l : String} (hl : ¬ isNamed name l = true)
    (env : Lines) (value : String) (i : Nat) :
    (set env name value)[i]? = some l ↔ env[i]? = some l := by
  have hwritten : l ≠ line name value := fun he => hl (he ▸ isNamed_line h value)
  cases hold : env[i]? with
  | none => exact iff_of_false (fun hnew => hwritten (eq_line_of_getElem?_set hold hnew)) nofun
  | some old =>
    rw [getElem?_set_of_some hold, Option.some.injEq, Option.some.injEq]
    by_cases hn : isNamed name old = true
    · rw [rewritten_of_named hn]
      exact iff_of_false hwritten.symm fun he => hl (he ▸ hn)
    · rw [rewritten_of_unnamed hn]

theorem mem_set_iff (h : IsName name) {l : String} (hl : ¬ isNamed name l = true) (env : Lines)
    (value : String) : l ∈ set env name value ↔ l ∈ env := by
  rw [List.mem_iff_getElem?, List.mem_iff_getElem?]
  exact exists_congr (getElem?_set_iff h hl env value)

theorem findIdx?_set_of_ne (h : IsName name) (hne : name ≠ other) {env : Lines}
    (hany : env.any (isNamed name) = true) (value : String) :
    (set env name value).findIdx? (isNamed other) = env.findIdx? (isNamed other) := by
  rw [set_of_any hany, List.findIdx?_map]
  refine congrArg env.findIdx? (funext fun l => ?_)
  exact congrArg Option.isSome (valueIn?_rewritten_of_ne h hne value l)

/-- A token is added behind all lines, or in the first line of the name. -/
theorem addToken_cases (env : Lines) (name token : String) :
    (addToken env name token).1 = env ++ [line name token] ∨ (addToken env name token).1 = env ∨
      ∃ i value, env.findIdx? (isNamed name) = some i ∧
        (addToken env name token).1 = env.set i (line name value) := by
  unfold addToken
  cases hi : env.findIdx? (isNamed name) with
  | none => exact .inl rfl
  | some i =>
    dsimp only
    cases (env[i]?.bind (valueIn? name)).bind (withToken · token) with
    | none => exact .inr (.inl rfl)
    | some value => exact .inr (.inr ⟨i, value, rfl, rfl⟩)

theorem length_addToken (env : Lines) (name token : String) :
    env.length ≤ (addToken env name token).1.length ∧
      (addToken env name token).1.length ≤ env.length + 1 := by
  rcases addToken_cases env name token with he | he | ⟨i, value, -, he⟩
  · rw [he, List.length_append, List.length_singleton]
    omega
  · rw [he]
    omega
  · rw [he, List.length_set]
    omega

/-- Each line stays where it is, but for the one that takes the token. -/
theorem getElem?_addToken {env : Lines} {i : Nat} {l : String} (hl : env[i]? = some l)
    (name token : String) : (addToken env name token).1[i]? = some l ∨
      ∃ value, env.findIdx? (isNamed name) = some i ∧
        (addToken env name token).1[i]? = some (line name value) := by
  have hlt : i < env.length := (List.getElem?_eq_some_iff.mp hl).1
  rcases addToken_cases env name token with he | he | ⟨j, value, hj, he⟩
  · left
    rw [he, List.getElem?_append_left hlt, hl]
  · left
    rw [he, hl]
  · by_cases hij : j = i
    · subst hij
      right
      exact ⟨value, hj, by rw [he, List.getElem?_set_self hlt]⟩
    · left
      rw [he, List.getElem?_set_ne hij, hl]

theorem mem_addToken {env : Lines} {token l : String} (hl : l ∈ (addToken env name token).1) :
    l ∈ env ∨ ∃ value, l = line name value := by
  rcases addToken_cases env name token with he | he | ⟨i, value, -, he⟩
  · rw [he] at hl
    rcases List.mem_append.mp hl with hl | hl
    · exact .inl hl
    · exact .inr ⟨token, List.mem_singleton.mp hl⟩
  · exact .inl (he ▸ hl)
  · rw [he] at hl
    rcases List.mem_or_eq_of_mem_set hl with hl | hl
    · exact .inl hl
    · exact .inr ⟨value, hl⟩

/-- Setting a value takes a line of its own where the name has none. -/
theorem length_set_eq (env : Lines) (name value : String) :
    (set env name value).length = env.length + if env.any (isNamed name) then 0 else 1 := by
  rw [set_eq_append, List.length_append, List.length_map]
  split <;> rfl

theorem length_set {env : Lines} (hany : env.any (isNamed name) = true) (value : String) :
    (set env name value).length = env.length := by
  rw [length_set_eq, hany, if_pos rfl, Nat.add_zero]

theorem any_set_of_ne (h : IsName name) (hne : name ≠ other) {env : Lines}
    (hany : env.any (isNamed name) = true) (value : String) :
    (set env name value).any (isNamed other) = env.any (isNamed other) := by
  rw [← List.findIdx?_isSome, findIdx?_set_of_ne h hne hany, List.findIdx?_isSome]

/-- A token takes a line of its own where the name has none. -/
theorem length_addToken_eq (env : Lines) (name token : String) :
    (addToken env name token).1.length =
      env.length + if env.any (isNamed name) then 0 else 1 := by
  rw [← List.findIdx?_isSome]
  unfold addToken
  cases hi : env.findIdx? (isNamed name) with
  | none => simp
  | some i =>
    dsimp only
    cases (env[i]?.bind (valueIn? name)).bind (withToken · token) with
    | none => rfl
    | some value => exact List.length_set

theorem mem_addToken_iff (h : IsName name) {l : String} (hl : ¬ isNamed name l = true) (env : Lines)
    (token : String) : l ∈ (addToken env name token).1 ↔ l ∈ env := by
  have hwritten (value : String) : l ≠ line name value := fun he =>
    hl (he ▸ isNamed_line h value)
  induction env with
  | nil =>
    rw [addToken_nil, List.mem_singleton]
    exact iff_of_false (hwritten token) List.not_mem_nil
  | cons first env ih =>
    cases hf : valueIn? name first with
    | none =>
      rw [addToken_cons_of_none hf, List.mem_cons, List.mem_cons]
      exact or_congr_right ih
    | some value =>
      have hfirst : l ≠ first := by
        rintro rfl
        simp [isNamed, hf] at hl
      rw [addToken_cons_of_some hf, List.mem_cons, List.mem_cons]
      cases withToken value token with
      | none => rfl
      | some new => simp [hwritten new, hfirst]

end NpuRuntime.Environment
