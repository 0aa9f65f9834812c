import NpuRuntime.Proofs.Environment.Laws

/-! # The lines that are read
Most lines of an environment mean nothing here. What is looked up, set or extended under a name is
the same if lines without that name are left out before or afterwards. -/
namespace NpuRuntime.Environment

/-- All lines of this name are among those kept. -/
def Sees (kept : String → Bool) (name : String) : Prop :=
  ∀ l, isNamed name l = true → kept l = true

variable {name : String} {kept : String → Bool}

theorem Sees.valueIn?_eq_none (hk : Sees kept name) {l : String} (hl : ¬ kept l = true) :
    valueIn? name l = none := by
  cases hv : valueIn? name l with
  | none => rfl
  | some value => exact absurd (hk l (by rw [isNamed, hv, Option.isSome_some])) hl

theorem get?_filter (hk : Sees kept name) (env : Lines) :
    get? (env.filter kept) name = get? env name := by
  induction env with
  | nil => rfl
  | cons l env ih =>
    by_cases hl : kept l = true
    · rw [List.filter_cons_of_pos hl]
      cases hv : valueIn? name l with
      | some value => rw [get?_cons_of_some hv, get?_cons_of_some hv]
      | none => rw [get?_cons_of_none hv, get?_cons_of_none hv, ih]
    · rw [List.filter_cons_of_neg hl, get?_cons_of_none (hk.valueIn?_eq_none hl), ih]

theorem any_filter (hk : Sees kept name) (env : Lines) :
    (env.filter kept).any (isNamed name) = env.any (isNamed name) := by
  rw [any_isNamed, any_isNamed, get?_filter hk]

/-- A line that takes the place of one with its name is kept with it. -/
theorem filter_set (h : IsName name) (hk : Sees kept name) {env : Lines}
    (hany : env.any (isNamed name) = true) (value : String) :
    (set env name value).filter kept = set (env.filter kept) name value := by
  have hany' : (env.filter kept).any (isNamed name) = true := by rw [any_filter hk, hany]
  rw [set_of_any hany, set_of_any hany', List.filter_map]
  congr 1
  refine List.filter_congr fun l _ => ?_
  rw [Function.comp_apply]
  by_cases hl : isNamed name l = true
  · rw [rewritten_of_named hl, hk l hl, hk _ (isNamed_line h value)]
  · rw [rewritten_of_unnamed hl]

theorem filter_addToken (h : IsName name) (hk : Sees kept name) (env : Lines) (token : String) :
    (addToken env name token).1.filter kept = (addToken (env.filter kept) name token).1 := by
  have hline (value : String) : kept (line name value) = true := hk _ (isNamed_line h value)
  induction env with
  | nil => exact List.filter_cons_of_pos (hline token)
  | cons l env ih =>
    cases hv : valueIn? name l with
    | none =>
      rw [addToken_cons_of_none hv]
      by_cases hl : kept l = true
      · rw [List.filter_cons_of_pos hl, List.filter_cons_of_pos hl, addToken_cons_of_none hv, ih]
      · rw [List.filter_cons_of_neg hl, List.filter_cons_of_neg hl, ih]
    | some value =>
      have hl : kept l = true := hk l (by rw [isNamed, hv, Option.isSome_some])
      rw [addToken_cons_of_some hv, List.filter_cons_of_pos hl, addToken_cons_of_some hv]
      cases withToken value token with
      | none => exact List.filter_cons_of_pos hl
      | some new => exact List.filter_cons_of_pos (hline new)

theorem contains_filter {l : String} (hl : kept l = true) (env : Lines) :
    (env.filter kept).contains l = env.contains l := by
  rw [Bool.eq_iff_iff, List.contains_iff_mem, List.contains_iff_mem, List.mem_filter]
  exact and_iff_left hl

/-- A token stands in a line that was there, or in one of its own behind all others. -/
theorem addToken_eq_append (env : Lines) (name token : String) : ∃ old,
    old.length = env.length ∧ (addToken env name token).1 =
      old ++ if env.any (isNamed name) then [] else [line name token] := by
  have hlength := length_addToken_eq env name token
  rcases hany : env.any (isNamed name) with _ | _
  · refine ⟨env, rfl, ?_⟩
    have hnone : env.findIdx? (isNamed name) = none := by
      rw [← Option.not_isSome_iff_eq_none, List.findIdx?_isSome, hany]
      exact Bool.false_ne_true
    rw [addToken, hnone]
    rfl
  · rw [hany] at hlength
    exact ⟨_, hlength, (List.append_nil _).symm⟩

end NpuRuntime.Environment
