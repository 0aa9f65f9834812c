import NpuRuntime.Proofs.Environment.Setting
import NpuRuntime.Proofs.Selection.Grammar

/-! # Lists with one more token
The value under a name is a comma list. Adding a token puts it behind the tokens that are there,
in the first line with the name and in no other; a list that has the token stays as it is. -/
namespace NpuRuntime.Environment

open Devices (tokens)

variable {env before rest : Lines} {name token value new first : String}

/-- A token that a written list gives back: trimmed, and without a comma. -/
structure IsToken (token : String) : Prop where
  plain : ',' ∉ token.toList
  trimmed : Text.trim token = token

theorem IsToken.tokens_eq (ht : IsToken token) : tokens token = [token] := by
  rw [tokens, Text.pieces_of_not_mem ht.plain, List.map_singleton, ht.trimmed]

theorem tokens_trim (value : String) : tokens (Text.trim value) = tokens value :=
  Text.map_trim_pieces_trim (by decide) value

theorem tokens_append (value other : String) :
    tokens (value ++ "," ++ other) = tokens value ++ tokens other := by
  have hcomma : "," = String.ofList [','] := by decide
  rw [tokens, hcomma, Text.pieces_append, List.map_append]
  rfl

theorem withToken_eq_none_iff : withToken value token = none ↔ token ∈ tokens value := by
  have hmem : ((Text.pieces ',' (Text.trim value)).any fun t => Text.trim t = token) = true ↔
      token ∈ tokens value := by
    rw [← tokens_trim, tokens, List.any_eq_true, List.mem_map]
    simp only [decide_eq_true_eq]
  rw [← hmem, withToken]
  split
  · next hthere => exact iff_of_true rfl hthere
  · next hmissing =>
    refine iff_of_false ?_ hmissing
    split <;> exact Option.some_ne_none _

/-- The new token stands behind the old ones; of a blank value nothing is left. -/
theorem tokens_of_withToken (ht : IsToken token) (h : withToken value token = some new) :
    tokens new = (if Text.trim value = "" then [] else tokens value) ++ [token] := by
  have hmissing : ¬ token ∈ tokens value := by
    rw [← withToken_eq_none_iff, h]
    exact Option.some_ne_none new
  simp only [withToken] at h
  split at h
  · cases h
  · split at h
    · next hblank =>
      cases h
      rw [if_pos hblank, ht.tokens_eq, List.nil_append]
    · next hfull =>
      cases h
      rw [if_neg hfull, tokens_append, tokens_trim, ht.tokens_eq]

/-- A blank value has no token but an empty one. -/
theorem eq_empty_of_mem_tokens {t : String} (hblank : Text.trim value = "")
    (ht : t ∈ tokens value) : t = "" := by
  rw [← tokens_trim, hblank] at ht
  have hempty : tokens "" = [""] := by decide
  rw [hempty] at ht
  exact List.mem_singleton.mp ht

theorem valueIn?_eq_none_of_not_hasKey (h : ¬ HasKey first name) : valueIn? name first = none := by
  rwa [← isNamed_iff_hasKey, isNamed, Option.not_isSome_iff_eq_none] at h

theorem addToken_append (h : ∀ l ∈ before, ¬ HasKey l name) (env : Lines) (token : String) :
    (addToken (before ++ env) name token).1 = before ++ (addToken env name token).1 := by
  induction before with
  | nil => rfl
  | cons l before ih =>
    obtain ⟨hl, hbefore⟩ := List.forall_mem_cons.mp h
    rw [List.cons_append, addToken_cons_of_none (valueIn?_eq_none_of_not_hasKey hl), ih hbefore,
      List.cons_append]

/-- The value under a name is that of its first line. -/
theorem get?_eq_bind_findIdx? (env : Lines) (name : String) :
    get? env name = (env.findIdx? (isNamed name)).bind fun i => env[i]?.bind (valueIn? name) := by
  induction env with
  | nil => rfl
  | cons l env ih =>
    cases hl : valueIn? name l with
    | some value =>
      have hn : isNamed name l = true := by rw [isNamed, hl, Option.isSome_some]
      simp [get?_cons_of_some hl, List.findIdx?_cons, hn, hl]
    | none =>
      have hn : isNamed name l = false := by rw [isNamed, hl, Option.isSome_none]
      rw [get?_cons_of_none hl, ih, List.findIdx?_cons, hn]
      cases env.findIdx? (isNamed name) <;> simp

/-- The tokens of the comma list under a name. -/
def listed (env : Lines) (name : String) : List String := (get? env name).elim [] tokens

/-- A token that is there is not added, and nothing is told of it. -/
theorem addToken_of_mem (h : token ∈ listed env name) : addToken env name token = (env, none) := by
  obtain ⟨value, hvalue⟩ : ∃ value, get? env name = some value := by
    rw [← Option.isSome_iff_exists]
    by_contra hnone
    simp [listed, Option.not_isSome_iff_eq_none.mp hnone] at h
  have hstays : withToken value token = none := by
    rw [withToken_eq_none_iff]
    simpa [listed, hvalue] using h
  rw [get?_eq_bind_findIdx?, Option.bind_eq_some_iff] at hvalue
  obtain ⟨i, hi, hl⟩ := hvalue
  simp only [addToken, hi, hl, Option.bind_some, hstays]

/-- The lines `after` are those of `env` with this token in the list under the name, and are alike
in everything else. -/
structure Extends (env : Lines) (name token : String) (after : Lines) : Prop where
  found : token ∈ listed after name
  order : ((listed env name).filter (· ≠ "")).Sublist (listed after name)
  onlyNew : ∀ t ∈ listed after name, t = token ∨ t ∈ listed env name
  firstLine : ∀ before first rest, env = before ++ first :: rest →
    (∀ l ∈ before, ¬ HasKey l name) → HasKey first name → ∃ l, after = before ++ l :: rest
  newLine : (∀ l ∈ env, ¬ HasKey l name) → after = env ++ [line name token]
  others : ∀ other, other ≠ name → get? after other = get? env other
  present : token ∈ listed env name → after = env
  again : addToken after name token = (after, none)

/-- The list stays, the token comes behind it, or the token takes the place of a blank list. -/
theorem listed_addToken_cases (hn : IsName name) (ht : IsToken token) (env : Lines) :
    let after := (addToken env name token).1
    (token ∈ listed env name ∧ listed after name = listed env name) ∨
      listed after name = listed env name ++ [token] ∨
      (∀ t ∈ listed env name, t = "") ∧ listed after name = [token] := by
  simp only [listed, get?_addToken hn, Option.elim_some]
  cases get? env name with
  | none => exact .inr (.inr ⟨by simp, ht.tokens_eq⟩)
  | some value =>
    simp only [Option.elim_some]
    cases hw : withToken value token with
    | none => exact .inl ⟨withToken_eq_none_iff.mp hw, rfl⟩
    | some new =>
      rw [Option.getD_some, tokens_of_withToken ht hw]
      split
      · next hblank => exact .inr (.inr ⟨fun t => eq_empty_of_mem_tokens hblank, rfl⟩)
      · exact .inr (.inl rfl)

theorem mem_listed_addToken (hn : IsName name) (ht : IsToken token) (env : Lines) :
    token ∈ listed (addToken env name token).1 name := by
  obtain ⟨hmem, hlist⟩ | hlist | ⟨-, hlist⟩ := listed_addToken_cases hn ht env
  · rwa [hlist]
  · rw [hlist]
    exact List.mem_append_right _ (List.mem_singleton_self token)
  · rw [hlist]
    exact List.mem_singleton_self token

theorem sublist_listed_addToken (hn : IsName name) (ht : IsToken token) (env : Lines) :
    ((listed env name).filter (· ≠ "")).Sublist (listed (addToken env name token).1 name) := by
  obtain ⟨-, hlist⟩ | hlist | ⟨hempty, hlist⟩ := listed_addToken_cases hn ht env
  · rw [hlist]
    exact List.filter_sublist
  · rw [hlist]
    exact List.filter_sublist.trans (List.sublist_append_left _ _)
  · have hnone : (listed env name).filter (· ≠ "") = [] := by simpa using hempty
    rw [hnone]
    exact List.nil_sublist _

theorem eq_or_mem_of_mem_listed (hn : IsName name) (ht : IsToken token) (env : Lines) {t : String}
    (hmem : t ∈ listed (addToken env name token).1 name) : t = token ∨ t ∈ listed env name := by
  obtain ⟨-, hlist⟩ | hlist | ⟨-, hlist⟩ := listed_addToken_cases hn ht env
  · exact .inr (hlist ▸ hmem)
  · rw [hlist] at hmem
    rcases List.mem_append.mp hmem with hold | hnew
    · exact .inr hold
    · exact .inl (List.mem_singleton.mp hnew)
  · rw [hlist] at hmem
    exact .inl (List.mem_singleton.mp hmem)

theorem extends_addToken (hn : IsName name) (ht : IsToken token) (env : Lines) :
    Extends env name token (addToken env name token).1 where
  found := mem_listed_addToken hn ht env
  order := sublist_listed_addToken hn ht env
  onlyNew _ := eq_or_mem_of_mem_listed hn ht env
  firstLine before first rest henv hbefore hfirst := by
    obtain ⟨value, hvalue⟩ := hfirst
    rw [henv, addToken_append hbefore, addToken_cons_of_some (valueIn?_eq_some_iff.mpr hvalue)]
    exact ⟨_, rfl⟩
  newLine hnone := by
    have hadded := addToken_append hnone [] token
    rwa [List.append_nil] at hadded
  others other hne := get?_addToken_of_ne hn hne.symm env token
  present hmem := congrArg Prod.fst (addToken_of_mem hmem)
  again := addToken_of_mem (mem_listed_addToken hn ht env)

/-- A padded key, an empty token, a token with an equals sign, and a second line with the key. -/
def mingled : Lines := ["B", " A\t= x ,,y=1 ", "A=z", "C=x"]

theorem extends_addToken_mingled : IsName "A" ∧ IsToken "z" ∧
    Extends mingled "A" "z" ["B", "A=x ,,y=1,z", "A=z", "C=x"] := by
  have hname : IsName "A" := ⟨by decide, by decide⟩
  have htoken : IsToken "z" := ⟨by decide, by decide⟩
  have hadd : (addToken mingled "A" "z").1 = ["B", "A=x ,,y=1,z", "A=z", "C=x"] := by
    decide +kernel
  exact ⟨hname, htoken, hadd ▸ extends_addToken hname htoken mingled⟩

end NpuRuntime.Environment
