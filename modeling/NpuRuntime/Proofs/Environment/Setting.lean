import NpuRuntime.Proofs.Environment.Laws

/-! # Lines by their keys
A line has the key in front of its first equals sign, blanks around it left out. Setting a value
rewrites each line with the key where it stands, adds one only if there was none, and leaves all
other lines alone. -/
namespace NpuRuntime.Environment

variable {env : Lines} {name value l : String}

/-- The value of a line behind its first equals sign, and the key in front of it. -/
def Reads (l key value : String) : Prop :=
  ∃ left, l = line left value ∧ '=' ∉ left.toList ∧ Text.trim left = key

/-- A line without an equals sign has no key. -/
def HasKey (l key : String) : Prop := ∃ value, Reads l key value

theorem valueIn?_eq_some_iff : valueIn? name l = some value ↔ Reads l name value := by
  rw [valueIn?, Option.bind_eq_some_iff]
  constructor
  · rintro ⟨⟨left, right⟩, hcut, hvalue⟩
    obtain ⟨hl, hleft⟩ := Text.cut?_eq_some_iff.mp hcut
    obtain ⟨hname, hright⟩ := Option.ite_none_right_eq_some.mp hvalue
    cases hright
    exact ⟨left, hl, hleft, hname⟩
  · rintro ⟨left, hl, hleft, hname⟩
    exact ⟨(left, value), Text.cut?_eq_some_iff.mpr ⟨hl, hleft⟩, if_pos hname⟩

theorem isNamed_iff_hasKey : isNamed name l = true ↔ HasKey l name := by
  rw [isNamed, Option.isSome_iff_exists]
  exact exists_congr fun value => valueIn?_eq_some_iff

/-- The lines `after` are those of `env` with this value under the name, and are alike in
everything else. -/
structure Gives (env : Lines) (name value : String) (after : Lines) : Prop where
  found : get? after name = some value
  written : ∀ l ∈ after, HasKey l name → l = line name value
  rewritten : ∀ (i : Nat) (l : String), env[i]? = some l → HasKey l name →
    after[i]? = some (line name value)
  kept : ∀ (i : Nat) (l : String), ¬ HasKey l name → (after[i]? = some l ↔ env[i]? = some l)
  length : after.length = env.length ∨ after.length = env.length + 1
  grows : after.length = env.length + 1 ↔ ∀ l ∈ env, ¬ HasKey l name
  others : ∀ other, other ≠ name → get? after other = get? env other
  again : set after name value = after

theorem length_set_eq_iff (env : Lines) (name value : String) :
    (set env name value).length = env.length + 1 ↔ ∀ l ∈ env, ¬ HasKey l name := by
  have hnone : env.any (isNamed name) = false ↔ ∀ l ∈ env, ¬ HasKey l name := by
    rw [List.any_eq_false]
    exact forall₂_congr fun l _ => not_congr isNamed_iff_hasKey
  rw [length_set_eq, ← hnone]
  cases env.any (isNamed name) <;> simp

/-- The lines that were written are written as they are. -/
theorem set_set (hn : IsName name) (env : Lines) (value : String) :
    set (set env name value) name value = set env name value := by
  have hany : (set env name value).any (isNamed name) = true := by
    rw [any_isNamed, get?_set hn, Option.isSome_some]
  have hsame : ∀ l ∈ set env name value, rewritten name value l = l := by
    intro l hl
    by_cases hk : isNamed name l = true
    · rw [rewritten_of_named hk, eq_line_of_mem_set hl hk]
    · exact rewritten_of_unnamed hk value
  rw [set_of_any hany, List.map_congr_left hsame, List.map_id']

theorem gives_set (hn : IsName name) (env : Lines) (value : String) :
    Gives env name value (set env name value) where
  found := get?_set hn env value
  written l hl hk := eq_line_of_mem_set hl (isNamed_iff_hasKey.mpr hk)
  rewritten i l hl hk := by
    rw [getElem?_set_of_some hl, rewritten_of_named (isNamed_iff_hasKey.mpr hk)]
  kept i l hl := getElem?_set_iff hn (isNamed_iff_hasKey.not.mpr hl) env value i
  length := by
    rw [length_set_eq]
    split
    · exact .inl rfl
    · exact .inr rfl
  grows := length_set_eq_iff env name value
  others other hne := get?_set_of_ne hn hne.symm env value
  again := set_set hn env value

/-- Padded keys, a second line with the key, lines without one, and values with equals signs. -/
def padded : Lines := [" A=1", "A", "B=A=2", "A\t==3", "=A", "B=4"]

theorem gives_set_padded :
    IsName "A" ∧ Gives padded "A" "x=y" ["A=x=y", "A", "B=A=2", "A=x=y", "=A", "B=4"] := by
  have hname : IsName "A" := ⟨by decide, by decide⟩
  have hset : set padded "A" "x=y" = ["A=x=y", "A", "B=A=2", "A=x=y", "=A", "B=4"] := by
    decide +kernel
  exact ⟨hname, hset ▸ gives_set hname padded "x=y"⟩

end NpuRuntime.Environment
