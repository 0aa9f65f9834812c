import NpuRuntime.Environment
import NpuRuntime.Proofs.Text.Pieces
import NpuRuntime.Selection.Options

/-! # Options with one more token
A text that reads as options still does after a token was added to it, unless it has grown too
long. What is added is then the only change. -/
namespace NpuRuntime.RuntimeOptions

theorem mem_add {x y : RuntimeOption} {o : RuntimeOptions} :
    x ∈ (o.add y).list ↔ x ∈ o.list ∨ x = y := by
  unfold add
  split
  · next h =>
    refine ⟨Or.inl, ?_⟩
    rintro (hx | rfl)
    · exact hx
    · simpa using h
  · simp

theorem mem_foldl_add {x : RuntimeOption} {xs : List RuntimeOption} {o : RuntimeOptions} :
    x ∈ (xs.foldl add o).list ↔ x ∈ o.list ∨ x ∈ xs := by
  induction xs generalizing o with
  | nil => simp
  | cons y xs ih => rw [List.foldl_cons, ih, mem_add, List.mem_cons, or_assoc]

theorem isVirtual_iff {o : RuntimeOptions} : o.isVirtual = true ↔ .virtual ∈ o.list := by
  simp [isVirtual]

theorem isVirtual_eq_false {o : RuntimeOptions} : o.isVirtual = false ↔ .virtual ∉ o.list := by
  simp [isVirtual]

theorem eq_name_of_ofName {s : String} {x : RuntimeOption} (h : RuntimeOption.ofName s = .ok x) :
    s = x.name := by
  unfold RuntimeOption.ofName at h
  split at h <;> cases h <;> rfl

theorem mapM_ofName_eq_ok {names : List String} {xs : List RuntimeOption} :
    names.mapM RuntimeOption.ofName = .ok xs ↔ names = xs.map RuntimeOption.name := by
  induction names generalizing xs with
  | nil => simp [pure, Except.pure, eq_comm]
  | cons name names ih =>
    rw [List.mapM_cons]
    constructor
    · intro h
      cases hx : RuntimeOption.ofName name with
      | error f => simp [hx, bind, Except.bind] at h
      | ok x =>
        cases hs : names.mapM RuntimeOption.ofName with
        | error f => simp [hx, hs, bind, Except.bind] at h
        | ok rest =>
          simp only [hx, hs, bind, Except.bind, pure, Except.pure, Except.ok.injEq] at h
          rw [← h, List.map_cons, ← eq_name_of_ofName hx, ← ih.mp hs]
    · intro h
      cases xs with
      | nil => simp at h
      | cons x xs =>
        obtain ⟨rfl, hs⟩ := List.cons.inj h
        rw [RuntimeOption.ofName_name, ih.mpr hs]
        rfl

def namesOf (s : String) : List String := (Text.pieces ',' s).map Text.trim

theorem parse_eq_ok {s : String} {o : RuntimeOptions} (hs : s ≠ "") :
    parse s = .ok o ↔ s.utf8ByteSize ≤ Selection.maxInput ∧
      ∃ xs : List RuntimeOption, namesOf s = xs.map RuntimeOption.name ∧
        o = xs.foldl add empty := by
  have hm : (Text.pieces ',' s).mapM (fun t => RuntimeOption.ofName (Text.trim t)) =
      (namesOf s).mapM RuntimeOption.ofName := by
    rw [namesOf, List.mapM_map]
    rfl
  rw [parse, if_neg hs, hm, Selection.checkLength]
  by_cases hl : s.utf8ByteSize > Selection.maxInput
  · simp [hl, bind, Except.bind, Nat.not_le.mpr hl]
  · simp only [hl, if_false, Nat.not_lt.mp hl, true_and, ← mapM_ofName_eq_ok]
    cases (namesOf s).mapM RuntimeOption.ofName <;>
      simp [bind, Except.bind, pure, Except.pure, eq_comm]

theorem parse_of_long {s : String} (h : Selection.maxInput < s.utf8ByteSize) :
    parse s = .error (.inputTooLong s.utf8ByteSize Selection.maxInput) := by
  have hs : s ≠ "" := by
    rintro rfl
    simp at h
  rw [parse, if_neg hs, Selection.checkLength, if_pos h]
  rfl

/-- A text of options with the name of one more. -/
def extended (s : String) (x : RuntimeOption) : String :=
  if Text.trim s = "" then x.name else Text.trim s ++ "," ++ x.name

theorem name_injective {x y : RuntimeOption} (h : x.name = y.name) : x = y := by
  cases x <;> cases y <;> first | rfl | exact absurd h (by decide)

theorem namesOf_trim (s : String) : namesOf (Text.trim s) = namesOf s :=
  Text.map_trim_pieces_trim (by decide) s

theorem namesOf_name (x : RuntimeOption) : namesOf x.name = [x.name] := by
  cases x <;> decide

/-- Only the empty text stands for options without naming any. -/
theorem trim_ne_empty_of_parse {s : String} {o : RuntimeOptions} (h : parse s = .ok o)
    (hs : s ≠ "") : Text.trim s ≠ "" := by
  intro ht
  obtain ⟨-, xs, hn, -⟩ := (parse_eq_ok hs).mp h
  rw [← namesOf_trim, ht] at hn
  have he : [""] = xs.map RuntimeOption.name := hn
  cases xs with
  | nil => simp at he
  | cons x xs => cases x <;> exact absurd (List.cons.inj he).1 (by decide)

theorem withToken_of_parse {s : String} {o : RuntimeOptions} {x : RuntimeOption}
    (h : parse s = .ok o) (hx : x ∉ o.list) :
    Environment.withToken s x.name = some (extended s x) := by
  have hn : x.name ∉ namesOf (Text.trim s) := by
    by_cases hs : s = ""
    · subst hs
      cases x <;> decide
    · obtain ⟨-, xs, hn, rfl⟩ := (parse_eq_ok hs).mp h
      rw [namesOf_trim, hn]
      intro hm
      obtain ⟨y, hy, he⟩ := List.mem_map.mp hm
      exact hx (mem_foldl_add.mpr (.inr (name_injective he ▸ hy)))
  have ha : ((Text.pieces ',' (Text.trim s)).any fun t => Text.trim t = x.name) = false := by
    rw [List.any_eq_false]
    intro t ht he
    exact hn (of_decide_eq_true he ▸ List.mem_map_of_mem ht)
  simp only [Environment.withToken, ha, extended, Bool.false_eq_true, if_false]
  split <;> rfl

theorem parse_extended {s : String} {o : RuntimeOptions} {x : RuntimeOption}
    (h : parse s = .ok o) (hl : (extended s x).utf8ByteSize ≤ Selection.maxInput) :
    parse (extended s x) = .ok (o.add x) := by
  by_cases hs : s = ""
  · subst hs
    cases h
    cases x <;> decide
  · have ht := trim_ne_empty_of_parse h hs
    obtain ⟨-, xs, hn, rfl⟩ := (parse_eq_ok hs).mp h
    rw [extended, if_neg ht] at hl ⊢
    refine (parse_eq_ok (by simp [ht])).mpr ⟨hl, xs ++ [x], ?_, by simp⟩
    have hp : namesOf (Text.trim s ++ "," ++ x.name) = namesOf (Text.trim s) ++ namesOf x.name := by
      simp only [namesOf, ← List.map_append]
      exact congrArg _ (Text.pieces_append ',' _ _)
    rw [hp, namesOf_trim, namesOf_name, hn, List.map_append, List.map_singleton]

/-- The text grows by the name and a separator. -/
theorem size_extended {s : String} (hs : Text.trim s ≠ "") (x : RuntimeOption) :
    (extended s x).utf8ByteSize = (Text.trim s).utf8ByteSize + (x.name.utf8ByteSize + 1) := by
  have hc : ",".utf8ByteSize = 1 := by decide
  rw [extended, if_neg hs, String.utf8ByteSize_append, String.utf8ByteSize_append, hc]
  omega

theorem size_extended_le (s : String) (x : RuntimeOption) :
    (extended s x).utf8ByteSize ≤ (Text.trim s).utf8ByteSize + (x.name.utf8ByteSize + 1) := by
  by_cases hs : Text.trim s = ""
  · rw [extended, if_pos hs]
    omega
  · exact Nat.le_of_eq (size_extended hs x)

end NpuRuntime.RuntimeOptions
