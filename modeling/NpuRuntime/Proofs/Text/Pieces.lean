import Mathlib.Data.List.TakeWhile
import NpuRuntime.Text.Basic

/-! # Trimmed and cut text
What trimming, cutting and decimal numbers do to each other. A separator that is no blank can be
looked for before or after trimming. -/
namespace NpuRuntime.Text

theorem trimChars_append_left {a l : List Char} (h : ∀ c ∈ a, isBlank c = true) :
    trimChars (a ++ l) = trimChars l := by
  have ha : a.dropWhile isBlank = [] := List.dropWhile_eq_nil_iff.mpr h
  rw [trimChars, trimChars, List.dropWhile_append, ha]
  simp

theorem trimChars_append_right {l b : List Char} (h : ∀ c ∈ b, isBlank c = true) :
    trimChars (l ++ b) = trimChars l := by
  have hb : b.dropWhile isBlank = [] := List.dropWhile_eq_nil_iff.mpr h
  have hr : b.reverse.dropWhile isBlank = [] :=
    List.dropWhile_eq_nil_iff.mpr fun c hc => h c (List.mem_reverse.mp hc)
  rw [trimChars, trimChars, List.dropWhile_append]
  split
  · next he => simp [hb, List.isEmpty_iff.mp he]
  · rw [List.reverse_append, List.dropWhile_append, hr]
    simp

/-- Trimming takes blanks off both ends. -/
theorem exists_trimChars (l : List Char) : ∃ a b : List Char,
    l = a ++ (trimChars l ++ b) ∧ (∀ c ∈ a, isBlank c = true) ∧ ∀ c ∈ b, isBlank c = true := by
  let m := l.dropWhile isBlank
  refine ⟨l.takeWhile isBlank, (m.reverse.takeWhile isBlank).reverse, ?_, ?_, ?_⟩
  · have hm : trimChars l ++ (m.reverse.takeWhile isBlank).reverse = m := by
      rw [trimChars, ← List.reverse_append, List.takeWhile_append_dropWhile, List.reverse_reverse]
    rw [hm]
    exact List.takeWhile_append_dropWhile.symm
  · exact fun c hc => List.mem_takeWhile_imp hc
  · exact fun c hc => List.mem_takeWhile_imp (List.mem_reverse.mp hc)

theorem trimChars_eq_self {l : List Char} (h : ∀ c ∈ l, isBlank c = false) : trimChars l = l := by
  have hd : ∀ k : List Char, (∀ c ∈ k, isBlank c = false) → k.dropWhile isBlank = k := by
    intro k hk
    cases k with
    | nil => rfl
    | cons c k => simp [hk c (by simp)]
  have hr := hd l.reverse fun c hc => h c (List.mem_reverse.mp hc)
  rw [trimChars, hd l h, hr, List.reverse_reverse]

theorem trim_eq_self {s : String} (h : ∀ c ∈ s.toList, isBlank c = false) : trim s = s := by
  rw [trim, trimChars_eq_self h, String.ofList_toList]

theorem splitOn_append_left {sep : Char} {a : List Char} (h : sep ∉ a) (l : List Char) :
    (a ++ l).splitOn sep = (l.splitOn sep).modifyHead (a ++ ·) := by
  induction a with
  | nil => cases hl : l.splitOn sep <;> simp [hl]
  | cons c a ih =>
    have hc : (c == sep) = false := by simpa using fun e : c = sep => h (by simp [e])
    rw [List.cons_append, List.splitOn_cons_eq_if_modifyHead, hc,
      ih fun hm => h (List.mem_cons_of_mem c hm)]
    cases l.splitOn sep <;> simp

/-- What is added behind a text without a separator belongs to its last piece. -/
theorem splitOn_append_right {sep : Char} {b : List Char} (h : sep ∉ b) (l : List Char) :
    ∃ front last, l.splitOn sep = front ++ [last] ∧
      (l ++ b).splitOn sep = front ++ [last ++ b] := by
  induction l with
  | nil => exact ⟨[], [], by simp, by simp [List.splitOn_eq_singleton h]⟩
  | cons c l ih =>
    obtain ⟨front, last, hl, hb⟩ := ih
    rw [List.cons_append, List.splitOn_cons_eq_if_modifyHead, List.splitOn_cons_eq_if_modifyHead,
      hl, hb]
    by_cases hc : (c == sep) = true
    · exact ⟨[] :: front, last, by simp [hc], by simp [hc]⟩
    · cases front with
      | nil => exact ⟨[], c :: last, by simp [hc], by simp [hc]⟩
      | cons p front => exact ⟨(c :: p) :: front, last, by simp [hc], by simp [hc]⟩

/-- The trimmed pieces of a text do not depend on the blanks around it. -/
theorem map_trim_pieces_trim {sep : Char} (h : isBlank sep = false) (s : String) :
    (pieces sep (trim s)).map trim = (pieces sep s).map trim := by
  obtain ⟨a, b, hs, ha, hb⟩ := exists_trimChars s.toList
  have hna : sep ∉ a := fun hm => by simp [ha sep hm] at h
  have hnb : sep ∉ b := fun hm => by simp [hb sep hm] at h
  obtain ⟨front, last, hl, hlb⟩ := splitOn_append_right hnb (trimChars s.toList)
  have hsplit : s.toList.splitOn sep = (front ++ [last ++ b]).modifyHead (a ++ ·) := by
    rw [← hlb, ← splitOn_append_left hna, ← hs]
  simp only [pieces, trim, String.toList_ofList, List.map_map, hl, hsplit]
  cases front <;> simp [trim, trimChars_append_left ha, trimChars_append_right hb]

theorem pieces_append (sep : Char) (s t : String) :
    pieces sep (s ++ String.ofList [sep] ++ t) = pieces sep s ++ pieces sep t := by
  simp [pieces, List.splitOn_append_cons_self]

theorem pieces_of_not_mem {sep : Char} {s : String} (h : sep ∉ s.toList) : pieces sep s = [s] := by
  simp [pieces, List.splitOn_eq_singleton h]

theorem not_mem_of_mem_splitOn {sep : Char} {l part : List Char} (h : part ∈ l.splitOn sep) :
    sep ∉ part := by
  induction l generalizing part with
  | nil =>
    rw [List.splitOn_nil, List.mem_singleton] at h
    rw [h]
    exact List.not_mem_nil
  | cons c l ih =>
    rw [List.splitOn_cons_eq_if_modifyHead] at h
    split at h
    · rcases List.mem_cons.mp h with rfl | h
      · exact List.not_mem_nil
      · exact ih h
    · next hc =>
      cases hl : l.splitOn sep with
      | nil => exact absurd hl (List.splitOn_ne_nil sep l)
      | cons first rest =>
        rw [hl] at ih h
        rcases List.mem_cons.mp h with rfl | h
        · intro hm
          rcases List.mem_cons.mp hm with rfl | hm
          · exact hc (beq_self_eq_true sep)
          · exact ih List.mem_cons_self hm
        · exact ih (List.mem_cons_of_mem first h)

theorem not_mem_of_mem_pieces {sep : Char} {s part : String} (h : part ∈ pieces sep s) :
    sep ∉ part.toList := by
  obtain ⟨l, hl, rfl⟩ := List.mem_map.mp h
  rw [String.toList_ofList]
  exact not_mem_of_mem_splitOn hl

theorem pieces_join {sep : Char} {parts : List String} (hsep : ∀ p ∈ parts, sep ∉ p.toList)
    (hne : parts ≠ []) : pieces sep (join sep parts) = parts := by
  have hplain : ∀ l ∈ parts.map String.toList, sep ∉ l := by
    intro l hl
    obtain ⟨p, hp, rfl⟩ := List.mem_map.mp hl
    exact hsep p hp
  have hsome : parts.map String.toList ≠ [] := by simpa using hne
  rw [pieces, join, String.toList_ofList, List.splitOn_intercalate sep hplain hsome,
    List.map_map]
  exact List.map_id'' (fun p => String.ofList_toList) parts

theorem join_cons_cons (sep : Char) (first second : String) (rest : List String) :
    join sep (first :: second :: rest) =
      first ++ String.ofList [sep] ++ join sep (second :: rest) := by
  apply String.toList_injective
  simp [join, List.intercalate]

theorem cut?_append {sep : Char} {s : String} (h : sep ∉ s.toList) (t : String) :
    cut? sep (s ++ String.ofList [sep] ++ t) = some (s, t) := by
  have hs : ∀ c ∈ s.toList, (c != sep) = true := by
    intro c hc
    simpa using fun e : c = sep => h (e ▸ hc)
  have hd : s.toList.dropWhile (· != sep) = [] := List.dropWhile_eq_nil_iff.mpr hs
  have ht : s.toList.takeWhile (· != sep) = s.toList := List.takeWhile_eq_self_iff.mpr hs
  simp [cut?, List.dropWhile_append, List.takeWhile_append, hd, ht]

theorem cut?_eq_some_iff {sep : Char} {s left right : String} :
    cut? sep s = some (left, right) ↔
      s = left ++ String.ofList [sep] ++ right ∧ sep ∉ left.toList := by
  constructor
  · intro hcut
    unfold cut? at hcut
    split at hcut
    · cases hcut
    · next found rest hrest =>
      obtain ⟨rfl, rfl⟩ := Prod.mk.inj (Option.some.inj hcut)
      -- The search stops at a separator and at nothing else.
      have hfound : found = sep := by
        have hstop := List.head?_dropWhile_not (· != sep) s.toList
        simpa [hrest] using hstop
      have hsplit := List.takeWhile_append_dropWhile (p := (· != sep)) (l := s.toList)
      rw [hrest, hfound] at hsplit
      refine ⟨?_, ?_⟩
      · apply String.toList_injective
        simpa using hsplit.symm
      · intro hmem
        rw [String.toList_ofList] at hmem
        have hne := List.mem_takeWhile_imp hmem
        simp at hne
  · rintro ⟨rfl, hleft⟩
    exact cut?_append hleft right

theorem digits?_toDigits (n : Nat) : digits? (Nat.toDigits 10 n) = some n := by
  have hd : (Nat.toDigits 10 n).all Char.isDigit = true :=
    List.all_eq_true.mpr fun c hc => Nat.isDigit_of_mem_toDigits (by decide) (by decide) hc
  have hn : (Nat.toDigits 10 n).isEmpty = false := by simp [Nat.toDigits_ne_nil]
  simp [digits?, hd, hn, Nat.ofDigitChars_ten_toDigits]

theorem isDigit_of_mem_toString {n : Nat} {c : Char} (h : c ∈ (toString n).toList) :
    c.isDigit = true := by
  rw [Nat.toString_eq_ofList_toDigits, String.toList_ofList] at h
  exact Nat.isDigit_of_mem_toDigits (by decide) (by decide) h

theorem natural?_toString (n : Nat) : natural? (toString n) = some n := by
  rw [natural?, Nat.toString_eq_ofList_toDigits, String.toList_ofList, digits?_toDigits]

theorem word?_toString_eq (n : Nat) :
    word? (toString n) = (some n).filter (· < UInt32.size) := by
  have hd := digits?_toDigits n
  rw [word?, Nat.toString_eq_ofList_toDigits, String.toList_ofList]
  split
  · next rest he =>
    have := Nat.isDigit_of_mem_toDigits (b := 10) (by decide) (by decide) (he ▸ List.mem_cons_self)
    simp at this
  · rw [hd]

theorem word?_toString {n : Nat} (h : n < UInt32.size) : word? (toString n) = some n := by
  rw [word?_toString_eq, Option.filter_some, if_pos (decide_eq_true h)]

theorem eq_of_word?_toString {n m : Nat} (h : word? (toString n) = some m) : m = n := by
  rw [word?_toString_eq, Option.filter_eq_some_iff] at h
  exact (Option.some.inj h.1).symm

theorem isBlank_of_isDigit {c : Char} (h : c.isDigit = true) : isBlank c = false := by
  have digits : ∀ n ∈ List.range' 48 10, blankBounds.countP (· ≤ n) % 2 = 0 := by decide
  simp only [Char.isDigit, Bool.and_eq_true, decide_eq_true_eq] at h
  have hn : c.toNat ∈ List.range' 48 10 := List.mem_range'_1.mpr ⟨h.1, Nat.lt_succ_of_le h.2⟩
  simp [isBlank, within, digits c.toNat hn]

theorem toString_ne_empty (n : Nat) : toString n ≠ "" := by
  intro h
  have := natural?_toString n
  rw [h] at this
  simp [natural?_empty] at this

end NpuRuntime.Text
