import Mathlib.Data.List.Sort
import NpuRuntime.Proofs.Fallible
import NpuRuntime.Proofs.Text.Pieces
import NpuRuntime.Selection.Devices

/-! # What selections say
A grammar for the tokens of a selection, and the numbers that each of them stands for. A text is
read exactly if all of its tokens are in the grammar. What is read are the numbers that some token
stands for, so two texts that stand for the same numbers are one selection. -/
namespace NpuRuntime

namespace Text

/-- A run of digits and what it is worth. -/
structure Digits (cs : List Char) (n : Nat) : Prop where
  nonempty : cs ≠ []
  digits : ∀ c ∈ cs, c.isDigit = true
  value : Nat.ofDigitChars 10 cs 0 = n

/-- A number of 32 bits in decimal. A plus sign may lead it, leading zeros count for nothing. -/
structure Numeral (s : String) (n : Nat) : Prop where
  small : n < UInt32.size
  written : Digits s.toList n ∨ ∃ cs, s.toList = '+' :: cs ∧ Digits cs n

theorem digits?_eq_some_iff {cs : List Char} {n : Nat} : digits? cs = some n ↔ Digits cs n := by
  unfold digits?
  constructor
  · intro h
    split at h
    · next hcs =>
      obtain ⟨hne, hdigits⟩ := Bool.and_eq_true_iff.mp hcs
      exact ⟨by simpa using hne, List.all_eq_true.mp hdigits, Option.some.inj h⟩
    · cases h
  · intro h
    have hne : cs.isEmpty = false := by simpa using h.nonempty
    have hdigits : cs.all Char.isDigit = true := List.all_eq_true.mpr h.digits
    rw [hne, hdigits, h.value]
    rfl

theorem word?_eq_some_iff {s : String} {n : Nat} : word? s = some n ↔ Numeral s n := by
  have hread (cs : List Char) :
      (digits? cs).filter (· < UInt32.size) = some n ↔ Digits cs n ∧ n < UInt32.size := by
    rw [Option.filter_eq_some_iff, digits?_eq_some_iff, decide_eq_true_iff]
  unfold word?
  split
  · next rest hs =>
    rw [hread]
    constructor
    · rintro ⟨hrest, hsmall⟩
      exact ⟨hsmall, .inr ⟨rest, hs, hrest⟩⟩
    · rintro ⟨hsmall, hplain | ⟨cs, hcs, hdigits⟩⟩
      · -- A plus sign is no digit.
        have hplus := hplain.digits '+' (by simp [hs])
        exact absurd hplus (by decide)
      · obtain ⟨-, rfl⟩ := List.cons.inj (hs.symm.trans hcs)
        exact ⟨hdigits, hsmall⟩
  · next hplus =>
    rw [hread]
    constructor
    · rintro ⟨hdigits, hsmall⟩
      exact ⟨hsmall, .inl hdigits⟩
    · rintro ⟨hsmall, hplain | ⟨cs, hcs, -⟩⟩
      · exact ⟨hplain, hsmall⟩
      · exact absurd hcs (hplus cs)

/-- Two pieces are what stands on either side of the only separator. -/
theorem pieces_eq_pair_iff {sep : Char} {s left right : String} : pieces sep s = [left, right] ↔
    s = left ++ String.ofList [sep] ++ right ∧ sep ∉ left.toList ∧ sep ∉ right.toList := by
  constructor
  · intro h
    have hleft : left ∈ pieces sep s := by simp [h]
    have hright : right ∈ pieces sep s := by simp [h]
    refine ⟨?_, not_mem_of_mem_pieces hleft, not_mem_of_mem_pieces hright⟩
    rw [← join_pieces sep s, h]
    apply String.toList_injective
    simp [join]
  · rintro ⟨rfl, hleft, hright⟩
    rw [pieces_append, pieces_of_not_mem hleft, pieces_of_not_mem hright]
    rfl

end Text

namespace Devices

/-- A token stands for the numbers from `a` to `b`: a number for itself, a range for all between
its borders. -/
inductive Denotes (token : String) : Nat → Nat → Prop
  | single {n : Nat} : '-' ∉ token.toList → Text.Numeral token n → Denotes token n n
  | range {left right : String} {a b : Nat} : token = left ++ "-" ++ right →
    '-' ∉ left.toList → '-' ∉ right.toList → Text.Numeral (Text.trim left) a →
    Text.Numeral (Text.trim right) b → a ≤ b → b ≤ 128 → Denotes token a b

theorem Denotes.le {token : String} {a b : Nat} (h : Denotes token a b) : a ≤ b := by
  cases h with
  | single => exact Nat.le_refl a
  | range _ _ _ _ _ hle => exact hle

theorem borders_eq_ok_iff {token : String} {a b : Nat} : borders token = .ok (a, b) ↔
    ∃ left right, token = left ++ "-" ++ right ∧ '-' ∉ left.toList ∧ '-' ∉ right.toList ∧
      Text.Numeral (Text.trim left) a ∧ Text.Numeral (Text.trim right) b ∧ a ≤ b ∧ b ≤ 128 := by
  have hdash : "-" = String.ofList ['-'] := by decide
  have hborder : maxRangeBorder = 128 := rfl
  constructor
  · intro h
    unfold borders at h
    split at h
    · next hparts =>
      obtain ⟨left, rest, hpieces, rfl, hrest⟩ := List.map_eq_cons_iff.mp hparts
      obtain ⟨right, last, rfl, rfl, hlast⟩ := List.map_eq_cons_iff.mp hrest
      obtain rfl := List.map_eq_nil_iff.mp hlast
      obtain ⟨htoken, hleft, hright⟩ := Text.pieces_eq_pair_iff.mp hpieces
      split at h
      · cases h
      · cases h
      · next ha hb =>
        split at h
        · cases h
        next hfar =>
        split at h
        · cases h
        next hle =>
        cases h
        exact ⟨left, right, hdash ▸ htoken, hleft, hright, Text.word?_eq_some_iff.mp ha,
          Text.word?_eq_some_iff.mp hb, Nat.not_lt.mp hle, Nat.not_lt.mp hfar⟩
    · cases h
  · rintro ⟨left, right, htoken, hleft, hright, ha, hb, hle, hfar⟩
    have hpieces := Text.pieces_eq_pair_iff.mpr ⟨hdash ▸ htoken, hleft, hright⟩
    have ha := Text.word?_eq_some_iff.mpr ha
    have hb := Text.word?_eq_some_iff.mpr hb
    simp only [borders, hpieces, List.map_cons, List.map_nil, ha, hb, hborder]
    rw [if_neg (Nat.not_lt.mpr hfar), if_neg (Nat.not_lt.mpr hle)]

theorem ofToken_eq_ok_iff {token : String} {ids : List Nat} : ofToken token = .ok ids ↔
    ∃ a b, Denotes token a b ∧ ids = List.range' a (b + 1 - a) := by
  unfold ofToken
  by_cases hdash : '-' ∈ token.toList
  · rw [if_pos (List.contains_iff_mem.mpr hdash), bind_eq_ok]
    constructor
    · rintro ⟨⟨a, b⟩, hborders, hids⟩
      obtain ⟨left, right, htoken, hleft, hright, ha, hb, hle, hfar⟩ :=
        borders_eq_ok_iff.mp hborders
      exact ⟨a, b, .range htoken hleft hright ha hb hle hfar, (Except.ok.inj hids).symm⟩
    · rintro ⟨a, b, hdenotes, rfl⟩
      cases hdenotes with
      | single hno => exact absurd hdash hno
      | range htoken hleft hright ha hb hle hfar =>
        exact ⟨(a, b), borders_eq_ok_iff.mpr ⟨_, _, htoken, hleft, hright, ha, hb, hle, hfar⟩, rfl⟩
  · have hno : token.toList.contains '-' = false := by simpa using hdash
    rw [hno, if_neg Bool.false_ne_true]
    constructor
    · intro h
      split at h
      · next n hn =>
        cases h
        exact ⟨n, n, .single hdash (Text.word?_eq_some_iff.mp hn), by simp⟩
      · cases h
    · rintro ⟨a, b, hdenotes, rfl⟩
      cases hdenotes with
      | single _ hn =>
        rw [Text.word?_eq_some_iff.mpr hn]
        simp
      | range htoken => exact absurd (by simp [htoken]) hdash

theorem mem_dropRepeats {ids : List Nat} {n : Nat} : n ∈ Selection.dropRepeats ids ↔ n ∈ ids := by
  induction ids using Selection.dropRepeats.induct with
  | case1 => exact Iff.rfl
  | case2 => exact Iff.rfl
  | case3 a rest ih =>
    rw [Selection.dropRepeats, if_pos rfl, ih, List.mem_cons (l := a :: rest)]
    exact (or_iff_right_of_imp fun h => h ▸ List.mem_cons_self).symm
  | case4 a b rest hne ih =>
    rw [Selection.dropRepeats, if_neg hne, List.mem_cons, ih, List.mem_cons (l := b :: rest)]

theorem mem_ofIds {ids : List Nat} {n : Nat} : n ∈ (ofIds ids).ids ↔ n ∈ ids := by
  rw [ofIds, mem_dropRepeats, List.mem_mergeSort]

theorem pairwise_dropRepeats {ids : List Nat} (h : ids.Pairwise (· ≤ ·)) :
    (Selection.dropRepeats ids).Pairwise (· < ·) := by
  induction ids using Selection.dropRepeats.induct with
  | case1 => exact .nil
  | case2 a => exact List.pairwise_singleton _ a
  | case3 a rest ih =>
    rw [Selection.dropRepeats, if_pos rfl]
    exact ih h.of_cons
  | case4 a b rest hne ih =>
    rw [Selection.dropRepeats, if_neg hne]
    obtain ⟨hfirst, hrest⟩ := List.pairwise_cons.mp h
    refine List.pairwise_cons.mpr ⟨fun n hn => ?_, ih hrest⟩
    have hab : a < b := Nat.lt_of_le_of_ne (hfirst b List.mem_cons_self) hne
    rcases List.mem_cons.mp (mem_dropRepeats.mp hn) with rfl | hn
    · exact hab
    · exact Nat.lt_of_lt_of_le hab ((List.pairwise_cons.mp hrest).1 n hn)

/-- In whatever order numbers are given, they are selected in rising order and once each. -/
theorem pairwise_ofIds (ids : List Nat) : (ofIds ids).ids.Pairwise (· < ·) := by
  have hsorted : (ids.mergeSort (· ≤ ·)).Pairwise fun a b => decide (a ≤ b) = true :=
    List.pairwise_mergeSort (fun a b c hab hbc => by simp at hab hbc ⊢; omega)
      (fun a b => by simp; omega) ids
  exact pairwise_dropRepeats (hsorted.imp of_decide_eq_true)

def tokens (s : String) : List String := (Text.pieces ',' s).map Text.trim

/-- A text of tokens that each stand for something, and not a long one. -/
structure Readable (s : String) : Prop where
  short : s.utf8ByteSize ≤ 128
  tokens : ∀ token ∈ tokens s, ∃ a b, Denotes token a b

/-- Some token stands for this number, alone or among others. -/
def Names (s : String) (n : Nat) : Prop :=
  ∃ token ∈ tokens s, ∃ a b, Denotes token a b ∧ a ≤ n ∧ n ≤ b

theorem tokens_ne_nil (s : String) : tokens s ≠ [] := by
  simp [tokens, Text.pieces, List.splitOn_ne_nil]

theorem parse_eq_ok_iff {s : String} {d : Devices} : parse s = .ok d ↔
    s.utf8ByteSize ≤ 128 ∧
      ∃ parts, (tokens s).mapM ofToken = .ok parts ∧ d = ofIds parts.flatten := by
  have hlength : Selection.checkLength s = .ok () ↔ s.utf8ByteSize ≤ 128 := by
    simp [Selection.checkLength, Selection.maxInput]
  rw [parse, bind_eq_ok]
  constructor
  · rintro ⟨⟨⟩, hshort, h⟩
    obtain ⟨parts, hparts, h⟩ := bind_eq_ok.mp h
    exact ⟨hlength.mp hshort, parts, hparts, (Except.ok.inj h).symm⟩
  · rintro ⟨hshort, parts, hparts, rfl⟩
    exact ⟨(), hlength.mpr hshort, bind_eq_ok.mpr ⟨parts, hparts, rfl⟩⟩

theorem exists_parse_iff {s : String} : (∃ d, parse s = .ok d) ↔ Readable s := by
  constructor
  · rintro ⟨d, h⟩
    obtain ⟨hshort, parts, hparts, -⟩ := parse_eq_ok_iff.mp h
    refine ⟨hshort, fun token htoken => ?_⟩
    obtain ⟨ids, -, hread⟩ := exists_of_mem_of_mapM hparts token htoken
    obtain ⟨a, b, hdenotes, -⟩ := ofToken_eq_ok_iff.mp hread
    exact ⟨a, b, hdenotes⟩
  · rintro ⟨hshort, htokens⟩
    have heach : ∀ token ∈ tokens s, ∃ ids, ofToken token = .ok ids := by
      intro token htoken
      obtain ⟨a, b, hdenotes⟩ := htokens token htoken
      exact ⟨_, ofToken_eq_ok_iff.mpr ⟨a, b, hdenotes, rfl⟩⟩
    obtain ⟨parts, hparts⟩ := exists_mapM_eq_ok heach
    exact ⟨_, parse_eq_ok_iff.mpr ⟨hshort, parts, hparts, rfl⟩⟩

theorem mem_ids_of_parse {s : String} {d : Devices} (h : parse s = .ok d) (n : Nat) :
    n ∈ d.ids ↔ Names s n := by
  obtain ⟨-, parts, hparts, rfl⟩ := parse_eq_ok_iff.mp h
  rw [mem_ofIds, List.mem_flatten]
  constructor
  · rintro ⟨ids, hids, hn⟩
    obtain ⟨token, htoken, hread⟩ := exists_of_mapM_eq_ok hparts ids hids
    obtain ⟨a, b, hdenotes, rfl⟩ := ofToken_eq_ok_iff.mp hread
    have hbounds := List.mem_range'_1.mp hn
    exact ⟨token, htoken, a, b, hdenotes, by omega, by omega⟩
  · rintro ⟨token, htoken, a, b, hdenotes, ha, hb⟩
    obtain ⟨ids, hids, hread⟩ := exists_of_mem_of_mapM hparts token htoken
    have hrange := ofToken_eq_ok_iff.mpr ⟨a, b, hdenotes, rfl⟩
    obtain rfl := Except.ok.inj (hread.symm.trans hrange)
    exact ⟨_, hids, List.mem_range'_1.mpr ⟨ha, by omega⟩⟩

/-- There is always a token, and each of them stands for some number. -/
theorem ids_ne_nil_of_parse {s : String} {d : Devices} (h : parse s = .ok d) : d.ids ≠ [] := by
  obtain ⟨token, htoken⟩ := List.exists_mem_of_ne_nil (tokens s) (tokens_ne_nil s)
  obtain ⟨a, b, hdenotes⟩ := (exists_parse_iff.mp ⟨d, h⟩).tokens token htoken
  have hnamed : Names s a := ⟨token, htoken, a, b, hdenotes, Nat.le_refl a, hdenotes.le⟩
  exact List.ne_nil_of_mem ((mem_ids_of_parse h a).mpr hnamed)

theorem pairwise_ids_of_parse {s : String} {d : Devices} (h : parse s = .ok d) :
    d.ids.Pairwise (· < ·) := by
  obtain ⟨-, parts, -, rfl⟩ := parse_eq_ok_iff.mp h
  exact pairwise_ofIds parts.flatten

/-- A text is read exactly if it is in the grammar. What is read are the numbers that it names,
in rising order and at least one, and they are all that another text has to share with it to be
read the same. -/
theorem parse_denotes (s : String) : ((∃ d, parse s = .ok d) ↔ Readable s) ∧
    ∀ d, parse s = .ok d → d.ids ≠ [] ∧ d.ids.Pairwise (· < ·) ∧ (∀ n, n ∈ d.ids ↔ Names s n) ∧
      ∀ t, Readable t → (∀ n, Names t n ↔ Names s n) → parse t = .ok d := by
  refine ⟨exists_parse_iff, fun d h => ⟨ids_ne_nil_of_parse h, pairwise_ids_of_parse h,
    mem_ids_of_parse h, fun t ht hsame => ?_⟩⟩
  obtain ⟨e, he⟩ := exists_parse_iff.mpr ht
  have hids : e.ids = d.ids := by
    refine (pairwise_ids_of_parse he).eq_of_mem_iff (pairwise_ids_of_parse h) fun n => ?_
    rw [mem_ids_of_parse he, hsame, mem_ids_of_parse h]
  rw [he]
  exact congrArg (fun ids => Except.ok (Devices.mk ids)) hids

/-- Numbers out of order, with blanks around them and with overlaps. -/
theorem parse_denotes_mingled : parse " 7, 2-4 ,+3,007" = .ok ⟨[2, 3, 4, 7]⟩ ∧
    Readable " 7, 2-4 ,+3,007" ∧ ∀ n, n ∈ [2, 3, 4, 7] ↔ Names " 7, 2-4 ,+3,007" n := by
  have hparts : (tokens " 7, 2-4 ,+3,007").mapM ofToken = .ok [[7], [2, 3, 4], [3], [7]] := by
    decide +kernel
  have hids : ⟨[2, 3, 4, 7]⟩ = ofIds [7, 2, 3, 4, 3, 7] := by
    simp [ofIds, List.mergeSort, Selection.dropRepeats]
  have hread := parse_eq_ok_iff.mpr ⟨by decide, _, hparts, hids⟩
  obtain ⟨hreadable, hdenotes⟩ := parse_denotes " 7, 2-4 ,+3,007"
  exact ⟨hread, hreadable.mp ⟨_, hread⟩, (hdenotes _ hread).2.2.1⟩

end Devices

end NpuRuntime
