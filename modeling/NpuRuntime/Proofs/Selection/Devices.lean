import NpuRuntime.Proofs.Selection.Grammar

/-! # Selections of one device
The number of a device, written out, selects that device and no other. -/
namespace NpuRuntime.Devices

theorem not_mem_toString {c : Char} (h : c.isDigit = false) (n : Nat) :
    c ∉ (toString n).toList := by
  intro hc
  simp [Text.isDigit_of_mem_toString hc] at h

theorem trim_toString (n : Nat) : Text.trim (toString n) = toString n :=
  Text.trim_eq_self fun _ hc => Text.isBlank_of_isDigit (Text.isDigit_of_mem_toString hc)

/-- A character takes at most four bytes. -/
theorem size_ofList_le (l : List Char) : (String.ofList l).utf8ByteSize ≤ 4 * l.length := by
  induction l with
  | nil => decide
  | cons c l ih =>
    have hc : String.ofList (c :: l) = String.singleton c ++ String.ofList l :=
      String.toList_injective (by simp)
    have hs := c.utf8Size_le_four
    rw [hc, String.utf8ByteSize_append, String.utf8ByteSize_singleton, List.length_cons]
    omega

theorem size_toString_le {n : Nat} (h : n < UInt32.size) : (toString n).utf8ByteSize ≤ 128 := by
  have hl : (Nat.toDigits 10 n).length ≤ 10 :=
    (Nat.length_toDigits_le_iff (by decide) (by decide)).mpr (h.trans (by decide))
  have hs := size_ofList_le (Nat.toDigits 10 n)
  rw [Nat.toString_eq_ofList_toDigits]
  omega

theorem ofToken_toString {n : Nat} (h : n < UInt32.size) : ofToken (toString n) = .ok [n] := by
  have hc : (toString n).toList.contains '-' = false := by
    simpa using not_mem_toString (c := '-') (by decide) n
  simp only [ofToken, hc, Text.word?_toString h, Bool.false_eq_true, if_false]

theorem ofIds_singleton (n : Nat) : ofIds [n] = ⟨[n]⟩ := by
  simp [ofIds, Selection.dropRepeats]

theorem tokens_toString (n : Nat) : tokens (toString n) = [toString n] := by
  rw [tokens, Text.pieces_of_not_mem (not_mem_toString (by decide) n), List.map_singleton,
    trim_toString]

theorem parse_toString {n : Nat} (h : n < UInt32.size) : parse (toString n) = .ok ⟨[n]⟩ := by
  refine parse_eq_ok_iff.mpr ⟨size_toString_le h, [[n]], ?_, (ofIds_singleton n).symm⟩
  rw [tokens_toString, List.mapM_cons, List.mapM_nil, ofToken_toString h]
  rfl

/-- A number that is read as a selection, however large, selects itself. -/
theorem eq_of_parse_toString {n : Nat} {d : Devices} (h : parse (toString n) = .ok d) :
    d = ⟨[n]⟩ := by
  obtain ⟨-, parts, hparts, rfl⟩ := parse_eq_ok_iff.mp h
  rw [tokens_toString, List.mapM_cons, List.mapM_nil] at hparts
  obtain ⟨ids, hids, hparts⟩ := bind_eq_ok.mp hparts
  cases hparts
  obtain ⟨a, b, hdenotes, rfl⟩ := ofToken_eq_ok_iff.mp hids
  cases hdenotes with
  | single _ hn =>
    rw [Text.eq_of_word?_toString (Text.word?_eq_some_iff.mpr hn)]
    simpa using ofIds_singleton n
  | range htoken =>
    have hdash : '-' ∈ (toString n).toList := by simp [htoken]
    exact absurd hdash (not_mem_toString (by decide) n)

end NpuRuntime.Devices
