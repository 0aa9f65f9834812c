import NpuRuntime.Text.Utf8

/-! # Reading UTF-8 back
The bytes of a text, read one at a time, are its characters again, none of them broken. -/
namespace NpuRuntime.Utf8

/-- The last byte of a character completes it. -/
theorem push_last {ps : List Piece} {low high value n : Nat} {taken : List UInt8} (hn : n < 64)
    (hlow : low ≤ n + 128) (hhigh : n + 128 ≤ high) :
    push ⟨ps, some ⟨1, low, high, value, taken⟩⟩ (UInt8.ofNat (n + 128)) =
      ⟨.char (Char.ofNat (value * 64 + n)) :: ps, none⟩ := by
  have hb := UInt8.toNat_ofNat_of_lt' (n := n + 128) (by dsimp only [UInt8.size]; omega)
  simp only [push, hb]
  rw [if_pos ⟨hlow, hhigh⟩, if_pos (Nat.le_refl 1), Nat.add_sub_cancel]

/-- A byte in between leaves a character under way that may go on with any other byte. -/
theorem push_more (ps : List Piece) (owed value : Nat) (taken : List UInt8) {low high n : Nat}
    (hn : n < 64) (hlow : low ≤ n + 128) (hhigh : n + 128 ≤ high) :
    ∃ taken', push ⟨ps, some ⟨owed + 2, low, high, value, taken⟩⟩ (UInt8.ofNat (n + 128)) =
      ⟨ps, some ⟨owed + 1, 0x80, 0xbf, value * 64 + n, taken'⟩⟩ := by
  have hb := UInt8.toNat_ofNat_of_lt' (n := n + 128) (by dsimp only [UInt8.size]; omega)
  simp only [push, hb]
  rw [if_pos ⟨hlow, hhigh⟩, if_neg (by omega), Nat.add_sub_cancel]
  exact ⟨_, rfl⟩

theorem lead_two {ps : List Piece} {n : Nat} (h : 2 ≤ n ∧ n < 32) :
    push ⟨ps, none⟩ (UInt8.ofNat (n + 192)) =
      ⟨ps, some ⟨1, 0x80, 0xbf, n, [UInt8.ofNat (n + 192)]⟩⟩ := by
  have hb := UInt8.toNat_ofNat_of_lt' (n := n + 192) (by dsimp only [UInt8.size]; omega)
  simp only [push, lead, hb]
  rw [if_neg (by omega), if_neg (by omega), if_pos (by omega), Nat.add_sub_cancel]

/-- The second of three bytes lies where it makes neither a shorter character nor a surrogate. -/
theorem lead_three (ps : List Piece) {n second : Nat} (hn : n < 16) (hs : second < 64)
    (hshort : n = 0 → 32 ≤ second) (hsurrogate : n = 13 → second < 32) :
    ∃ low high taken, push ⟨ps, none⟩ (UInt8.ofNat (n + 224)) =
      ⟨ps, some ⟨2, low, high, n, taken⟩⟩ ∧ low ≤ second + 128 ∧ second + 128 ≤ high := by
  have hb := UInt8.toNat_ofNat_of_lt' (n := n + 224) (by dsimp only [UInt8.size]; omega)
  simp only [push, lead, hb]
  rw [if_neg (by omega), if_neg (by omega), if_neg (by omega)]
  split
  · next h0 =>
    obtain rfl : n = 0 := by omega
    exact ⟨0xa0, 0xbf, _, rfl, by omega, by omega⟩
  · split
    · next hd =>
      obtain rfl : n = 13 := by omega
      exact ⟨0x80, 0x9f, _, rfl, by omega, by omega⟩
    · rw [if_pos (by omega), Nat.add_sub_cancel]
      exact ⟨0x80, 0xbf, _, rfl, by omega, by omega⟩

theorem lead_four (ps : List Piece) {n second : Nat} (hn : n < 5) (hs : second < 64)
    (hshort : n = 0 → 16 ≤ second) (hlarge : n = 4 → second < 16) :
    ∃ low high taken, push ⟨ps, none⟩ (UInt8.ofNat (n + 240)) =
      ⟨ps, some ⟨3, low, high, n, taken⟩⟩ ∧ low ≤ second + 128 ∧ second + 128 ≤ high := by
  have hb := UInt8.toNat_ofNat_of_lt' (n := n + 240) (by dsimp only [UInt8.size]; omega)
  simp only [push, lead, hb]
  rw [if_neg (by omega), if_neg (by omega), if_neg (by omega), if_neg (by omega),
    if_neg (by omega), if_neg (by omega)]
  split
  · next h0 =>
    obtain rfl : n = 0 := by omega
    exact ⟨0x90, 0xbf, _, rfl, by omega, by omega⟩
  · split
    · rw [Nat.add_sub_cancel]
      exact ⟨0x80, 0xbf, _, rfl, by omega, by omega⟩
    · obtain rfl : n = 4 := by omega
      exact ⟨0x80, 0x8f, _, rfl, by omega, by omega⟩

theorem foldl_push_char (ps : List Piece) (c : Char) :
    (String.utf8EncodeChar c).foldl push ⟨ps, none⟩ = ⟨.char c :: ps, none⟩ := by
  have hvalid := c.valid
  have hback : Char.ofNat c.val.toNat = c := Char.ofNat_toNat c
  rw [UInt32.isValidChar, Nat.isValidChar] at hvalid
  unfold String.utf8EncodeChar
  generalize c.val.toNat = v at hvalid hback
  dsimp only
  subst hback
  split
  · have hb := UInt8.toNat_ofNat_of_lt' (n := v) (by dsimp only [UInt8.size]; omega)
    simp only [List.foldl_cons, List.foldl_nil, push, lead, hb]
    rw [if_pos (by omega)]
  · split
    · rw [List.foldl_cons, lead_two (by omega), List.foldl_cons,
        push_last (by omega) (by omega) (by omega), List.foldl_nil]
      congr 4
      omega
    · split
      · obtain ⟨low, high, taken, hlead, hlow, hhigh⟩ := lead_three ps
          (by omega : v / 4096 % 16 < 16) (by omega : v / 64 % 64 < 64) (by omega) (by omega)
        obtain ⟨taken', hmore⟩ := push_more ps 0 (v / 4096 % 16) taken
          (by omega : v / 64 % 64 < 64) hlow hhigh
        rw [List.foldl_cons, hlead, List.foldl_cons, hmore, List.foldl_cons,
          push_last (by omega) (by omega) (by omega), List.foldl_nil]
        congr 4
        omega
      · obtain ⟨low, high, taken, hlead, hlow, hhigh⟩ := lead_four ps
          (by omega : v / 262144 % 8 < 5) (by omega : v / 4096 % 64 < 64) (by omega) (by omega)
        obtain ⟨taken₂, hsecond⟩ := push_more ps 1 (v / 262144 % 8) taken
          (by omega : v / 4096 % 64 < 64) hlow hhigh
        obtain ⟨taken₃, hthird⟩ := push_more ps 0
          (v / 262144 % 8 * 64 + v / 4096 % 64) taken₂ (by omega : v / 64 % 64 < 64)
          (by omega : 0x80 ≤ _) (by omega : _ ≤ 0xbf)
        rw [List.foldl_cons, hlead, List.foldl_cons, hsecond, List.foldl_cons, hthird,
          List.foldl_cons, push_last (by omega) (by omega) (by omega), List.foldl_nil]
        congr 4
        omega

theorem foldl_push_encode (ps : List Piece) (cs : List Char) :
    (encode cs).foldl push ⟨ps, none⟩ = ⟨(cs.map Piece.char).reverse ++ ps, none⟩ := by
  induction cs generalizing ps with
  | nil => rfl
  | cons c cs ih =>
    change (String.utf8EncodeChar c ++ encode cs).foldl push ⟨ps, none⟩ = _
    rw [List.foldl_append, foldl_push_char, ih]
    simp

theorem decode_encode (cs : List Char) : decode (encode cs) = cs.map Piece.char := by
  rw [decode, start, foldl_push_encode, finish]
  simp

theorem text?_encode (cs : List Char) : text? (encode cs) = some (String.ofList cs) := by
  have hall : (cs.map Piece.char).mapM Piece.char? = some cs := by
    induction cs with
    | nil => rfl
    | cons c cs ih => simp [List.mapM_cons, Piece.char?, ih]
  rw [text?, decode_encode, hall]
  rfl

theorem length_bytesOf (s : String) : (bytesOf s).length = s.utf8ByteSize := by
  have hsize : (String.ofList s.toList).utf8ByteSize =
      (s.toList.flatMap String.utf8EncodeChar).length := by
    rw [← String.size_toByteArray, String.toByteArray_ofList, List.utf8Encode,
      List.size_toByteArray]
  rw [String.ofList_toList] at hsize
  exact hsize.symm

end NpuRuntime.Utf8
