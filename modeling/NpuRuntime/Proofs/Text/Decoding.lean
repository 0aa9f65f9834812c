import Mathlib.Data.List.Basic
import NpuRuntime.Proofs.Text.Encoding

/-! # UTF-8 read and written
Reading loses no byte: the pieces that were read, whole characters and broken ones, spell what was
there. So bytes are a text exactly if they are the bytes of one. -/
namespace NpuRuntime.Utf8

theorem toNat_val_ofNat {v : Nat} (hv : v.isValidChar) : (Char.ofNat v).val.toNat = v := by
  rw [Char.ofNat, dif_pos hv]
  rfl

theorem encodeChar_one {n : Nat} (hn : n < 128) :
    String.utf8EncodeChar (Char.ofNat n) = [UInt8.ofNat n] := by
  have hv : n.isValidChar := by
    unfold Nat.isValidChar
    omega
  unfold String.utf8EncodeChar
  rw [toNat_val_ofNat hv]
  dsimp only
  rw [if_pos (by omega)]

theorem encodeChar_two {n m : Nat} (hn : 2 ≤ n ∧ n < 32) (hm : m < 64) :
    String.utf8EncodeChar (Char.ofNat (n * 64 + m)) =
      [UInt8.ofNat (n + 192), UInt8.ofNat (m + 128)] := by
  have hv : (n * 64 + m).isValidChar := by
    unfold Nat.isValidChar
    omega
  have hfirst : (n * 64 + m) / 64 % 32 = n := by omega
  have hsecond : (n * 64 + m) % 64 = m := by omega
  unfold String.utf8EncodeChar
  rw [toNat_val_ofNat hv]
  dsimp only
  rw [if_neg (by omega), if_pos (by omega), hfirst, hsecond]

theorem encodeChar_three {n m k : Nat} (hn : n < 16) (hm : m < 64) (hk : k < 64)
    (hshort : n = 0 → 32 ≤ m) (hsurrogate : n = 13 → m < 32) :
    String.utf8EncodeChar (Char.ofNat ((n * 64 + m) * 64 + k)) =
      [UInt8.ofNat (n + 224), UInt8.ofNat (m + 128), UInt8.ofNat (k + 128)] := by
  have hv : ((n * 64 + m) * 64 + k).isValidChar := by
    unfold Nat.isValidChar
    omega
  have hfirst : ((n * 64 + m) * 64 + k) / 4096 % 16 = n := by omega
  have hsecond : ((n * 64 + m) * 64 + k) / 64 % 64 = m := by omega
  have hthird : ((n * 64 + m) * 64 + k) % 64 = k := by omega
  unfold String.utf8EncodeChar
  rw [toNat_val_ofNat hv]
  dsimp only
  rw [if_neg (by omega), if_neg (by omega), if_pos (by omega), hfirst, hsecond, hthird]

theorem encodeChar_four {n m k l : Nat} (hn : n < 5) (hm : m < 64) (hk : k < 64) (hl : l < 64)
    (hshort : n = 0 → 16 ≤ m) (hlarge : n = 4 → m < 16) :
    String.utf8EncodeChar (Char.ofNat (((n * 64 + m) * 64 + k) * 64 + l)) =
      [UInt8.ofNat (n + 240), UInt8.ofNat (m + 128), UInt8.ofNat (k + 128),
        UInt8.ofNat (l + 128)] := by
  have hv : (((n * 64 + m) * 64 + k) * 64 + l).isValidChar := by
    unfold Nat.isValidChar
    omega
  have hfirst : (((n * 64 + m) * 64 + k) * 64 + l) / 262144 % 8 = n := by omega
  have hsecond : (((n * 64 + m) * 64 + k) * 64 + l) / 4096 % 64 = m := by omega
  have hthird : (((n * 64 + m) * 64 + k) * 64 + l) / 64 % 64 = k := by omega
  have hfourth : (((n * 64 + m) * 64 + k) * 64 + l) % 64 = l := by omega
  unfold String.utf8EncodeChar
  rw [toNat_val_ofNat hv]
  dsimp only
  rw [if_neg (by omega), if_neg (by omega), if_neg (by omega), hfirst, hsecond, hthird, hfourth]

/-- Whichever bytes come next, as many as are owed and the first of them within its bounds, they
make a character that is written with the bytes taken so far and these. -/
structure Pending.Underway (p : Pending) : Prop where
  low : 128 ≤ p.low
  high : p.high < 192
  owed : 0 < p.owed
  completes : ∀ (first : Nat) (rest : List Nat), rest.length + 1 = p.owed →
    p.low ≤ first + 128 → first + 128 ≤ p.high → (∀ m ∈ rest, m < 64) →
    String.utf8EncodeChar (Char.ofNat (rest.foldl (fun v m => v * 64 + m) (p.value * 64 + first))) =
      p.taken.reverse ++ UInt8.ofNat (first + 128) :: rest.map fun m => UInt8.ofNat (m + 128)

theorem underway_two {b : UInt8} {n : Nat} (hb : b.toNat = n + 192) (hn : 2 ≤ n ∧ n < 32) :
    Pending.Underway ⟨1, 0x80, 0xbf, n, [b]⟩ := by
  refine ⟨Nat.le_refl 128, Nat.le_refl 192, Nat.zero_lt_one, ?_⟩
  intro m rest howed hlow hhigh _
  dsimp only at howed hhigh
  obtain rfl : rest = [] := List.length_eq_zero_iff.mp (by omega)
  have hchar := encodeChar_two hn (m := m) (by omega)
  rwa [← hb, UInt8.ofNat_toNat] at hchar

theorem underway_three {b : UInt8} {low high n : Nat} (hb : b.toNat = n + 224) (hn : n < 16)
    (hlow : 128 ≤ low) (hhigh : high < 192) (hshort : n = 0 → 160 ≤ low)
    (hsurrogate : n = 13 → high < 160) : Pending.Underway ⟨2, low, high, n, [b]⟩ := by
  refine ⟨hlow, hhigh, Nat.zero_lt_two, ?_⟩
  intro m rest howed hfrom hto hrest
  dsimp only at howed hfrom hto
  obtain ⟨k, rfl⟩ := List.length_eq_one_iff.mp (by omega : rest.length = 1)
  have hk := hrest k List.mem_cons_self
  have hlong : n = 0 → 32 ≤ m := fun h0 => by
    have := hshort h0
    omega
  have hplain : n = 13 → m < 32 := fun h13 => by
    have := hsurrogate h13
    omega
  have hchar := encodeChar_three hn (by omega) hk hlong hplain
  rwa [← hb, UInt8.ofNat_toNat] at hchar

theorem underway_four {b : UInt8} {low high n : Nat} (hb : b.toNat = n + 240) (hn : n < 5)
    (hlow : 128 ≤ low) (hhigh : high < 192) (hshort : n = 0 → 144 ≤ low)
    (hlarge : n = 4 → high < 144) : Pending.Underway ⟨3, low, high, n, [b]⟩ := by
  refine ⟨hlow, hhigh, Nat.zero_lt_succ 2, ?_⟩
  intro m rest howed hfrom hto hrest
  dsimp only at howed hfrom hto
  obtain ⟨k, l, rfl⟩ := List.length_eq_two.mp (by omega : rest.length = 2)
  have hk := hrest k List.mem_cons_self
  have hl := hrest l (List.mem_cons_of_mem k List.mem_cons_self)
  have hlong : n = 0 → 16 ≤ m := fun h0 => by
    have := hshort h0
    omega
  have hbound : n = 4 → m < 16 := fun h4 => by
    have := hlarge h4
    omega
  have hchar := encodeChar_four hn (by omega) hk hl hlong hbound
  rwa [← hb, UInt8.ofNat_toNat] at hchar

theorem ofNat_sub_add {b : UInt8} (hb : 128 ≤ b.toNat) :
    UInt8.ofNat (b.toNat - 128 + 128) = b := by
  rw [Nat.sub_add_cancel hb, UInt8.ofNat_toNat]

/-- A byte within the bounds takes the character one step further. -/
theorem Pending.Underway.next {p : Pending} (hp : p.Underway) {b : UInt8}
    (hlow : p.low ≤ b.toNat) (hhigh : b.toNat ≤ p.high) (howed : 1 < p.owed) :
    Pending.Underway
      ⟨p.owed - 1, 0x80, 0xbf, p.value * 64 + (b.toNat - 0x80), b :: p.taken⟩ := by
  refine ⟨Nat.le_refl 128, Nat.le_refl 192, Nat.sub_pos_of_lt howed, ?_⟩
  intro first rest hlength _ hto hrest
  dsimp only at hlength hto
  have hb : 128 ≤ b.toNat := Nat.le_trans hp.low hlow
  have hall : ∀ m ∈ first :: rest, m < 64 := List.forall_mem_cons.mpr ⟨by omega, hrest⟩
  have hall_length : (first :: rest).length + 1 = p.owed := by
    rw [List.length_cons]
    omega
  have hwhole := hp.completes (b.toNat - 128) (first :: rest) hall_length (by omega) (by omega) hall
  rw [ofNat_sub_add hb, List.foldl_cons] at hwhole
  dsimp only
  rw [List.reverse_cons, List.append_assoc]
  exact hwhole

/-- The last byte that is owed completes the character. -/
theorem Pending.Underway.last {p : Pending} (hp : p.Underway) {b : UInt8}
    (hlow : p.low ≤ b.toNat) (hhigh : b.toNat ≤ p.high) (howed : p.owed = 1) :
    String.utf8EncodeChar (Char.ofNat (p.value * 64 + (b.toNat - 0x80))) =
      p.taken.reverse ++ [b] := by
  have hb : 128 ≤ b.toNat := Nat.le_trans hp.low hlow
  have hwhole := hp.completes (b.toNat - 128) [] howed.symm (by omega) (by omega) nofun
  rw [ofNat_sub_add hb] at hwhole
  exact hwhole

/-- The bytes that a reading has come across. -/
def Reading.bytes (r : Reading) : List UInt8 :=
  r.pieces.reverse.flatMap Piece.bytes ++ (r.pending.map fun p => p.taken.reverse).getD []

/-- The reading has come across these bytes, and may go on. -/
structure Reading.Spells (r : Reading) (bytes : List UInt8) : Prop where
  bytes : r.bytes = bytes
  underway : ∀ p ∈ r.pending, p.Underway

theorem Reading.spells_piece (ps : List Piece) (piece : Piece) :
    Reading.Spells ⟨piece :: ps, none⟩ (ps.reverse.flatMap Piece.bytes ++ piece.bytes) where
  bytes := by simp [Reading.bytes]
  underway := nofun

theorem Reading.spells_pending (ps : List Piece) {p : Pending} (hp : p.Underway) :
    Reading.Spells ⟨ps, some p⟩ (ps.reverse.flatMap Piece.bytes ++ p.taken.reverse) where
  bytes := rfl
  underway q hq := by
    obtain rfl := Option.some.inj hq
    exact hp

theorem spells_lead (ps : List Piece) (b : UInt8) :
    (lead ps b).Spells (ps.reverse.flatMap Piece.bytes ++ [b]) := by
  have hbroken := Reading.spells_piece ps (.broken [b])
  have hopened {owed low high value : Nat}
      (hp : Pending.Underway ⟨owed, low, high, value, [b]⟩) := Reading.spells_pending ps hp
  unfold lead
  dsimp only
  split
  · next hn =>
    have hchar := Reading.spells_piece ps (.char (Char.ofNat b.toNat))
    rwa [Piece.bytes, encodeChar_one hn, UInt8.ofNat_toNat] at hchar
  split
  · exact hbroken
  split
  · exact hopened (underway_two (by omega) (by omega))
  -- Of the bytes that open three, two keep the next one within closer bounds.
  split
  · next hn => exact hopened (underway_three hn (by decide) (by decide) (by decide)
      (by decide) (by decide))
  split
  · next hn => exact hopened (underway_three hn (by decide) (by decide) (by decide)
      (by decide) (by decide))
  split
  · exact hopened (underway_three (by omega) (by omega) (by decide) (by decide) (by omega)
      (by omega))
  -- So do two of those that open four.
  split
  · next hn => exact hopened (underway_four hn (by decide) (by decide) (by decide)
      (by decide) (by decide))
  split
  · exact hopened (underway_four (by omega) (by omega) (by decide) (by decide) (by omega)
      (by omega))
  split
  · next hn => exact hopened (underway_four hn (by decide) (by decide) (by decide)
      (by decide) (by decide))
  · exact hbroken

/-- One more byte is one more byte that the reading has come across. -/
theorem Reading.Spells.push {r : Reading} {bytes : List UInt8} (hr : r.Spells bytes) (b : UInt8) :
    (push r b).Spells (bytes ++ [b]) := by
  obtain ⟨rfl, hunderway⟩ := hr
  rcases r with ⟨ps, _ | p⟩
  · have hspells := spells_lead ps b
    rw [Reading.bytes, Option.map_none, Option.getD_none, List.append_nil]
    exact hspells
  · have hp := hunderway p rfl
    rw [Reading.bytes, Option.map_some, Option.getD_some]
    dsimp only
    unfold Utf8.push
    dsimp only
    split
    · next hb =>
      split
      · next howed =>
        have hspells := Reading.spells_piece ps
          (.char (Char.ofNat (p.value * 64 + (b.toNat - 0x80))))
        have hone : p.owed = 1 := Nat.le_antisymm howed hp.owed
        rwa [Piece.bytes, hp.last hb.1 hb.2 hone, ← List.append_assoc] at hspells
      · next howed =>
        have hspells := Reading.spells_pending ps (hp.next hb.1 hb.2 (by omega))
        rwa [List.reverse_cons, ← List.append_assoc] at hspells
    · have hspells := spells_lead (.broken p.taken.reverse :: ps) b
      rwa [List.reverse_cons, List.flatMap_append, List.flatMap_singleton] at hspells

theorem Reading.Spells.foldl_push {r : Reading} {bytes : List UInt8} (hr : r.Spells bytes)
    (more : List UInt8) : (more.foldl Utf8.push r).Spells (bytes ++ more) := by
  induction more generalizing r bytes with
  | nil =>
    rw [List.append_nil]
    exact hr
  | cons b more ih =>
    have hmore := ih (hr.push b)
    rwa [List.append_assoc] at hmore

/-- The pieces of a reading spell the bytes that were read. -/
theorem flatMap_bytes_decode (bytes : List UInt8) :
    (decode bytes).flatMap Piece.bytes = bytes := by
  have hstart : start.Spells [] := ⟨rfl, nofun⟩
  have hread := (hstart.foldl_push bytes).bytes
  rw [decode]
  rcases hlast : bytes.foldl push start with ⟨ps, _ | p⟩
  · rw [hlast] at hread
    rw [finish]
    simpa [Reading.bytes] using hread
  · rw [hlast] at hread
    rw [finish]
    simpa [Reading.bytes, Piece.bytes] using hread

theorem eq_map_of_mapM_char? {pieces : List Piece} {cs : List Char}
    (h : pieces.mapM Piece.char? = some cs) : pieces = cs.map Piece.char := by
  induction pieces generalizing cs with
  | nil =>
    cases h
    rfl
  | cons piece pieces ih =>
    rw [List.mapM_cons] at h
    obtain ⟨c, hc, h⟩ := Option.bind_eq_some_iff.mp h
    obtain ⟨rest, hrest, h⟩ := Option.bind_eq_some_iff.mp h
    cases h
    cases piece with
    | broken bytes => cases hc
    | char d =>
      cases hc
      rw [ih hrest, List.map_cons]

/-- Bytes are read as a text exactly if they are the bytes of that text. -/
theorem text?_eq_some_iff {bytes : List UInt8} {s : String} :
    text? bytes = some s ↔ bytes = bytesOf s := by
  constructor
  · intro htext
    obtain ⟨cs, hcs, rfl⟩ := Option.map_eq_some_iff.mp htext
    have hpieces := eq_map_of_mapM_char? hcs
    rw [bytesOf, String.toList_ofList, encode, ← flatMap_bytes_decode bytes, hpieces,
      List.flatMap_map]
    rfl
  · rintro rfl
    rw [bytesOf, text?_encode, String.ofList_toList]

end NpuRuntime.Utf8
