import NpuRuntime.Json.Printer
import NpuRuntime.Json.Reader
import NpuRuntime.Proofs.Fallible
import NpuRuntime.Proofs.Text.Encoding

/-! # Reading strings back
A printed string is read element by element as it was escaped, and spells the same text. -/
namespace NpuRuntime.Json

open Utf8 (Piece)

/-- How an escaped character is read. Of all escapes, only one by number has six characters. -/
def mark (c : Char) : Mark :=
  if (escapeChar c).length = 6 then .unit c.toNat else .char c

/-- How a printed string is read. -/
def writtenText (s : String) : RawText := ⟨s.toList.map mark, none⟩

/-- A character is printed as it is, by a letter, or by its number. -/
inductive Escaped (c : Char) : List Char → Prop
  | plain (quote : c ≠ '"') (slash : c ≠ '\\') (printable : 0x20 ≤ c.toNat) : Escaped c [c]
  | letter {e : Char} (unit : e ≠ 'u') (back : Raw.escape? e = some c) : Escaped c ['\\', e]
  | number (control : c.toNat < 0x20) : Escaped c
      ['\\', 'u', '0', '0', Nat.digitChar (c.toNat / 16), Nat.digitChar (c.toNat % 16)]

theorem escaped (c : Char) : Escaped c (escapeChar c) := by
  have hback {n : Nat} (h : c.toNat = n) : some (Char.ofNat n) = some c := by
    rw [← h]
    exact congrArg some (Char.ofNat_toNat c)
  unfold escapeChar
  split
  · exact .letter (by decide) rfl
  · exact .letter (by decide) rfl
  · exact .letter (by decide) rfl
  · exact .letter (by decide) rfl
  · exact .letter (by decide) rfl
  · next hquote hslash _ _ _ =>
    split
    · next h => exact .letter (by decide) (hback h)
    · split
      · next h => exact .letter (by decide) (hback h)
      · split
        · next h => exact .number h
        · next h => exact .plain hquote hslash (Nat.not_lt.mp h)

theorem unit?_digitChar {n : Nat} (hn : n < 0x20) :
    Raw.unit? '0' '0' (Nat.digitChar (n / 16)) (Nat.digitChar (n % 16)) = some n := by
  have units : ∀ n < 0x20,
      Raw.unit? '0' '0' (Nat.digitChar (n / 16)) (Nat.digitChar (n % 16)) = some n := by
    decide
  exact units n hn

theorem readText_escapeChar (acc : List Mark) (c : Char) (rest : List Piece) :
    Raw.readText acc ((escapeChar c).map Piece.char ++ rest) =
      Raw.readText (mark c :: acc) rest := by
  have hmark : mark c = if (escapeChar c).length = 6 then .unit c.toNat else .char c := rfl
  have he := escaped c
  generalize escapeChar c = cs at he hmark
  cases he with
  | plain _ hslash hprintable =>
    rw [hmark]
    simp [Raw.readText, hslash, Nat.not_lt.mpr hprintable]
  | letter hunit hback =>
    rw [hmark]
    simp [Raw.readText, hunit, hback]
  | number hcontrol =>
    rw [hmark]
    simp [Raw.readText, unit?_digitChar hcontrol]

/-- A string is read up to its closing quote, one mark for each character. -/
theorem readText_flatMap (acc : List Mark) (cs : List Char) (rest : List Piece) :
    Raw.readText acc ((cs.flatMap escapeChar).map Piece.char ++ .char '"' :: rest) =
      (⟨acc.reverse ++ cs.map mark, none⟩, rest) := by
  induction cs generalizing acc with
  | nil => simp [Raw.readText]
  | cons c cs ih =>
    rw [List.flatMap_cons, List.map_append, List.append_assoc, readText_escapeChar, ih]
    simp

theorem toList_renderText (s : String) :
    (renderText s).toList = '"' :: (s.toList.flatMap escapeChar ++ ['"']) := by
  simp [renderText]

/-- Behind its opening quote, a printed string is read whole. -/
theorem readText_renderText (s : String) (rest : List Piece) :
    ∃ cs, (renderText s).toList = '"' :: cs ∧
      Raw.readText [] (cs.map Piece.char ++ rest) = (writtenText s, rest) := by
  refine ⟨_, toList_renderText s, ?_⟩
  have hread := readText_flatMap [] s.toList rest
  simpa [writtenText] using hread

theorem spell_mark (acc : List UInt8) (c : Char) (marks : List Mark) :
    RawText.spell none acc (mark c :: marks) =
      RawText.spell none ((Utf8.encode [c]).reverse ++ acc) marks := by
  unfold mark
  split
  · next hlong =>
    have hcontrol : c.toNat < 0x20 := by
      have he := escaped c
      generalize escapeChar c = cs at he hlong
      cases he with
      | plain => simp at hlong
      | letter => simp at hlong
      | number h => exact h
    rw [RawText.spell.eq_def]
    dsimp only
    rw [if_neg (by omega), if_neg (by omega), Char.ofNat_toNat]
  · rfl

theorem spell_map_mark (acc : List UInt8) (cs : List Char) :
    RawText.spell none acc (cs.map mark) = .ok (acc.reverse ++ Utf8.encode cs) := by
  induction cs generalizing acc with
  | nil => simp [RawText.spell, Utf8.encode]
  | cons c cs ih =>
    rw [List.map_cons, spell_mark, ih]
    simp [Utf8.encode]

/-- The marks of a printed string spell the string. -/
theorem read_writtenText (s : String) : (writtenText s).read = .ok s := by
  rw [RawText.read, bind_eq_ok]
  refine ⟨Utf8.encode s.toList, ?_, ?_⟩
  · rw [writtenText, spell_map_mark, List.reverse_nil, List.nil_append]
  · rw [Utf8.text?_encode, String.ofList_toList]
    rfl

end NpuRuntime.Json
