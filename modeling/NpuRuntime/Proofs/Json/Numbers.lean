import Mathlib.Algebra.Group.Int.Defs
import Mathlib.Algebra.Group.Nat.Defs
import NpuRuntime.Json.Raw
import NpuRuntime.Json.Printer

/-! # Reading numbers back
A whole number is printed as a numeral that is read as the same number again. Negative zero is a
double to the reader, and is printed as one. -/
namespace NpuRuntime.Json

open Utf8 (Piece)

namespace Number

/-- A whole number that 64 bits hold, signed or unsigned. Negative zero is kept as a double. -/
def IsWhole : Number → Prop
  | .int n => -2 ^ 63 ≤ n ∧ n < 2 ^ 64
  | .double d => d = ⟨true, .zero⟩

instance (n : Number) : Decidable n.IsWhole := by
  cases n <;> unfold IsWhole <;> infer_instance

/-- How a number is written. Of the doubles, only the zeros are written so. -/
def numeral : Number → Numeral
  | .int n => ⟨n < 0, Nat.toDigits 10 n.natAbs, none, none⟩
  | .double d => ⟨d.negative, ['0'], some ['0'], none⟩

end Number

theorem Numeral.gather_of_le {max n : Nat} {digits : List Char}
    (h : Nat.ofDigitChars 10 digits n ≤ max) :
    gather max n digits = (Nat.ofDigitChars 10 digits n, 0) := by
  induction digits generalizing n with
  | nil => rfl
  | cons c digits ih =>
    rw [Nat.ofDigitChars_cons, Nat.mul_comm 10 n] at h ⊢
    have hstep : n * 10 + digitValue c ≤ max := by
      refine Nat.le_trans ?_ h
      rw [Nat.ofDigitChars_eq_ofDigitChars_zero]
      exact Nat.le_add_right_of_le (Nat.le_mul_of_pos_left _ (Nat.pow_pos (by decide)))
    rw [gather, if_neg (Nat.not_lt.mpr hstep)]
    exact ih h

theorem Numeral.gather_toDigits {n : Nat} (hn : n < 2 ^ 64) :
    gather maxSignificand 0 (Nat.toDigits 10 n) = (n, 0) := by
  have hvalue : Nat.ofDigitChars 10 (Nat.toDigits 10 n) 0 = n := Nat.ofDigitChars_ten_toDigits
  rw [gather_of_le, hvalue]
  rw [hvalue, maxSignificand]
  exact Nat.le_sub_one_of_lt hn

/-- A whole number is the value of its numeral. -/
theorem Number.value?_numeral {n : Number} (hn : n.IsWhole) : n.numeral.value? = some n := by
  rcases n with (n | n) | d
  · obtain ⟨-, hlt⟩ := hn
    rw [Int.ofNat_eq_natCast] at hlt
    have hg := Numeral.gather_toDigits (n := n) (by omega)
    have hpos : ¬ ((n : Int) < 0) := Int.not_lt.mpr (Int.natCast_nonneg n)
    simp [numeral, Numeral.value?, hg, hpos]
  · obtain ⟨hle, -⟩ := hn
    have hsize : UInt64.size / 2 = 2 ^ 63 := by decide
    have hg := Numeral.gather_toDigits (n := n + 1) (by omega)
    have hsmall : ¬ UInt64.size / 2 < n + 1 := by omega
    have habs : (Int.negSucc n).natAbs = n + 1 := rfl
    have hsign : ¬ (!decide (Int.negSucc n < 0)) = true := by simp [Int.negSucc_lt_zero]
    simp only [numeral, Numeral.value?, habs, hg]
    rw [if_neg (by simp), if_neg hsign, if_neg (by omega)]
    rfl
  · obtain rfl : d = ⟨true, .zero⟩ := hn
    rfl

theorem head?_toDigits {n : Nat} (hn : 0 < n) : (Nat.toDigits 10 n).head? ≠ some '0' := by
  induction n using Nat.strongRecOn with
  | ind n ih =>
    rw [Nat.toDigits_eq_if (by decide)]
    split
    · next hlt =>
      have digits : ∀ m < 10, 0 < m → [Nat.digitChar m].head? ≠ some '0' := by decide
      exact digits n hlt hn
    · have hrest := ih (n / 10) (by omega) (by omega)
      obtain ⟨c, cs, hcs⟩ := List.exists_cons_of_ne_nil (Nat.toDigits_ne_nil (n := n / 10))
      rw [hcs] at hrest ⊢
      exact hrest

/-- The text ends, or goes on with a character that ends a value. -/
def Ends (s : List Piece) : Prop :=
  s = [] ∨ ∃ c rest, s = .char c :: rest ∧ (c = ',' ∨ c = ']' ∨ c = '\x7d')

namespace Raw

theorem takeDigits_append {digits : List Char} (hd : ∀ c ∈ digits, c.isDigit = true)
    {rest : List Piece} (hr : takeDigits rest = ([], rest)) :
    takeDigits (digits.map Piece.char ++ rest) = (digits, rest) := by
  induction digits with
  | nil => exact hr
  | cons c digits ih =>
    have hc := hd c List.mem_cons_self
    have hrest := ih fun d hm => hd d (List.mem_cons_of_mem _ hm)
    simp [takeDigits, hc, hrest]

theorem takeDigits_of_ends {rest : List Piece} (hr : Ends rest) :
    takeDigits rest = ([], rest) := by
  obtain rfl | ⟨c, rest, rfl, rfl | rfl | rfl⟩ := hr <;> rfl

theorem readExponent_of_ends {rest : List Piece} (hr : Ends rest) (n : Numeral) :
    readExponent n rest = (.number n, rest) := by
  obtain rfl | ⟨c, rest, rfl, rfl | rfl | rfl⟩ := hr <;> rfl

theorem readFraction_of_ends {rest : List Piece} (hr : Ends rest) (n : Numeral) :
    readFraction n rest = (.number n, rest) := by
  obtain rfl | ⟨c, rest, rfl, rfl | rfl | rfl⟩ := hr <;> rfl

theorem readNumber_toDigits (negative : Bool) (n : Nat) {rest : List Piece} (hr : Ends rest) :
    readNumber negative ((Nat.toDigits 10 n).map Piece.char ++ rest) =
      (.number ⟨negative, Nat.toDigits 10 n, none, none⟩, rest) := by
  have hd : ∀ c ∈ Nat.toDigits 10 n, c.isDigit = true := fun c hc =>
    Nat.isDigit_of_mem_toDigits (by decide) (by decide) hc
  rw [readNumber, takeDigits_append hd (takeDigits_of_ends hr)]
  split
  · next h => exact absurd (Prod.mk.inj h).1 Nat.toDigits_ne_nil
  · next h =>
    -- No numeral of more than one digit begins with a zero.
    have hdigits := (Prod.mk.inj h).1
    rcases Nat.eq_zero_or_pos n with rfl | hn
    · simp at hdigits
    · exact absurd (congrArg List.head? hdigits) (head?_toDigits hn)
  · next digits rest' _ _ h =>
    obtain ⟨rfl, rfl⟩ := Prod.mk.inj h
    exact readFraction_of_ends hr _

theorem skip_char {c : Char} (hc : isSpace c = false) (rest : List Piece) :
    skip (.char c :: rest) = .char c :: rest := by
  simp [skip, hc]

theorem isSpace_of_isDigit {c : Char} (hc : c.isDigit = true) : isSpace c = false := by
  rw [← Bool.not_eq_true]
  intro h
  simp only [isSpace, Bool.or_eq_true, beq_iff_eq] at h
  obtain ((rfl | rfl) | rfl) | rfl := h <;> exact absurd hc (by decide)

theorem readValue_digit {c : Char} (hc : c.isDigit = true) (fuel : Nat) (rest : List Piece) :
    readValue (fuel + 1) (.char c :: rest) = readNumber false (.char c :: rest) := by
  rw [readValue, skip_char (isSpace_of_isDigit hc)]
  dsimp only
  -- No digit begins a word, a string or anything else.
  split <;> exact if_pos hc

theorem readValue_minus (fuel : Nat) (rest : List Piece) :
    readValue (fuel + 1) (.char '-' :: rest) = readNumber true rest := by
  rw [readValue]
  rfl

end Raw

namespace Number

theorem toList_render_ofNat (n : Nat) : (int (.ofNat n)).render.toList = Nat.toDigits 10 n :=
  Nat.toList_repr

theorem toList_render_negSucc (n : Nat) :
    (int (.negSucc n)).render.toList = '-' :: Nat.toDigits 10 (n + 1) := by
  change ("-" ++ (n + 1).repr).toList = _
  rw [String.toList_append, Nat.toList_repr]
  rfl

theorem toList_render_negativeZero :
    (double ⟨true, .zero⟩).render.toList = ['-', '0', '.', '0'] := by
  rfl

theorem exists_toDigits (n : Nat) :
    ∃ c cs, Nat.toDigits 10 n = c :: cs ∧ c.isDigit = true := by
  obtain ⟨c, cs, hcs⟩ := List.exists_cons_of_ne_nil (Nat.toDigits_ne_nil (b := 10) (n := n))
  exact ⟨c, cs, hcs,
    Nat.isDigit_of_mem_toDigits (by decide) (by decide) (hcs ▸ List.mem_cons_self)⟩

/-- A whole number's text begins with a digit or a minus. -/
theorem exists_render {n : Number} (hn : n.IsWhole) :
    ∃ c cs, n.render.toList = c :: cs ∧ (c.isDigit = true ∨ c = '-') := by
  rcases n with (n | n) | d
  · obtain ⟨c, cs, hcs, hc⟩ := exists_toDigits n
    exact ⟨c, cs, (toList_render_ofNat n).trans hcs, .inl hc⟩
  · exact ⟨'-', _, toList_render_negSucc n, .inr rfl⟩
  · obtain rfl : d = ⟨true, .zero⟩ := hn
    exact ⟨'-', _, toList_render_negativeZero, .inr rfl⟩

end Number

/-- What is printed for a whole number is read as its numeral. -/
theorem readValue_number {n : Number} (hn : n.IsWhole) (fuel : Nat) {rest : List Piece}
    (hr : Ends rest) :
    Raw.readValue (fuel + 1) (n.render.toList.map Piece.char ++ rest) =
      (.number n.numeral, rest) := by
  rcases n with (n | n) | d
  · have hpos : ¬ (Int.ofNat n < 0) := Int.not_lt.mpr (Int.natCast_nonneg n)
    obtain ⟨c, cs, hcs, hc⟩ := Number.exists_toDigits n
    have hread := Raw.readNumber_toDigits false n hr
    rw [Number.toList_render_ofNat]
    rw [hcs] at hread ⊢
    refine (Raw.readValue_digit hc fuel _).trans (hread.trans ?_)
    simp [Number.numeral, hcs]
  · rw [Number.toList_render_negSucc]
    have hsign : true = decide (Int.negSucc n < 0) := (decide_eq_true (Int.negSucc_lt_zero n)).symm
    refine (Raw.readValue_minus fuel _).trans ((Raw.readNumber_toDigits true (n + 1) hr).trans ?_)
    rw [hsign]
    rfl
  · obtain rfl : d = ⟨true, .zero⟩ := hn
    have hdigit : ∀ c ∈ ['0'], c.isDigit = true := List.forall_mem_singleton.mpr rfl
    have hzero : Raw.takeDigits (.char '0' :: rest) = (['0'], rest) :=
      Raw.takeDigits_append hdigit (Raw.takeDigits_of_ends hr)
    rw [Number.toList_render_negativeZero]
    refine (Raw.readValue_minus fuel _).trans ?_
    change Raw.readFraction ⟨true, ['0'], none, none⟩ (.char '.' :: .char '0' :: rest) = _
    rw [Raw.readFraction, hzero]
    exact Raw.readExponent_of_ends hr _

end NpuRuntime.Json
