import NpuRuntime.Proofs.Json.Values

/-! # Reading printed values back
The text printed for a value is read as that value and nothing else, whatever text follows it. -/
namespace NpuRuntime.Json

open Utf8 (Piece)

/-- The characters printed for a value. -/
def chars (v : Json) : List Char := v.render.toList

/-- The characters printed for a member. -/
def memberChars (m : String × Json) : List Char := (renderText m.1).toList ++ ':' :: chars m.2

theorem intercalate_cons_eq_flatMap (sep : Char) (cs : List Char) (rest : List (List Char)) :
    [sep].intercalate (cs :: rest) = cs ++ rest.flatMap (sep :: ·) := by
  induction rest generalizing cs with
  | nil => simp
  | cons d rest ih => rw [List.intercalate_cons_cons, ih, List.flatMap_cons]; simp

theorem chars_array (items : List Json) :
    chars (.array items) = '[' :: ([','].intercalate (items.map chars) ++ [']']) := by
  have htexts : items.map chars = (renderItems items).map String.toList := by
    rw [renderItems_eq_map, List.map_map]
    rfl
  simp [chars, render, htexts, String.toList_intercalate]

theorem chars_object (ms : Members) :
    chars (.object ms) = '\x7b' :: ([','].intercalate (ms.map memberChars) ++ ['\x7d']) := by
  have htexts : ms.map memberChars = (renderMembers ms).map String.toList := by
    rw [renderMembers_eq_map, List.map_map]
    refine List.map_congr_left fun m _ => ?_
    simp [memberChars, chars]
  simp [chars, render, htexts, String.toList_intercalate]

theorem chars_array_cons (v : Json) (items : List Json) : chars (.array (v :: items)) =
    '[' :: (chars v ++ (items.flatMap (',' :: chars ·) ++ [']'])) := by
  rw [chars_array, List.map_cons, intercalate_cons_eq_flatMap, List.flatMap_map, List.append_assoc]

theorem chars_object_cons (m : String × Json) (ms : Members) : chars (.object (m :: ms)) =
    '\x7b' :: (memberChars m ++ (ms.flatMap (',' :: memberChars ·) ++ ['\x7d'])) := by
  rw [chars_object, List.map_cons, intercalate_cons_eq_flatMap, List.flatMap_map, List.append_assoc]

/-- Wherever a value's text stands before the end of a value, the value is read from it. -/
def ReadsBack (v : Json) : Prop := ∀ (fuel : Nat) (rest : List Piece),
  (chars v).length ≤ fuel → Ends rest →
    Raw.readValue fuel ((chars v).map Piece.char ++ rest) = (written v, rest)

/-- A character that begins a value. -/
structure Opens (c : Char) : Prop where
  space : Raw.isSpace c = false
  bracket : c ≠ ']'
  comma : c ≠ ','

theorem exists_chars {v : Json} (hw : v.Whole) : ∃ c cs, chars v = c :: cs ∧ Opens c := by
  have opens {c : Char} {cs : List Char} (h : chars v = c :: cs) (hs : Raw.isSpace c = false)
      (hb : c ≠ ']') (hc : c ≠ ',') : ∃ c cs, chars v = c :: cs ∧ Opens c := ⟨c, cs, h, hs, hb, hc⟩
  cases v with
  | null => exact opens (by rfl) rfl (by decide) (by decide)
  | bool b => cases b <;> exact opens (by rfl) rfl (by decide) (by decide)
  | number n =>
    obtain ⟨c, cs, hcs, hc | rfl⟩ := Number.exists_render (whole_number.mp hw)
    · refine opens hcs (Raw.isSpace_of_isDigit hc) ?_ ?_ <;>
        (rintro rfl; exact absurd hc (by decide))
    · exact opens hcs rfl (by decide) (by decide)
  | string s => exact opens (toList_renderText s) rfl (by decide) (by decide)
  | array items => exact opens (chars_array items) rfl (by decide) (by decide)
  | object ms => exact opens (chars_object ms) rfl (by decide) (by decide)

theorem ends_of_tail {α : Type} (f : α → List Char) (xs : List α) {close : Char}
    (hc : close = ']' ∨ close = '\x7d') (rest : List Piece) :
    Ends ((xs.flatMap fun x => ',' :: f x).map Piece.char ++ .char close :: rest) := by
  cases xs with
  | nil => exact .inr ⟨close, rest, rfl, .inr hc⟩
  | cons x xs => exact .inr ⟨',', _, rfl, .inl rfl⟩

namespace Raw

theorem readItems_close (fuel : Nat) (acc : List Raw) (rest : List Piece) :
    readItems (fuel + 1) acc (.char ']' :: rest) = (.array acc.reverse none, rest) := by
  simp [readItems, skip, isSpace]

theorem readItems_comma {acc : List Raw} (ha : acc.isEmpty = false) (fuel : Nat)
    (rest : List Piece) : readItems (fuel + 1) acc (.char ',' :: rest) =
      readItems fuel ((readValue fuel rest).1 :: acc) (readValue fuel rest).2 := by
  simp [readItems, skip, isSpace, ha]

theorem readItems_first {c : Char} (hc : Opens c) (fuel : Nat) (rest : List Piece) :
    readItems (fuel + 1) [] (.char c :: rest) =
      readItems fuel [(readValue fuel (.char c :: rest)).1]
        (readValue fuel (.char c :: rest)).2 := by
  simp [readItems, skip, hc.space, hc.bracket, hc.comma]

end Raw

theorem readItems_more {items : List Json} (h : ∀ v ∈ items, ReadsBack v) {acc : List Raw}
    (ha : acc ≠ []) {fuel : Nat} (rest : List Piece)
    (hf : (items.flatMap fun v => ',' :: chars v).length < fuel) :
    Raw.readItems fuel acc
        ((items.flatMap fun v => ',' :: chars v).map Piece.char ++ .char ']' :: rest) =
      (.array (acc.reverse ++ writtenItems items) none, rest) := by
  induction items generalizing acc fuel with
  | nil =>
    obtain ⟨fuel, rfl⟩ := Nat.exists_eq_add_one_of_ne_zero (Nat.ne_zero_of_lt hf)
    rw [writtenItems, List.append_nil]
    exact Raw.readItems_close fuel acc rest
  | cons v items ih =>
    obtain ⟨fuel, rfl⟩ := Nat.exists_eq_add_one_of_ne_zero (Nat.ne_zero_of_lt hf)
    obtain ⟨hv, hitems⟩ := List.forall_mem_cons.mp h
    rw [List.flatMap_cons, List.length_append, List.length_cons] at hf
    have hread := hv fuel _ (by omega) (ends_of_tail chars items (.inl rfl) rest)
    have hrest := ih hitems (List.cons_ne_nil (written v) acc) (by omega : _ < fuel)
    have hacc : acc.isEmpty = false := by simpa using ha
    rw [List.flatMap_cons, List.map_append, List.map_cons, List.cons_append, List.cons_append,
      List.append_assoc, Raw.readItems_comma hacc, hread, hrest]
    simp [writtenItems]

theorem readsBack_array {items : List Json} (hw : ∀ v ∈ items, v.Whole)
    (h : ∀ v ∈ items, ReadsBack v) : ReadsBack (.array items) := by
  intro fuel rest hf _
  cases items with
  | nil =>
    obtain ⟨fuel, rfl⟩ := Nat.exists_eq_add_of_le' (show 2 ≤ fuel from hf)
    exact Raw.readItems_close fuel [] rest
  | cons v items =>
    obtain ⟨hv, hitems⟩ := List.forall_mem_cons.mp h
    obtain ⟨c, cs, hcs, hc⟩ := exists_chars (hw v List.mem_cons_self)
    have hlength : (chars v).length = cs.length + 1 := by rw [hcs, List.length_cons]
    rw [chars_array_cons] at hf ⊢
    simp only [List.length_cons, List.length_append, List.length_nil] at hf
    obtain ⟨fuel, rfl⟩ := Nat.exists_eq_add_of_le' (show 2 ≤ fuel by omega)
    have hread := hv fuel _ (by omega) (ends_of_tail chars items (.inl rfl) rest)
    have hrest := readItems_more hitems (List.cons_ne_nil (written v) []) rest
      (by omega : _ < fuel)
    rw [hcs, List.map_cons, List.cons_append] at hread
    have hopen := Raw.readItems_first hc fuel
      (cs.map Piece.char ++
        ((items.flatMap (',' :: chars ·)).map Piece.char ++ .char ']' :: rest))
    rw [hread, hrest] at hopen
    refine Eq.trans ?_ hopen
    rw [hcs]
    simp [Raw.readValue, Raw.skip, Raw.isSpace]

namespace Raw

theorem readMembers_close (fuel : Nat) (acc : List (RawText × Raw)) (rest : List Piece) :
    readMembers (fuel + 1) acc (.char '\x7d' :: rest) = (.object acc.reverse none, rest) := by
  simp [readMembers, skip, isSpace]

theorem readMembers_first {name : RawText} {s rest : List Piece}
    (hs : readText [] s = (name, .char ':' :: rest)) (fuel : Nat) :
    readMembers (fuel + 1) [] (.char '"' :: s) =
      readMembers fuel [(name, (readValue fuel rest).1)] (readValue fuel rest).2 := by
  simp [readMembers, skip, isSpace, hs]

theorem readMembers_comma {acc : List (RawText × Raw)} (ha : acc.isEmpty = false) {name : RawText}
    {s rest : List Piece} (hs : readText [] s = (name, .char ':' :: rest)) (fuel : Nat) :
    readMembers (fuel + 1) acc (.char ',' :: .char '"' :: s) =
      readMembers fuel ((name, (readValue fuel rest).1) :: acc) (readValue fuel rest).2 := by
  simp [readMembers, skip, isSpace, hs, ha]

end Raw

/-- A member's text is its name, up to the colon, and then its value. -/
theorem exists_memberChars (m : String × Json) : ∃ s : List Char, memberChars m = '"' :: s ∧
    (chars m.2).length < s.length ∧ ∀ rest : List Piece,
      Raw.readText [] (s.map Piece.char ++ rest) =
        (writtenText m.1, .char ':' :: ((chars m.2).map Piece.char ++ rest)) := by
  obtain ⟨cs, hcs, -⟩ := readText_renderText m.1 []
  refine ⟨cs ++ ':' :: chars m.2, by rw [memberChars, hcs, List.cons_append], ?_, fun rest => ?_⟩
  · rw [List.length_append, List.length_cons]
    omega
  · obtain ⟨ds, hds, hread⟩ :=
      readText_renderText m.1 (.char ':' :: ((chars m.2).map Piece.char ++ rest))
    obtain rfl : cs = ds := (List.cons.inj (hcs.symm.trans hds)).2
    simpa using hread

theorem readMembers_more {ms : Members} (h : ∀ m ∈ ms, ReadsBack m.2)
    {acc : List (RawText × Raw)} (ha : acc ≠ []) {fuel : Nat} (rest : List Piece)
    (hf : (ms.flatMap fun m => ',' :: memberChars m).length < fuel) :
    Raw.readMembers fuel acc
        ((ms.flatMap fun m => ',' :: memberChars m).map Piece.char ++ .char '\x7d' :: rest) =
      (.object (acc.reverse ++ writtenMembers ms) none, rest) := by
  induction ms generalizing acc fuel with
  | nil =>
    obtain ⟨fuel, rfl⟩ := Nat.exists_eq_add_one_of_ne_zero (Nat.ne_zero_of_lt hf)
    rw [writtenMembers, List.append_nil]
    exact Raw.readMembers_close fuel acc rest
  | cons m ms ih =>
    obtain ⟨fuel, rfl⟩ := Nat.exists_eq_add_one_of_ne_zero (Nat.ne_zero_of_lt hf)
    obtain ⟨hm, hms⟩ := List.forall_mem_cons.mp h
    obtain ⟨s, hs, hlength, hname⟩ := exists_memberChars m
    rw [List.flatMap_cons, List.length_append, List.length_cons, hs, List.length_cons] at hf
    have hread := hm fuel _ (by omega) (ends_of_tail memberChars ms (.inr rfl) rest)
    have hrest := ih hms (List.cons_ne_nil (writtenText m.1, written m.2) acc)
      (by omega : _ < fuel)
    have hacc : acc.isEmpty = false := by simpa using ha
    rw [List.flatMap_cons, List.map_append, List.map_cons, List.cons_append, List.cons_append,
      List.append_assoc, hs, List.map_cons, List.cons_append,
      Raw.readMembers_comma hacc (hname _), hread, hrest]
    simp [writtenMembers]

theorem readsBack_object {ms : Members} (h : ∀ m ∈ ms, ReadsBack m.2) :
    ReadsBack (.object ms) := by
  intro fuel rest hf _
  cases ms with
  | nil =>
    obtain ⟨fuel, rfl⟩ := Nat.exists_eq_add_of_le' (show 2 ≤ fuel from hf)
    exact Raw.readMembers_close fuel [] rest
  | cons m ms =>
    obtain ⟨hm, hms⟩ := List.forall_mem_cons.mp h
    obtain ⟨s, hs, hlength, hname⟩ := exists_memberChars m
    rw [chars_object_cons, hs] at hf ⊢
    simp only [List.length_cons, List.length_append, List.length_nil] at hf
    obtain ⟨fuel, rfl⟩ := Nat.exists_eq_add_of_le' (show 2 ≤ fuel by omega)
    have hread := hm fuel _ (by omega) (ends_of_tail memberChars ms (.inr rfl) rest)
    have hrest := readMembers_more hms (List.cons_ne_nil (writtenText m.1, written m.2) []) rest
      (by omega : _ < fuel)
    have hopen := Raw.readMembers_first
      (hname ((ms.flatMap (',' :: memberChars ·)).map Piece.char ++ .char '\x7d' :: rest)) fuel
    rw [hread, hrest] at hopen
    refine Eq.trans ?_ hopen
    simp [Raw.readValue, Raw.skip, Raw.isSpace]

theorem readsBack {depth : Nat} {v : Json} (h : Fits depth v) : ReadsBack v := by
  obtain ⟨hshaped, hwhole⟩ := h
  induction hshaped with
  | null =>
    intro fuel rest hf _
    obtain ⟨fuel, rfl⟩ := Nat.exists_eq_add_of_le' (show 4 ≤ fuel from hf)
    rfl
  | bool b =>
    intro fuel rest hf _
    cases b with
    | false =>
      obtain ⟨fuel, rfl⟩ := Nat.exists_eq_add_of_le' (show 5 ≤ fuel from hf)
      rfl
    | true =>
      obtain ⟨fuel, rfl⟩ := Nat.exists_eq_add_of_le' (show 4 ≤ fuel from hf)
      rfl
  | number n =>
    intro fuel rest hf hr
    obtain ⟨c, cs, hcs, -⟩ := Number.exists_render (whole_number.mp hwhole)
    have hlength : 1 ≤ (chars (.number n)).length := by
      change 1 ≤ n.render.toList.length
      rw [hcs, List.length_cons]
      omega
    obtain ⟨fuel, rfl⟩ := Nat.exists_eq_add_of_le' (Nat.le_trans hlength hf)
    exact readValue_number (whole_number.mp hwhole) fuel hr
  | string s =>
    intro fuel rest hf _
    obtain ⟨cs, hcs, hread⟩ := readText_renderText s rest
    change (renderText s).toList.length ≤ fuel at hf
    rw [hcs, List.length_cons] at hf
    obtain ⟨fuel, rfl⟩ := Nat.exists_eq_add_of_le' (show 1 ≤ fuel by omega)
    change Raw.readValue _ ((renderText s).toList.map Piece.char ++ rest) = _
    rw [hcs]
    simp [Raw.readValue, Raw.skip, Raw.isSpace, hread, written]
  | array values ih =>
    have hwhole := whole_array.mp hwhole
    exact readsBack_array hwhole fun v hv => ih v hv (hwhole v hv)
  | object names values ih =>
    exact readsBack_object fun m hm => ih m hm (whole_object.mp hwhole m hm)

theorem decode_bytesOf (s : String) : Utf8.decode (Utf8.bytesOf s) = s.toList.map Piece.char :=
  Utf8.decode_encode s.toList

/-- The document printed for a value is read as the value, with nothing behind it. -/
theorem read_render {depth : Nat} {v : Json} (h : Fits depth v) :
    Document.read (Utf8.bytesOf v.render) = ⟨written v, false⟩ := by
  have hread := readsBack h (2 * (chars v).length + 2) [] (by omega) (.inl rfl)
  rw [List.append_nil] at hread
  rw [Document.read, decode_bytesOf, List.length_map]
  dsimp only [chars] at hread ⊢
  rw [hread]
  rfl

theorem readDocument_eq_ok {α : Type} {f : Raw → Except Fault α} {bytes : List UInt8} {x : α} :
    readDocument f bytes = .ok x ↔
      f (Document.read bytes).value = .ok x ∧ (Document.read bytes).trailing = false := by
  rw [readDocument, bind_eq_ok]
  constructor
  · rintro ⟨y, hy, hrest⟩
    cases ht : (Document.read bytes).trailing with
    | true => simp [ht, bind, Except.bind, throw, throwThe, MonadExceptOf.throw] at hrest
    | false =>
      simp only [ht, Bool.false_eq_true, if_false] at hrest
      cases hrest
      exact ⟨hy, rfl⟩
  · rintro ⟨hx, ht⟩
    refine ⟨x, hx, ?_⟩
    simp only [ht, Bool.false_eq_true, if_false]
    rfl

/-- A value that fits is read from the bytes that it is printed as. -/
theorem ofBytes_render {v : Json} (h : Fits maxDepth v) :
    ofBytes (Utf8.bytesOf v.render) = .ok v := by
  rw [ofBytes, readDocument_eq_ok, read_render h]
  exact ⟨toJson_written h, rfl⟩

end NpuRuntime.Json
