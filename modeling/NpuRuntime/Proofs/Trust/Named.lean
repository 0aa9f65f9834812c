import NpuRuntime.Proofs.Text.Pieces
import NpuRuntime.Trust.Basic

/-! # What a text names
The texts that may stand for a path at all, and the names that such a text leads through. No file
is looked at. -/
namespace NpuRuntime

namespace Text

theorem occurs_iff {part l : List Char} : occurs part l = true ↔ part <:+: l := by
  induction l with
  | nil => simp [occurs]
  | cons c l ih =>
    rw [occurs, Bool.or_eq_true, ih, List.isPrefixOf_iff_prefix, List.infix_cons_iff]

theorem isPlain_iff {s extra : String} {min max : Nat} : isPlain s min max extra = true ↔
    min < s.utf8ByteSize ∧ s.utf8ByteSize < max ∧
      ∀ c ∈ s.toList, c.isAlphanum = true ∨ c ∈ extra.toList := by
  simp [isPlain, and_assoc]

end Text

/-- A name as a directory holds it. -/
structure IsName (name : String) : Prop where
  nonempty : name ≠ ""
  single : '/' ∉ name.toList

theorem names_read_append (base name : String) : (Route.read (base ++ "/" ++ name)).names =
    (Route.read base).names ++ (Route.read name).names := by
  have hslash : "/" = String.ofList ['/'] := by decide
  rw [Route.read, hslash, Text.pieces_append, List.filter_append]
  rfl

theorem names_read_of_isName {name : String} (hname : IsName name) :
    (Route.read name).names = [name] := by
  have hstands : decide (name ≠ "") = true := decide_eq_true hname.nonempty
  simp only [Route.read, Text.pieces_of_not_mem hname.single, List.filter_cons, hstands, if_pos,
    List.filter_nil]

theorem text_eq_join (p : Path) : p.text = "" ++ "/" ++ Text.join '/' p := by
  apply String.toList_injective
  simp [Path.text, Text.join, String.toList_intercalate]

/-- The text of a path reads back as its names. -/
theorem names_read_text {p : Path} (hp : ∀ name ∈ p, IsName name) :
    (Route.read p.text).names = p := by
  rw [text_eq_join, names_read_append]
  have hempty : (Route.read "").names = [] := by decide
  rw [hempty, List.nil_append]
  cases p with
  | nil => exact hempty
  | cons first rest =>
    rw [Route.read, Text.pieces_join (fun name hname => (hp name hname).single)
      (List.cons_ne_nil first rest)]
    exact List.filter_eq_self.mpr fun name hname => decide_eq_true (hp name hname).nonempty

/-- A relative text goes behind the directory that it is joined to. -/
theorem names_read_join_relative {base text : String} (htext : text.toList.head? ≠ some '/') :
    (Route.read (PathText.join base text)).names =
      (Route.read base).names ++ (Route.read text).names := by
  unfold PathText.join
  rw [if_neg htext]
  split
  · next hbase =>
    rcases hbase with rfl | hbase
    · rw [String.empty_append]
      rfl
    · obtain ⟨front, hfront⟩ := List.getLast?_eq_some_iff.mp hbase
      have hslash : base = String.ofList front ++ "/" ++ "" := by
        apply String.toList_injective
        simp [hfront]
      have hempty : (Route.read "").names = [] := by decide
      rw [hslash, names_read_append, hempty, List.append_nil, String.append_empty,
        names_read_append]
  · exact names_read_append base text

theorem names_read_join {base name : String} (hname : IsName name) :
    (Route.read (PathText.join base name)).names = (Route.read base).names ++ [name] := by
  have hhead : name.toList.head? ≠ some '/' := fun hs => hname.single (List.mem_of_head? hs)
  rw [names_read_join_relative hhead, names_read_of_isName hname]

theorem head?_join {base name : String} (hbase : base ≠ "") (hname : name.toList.head? ≠ some '/') :
    (PathText.join base name).toList.head? = base.toList.head? := by
  unfold PathText.join
  rw [if_neg hname]
  cases hchars : base.toList with
  | nil => exact absurd (String.toList_injective hchars) hbase
  | cons c cs => split <;> simp [hchars]

namespace Trust

/-- A text that may stand for a path: neither empty nor long, of plain characters, and without an
upward step. -/
structure IsPathText (text : String) : Prop where
  nonempty : text ≠ ""
  short : text.utf8ByteSize < 4096
  forward : ¬ ['.', '.'] <:+: text.toList
  plain : ∀ c ∈ text.toList, c.isAlphanum = true ∨ c ∈ ['-', '_', '.', '/', '~']

theorem isSafe_iff {text : String} : PathText.isSafe text = true ↔ IsPathText text := by
  have hdots : Text.holds text ".." = true ↔ ['.', '.'] <:+: text.toList := Text.occurs_iff
  have hempty : 0 < text.utf8ByteSize ↔ text ≠ "" := by
    rw [Nat.pos_iff_ne_zero, ne_eq, ne_eq, String.utf8ByteSize_eq_zero_iff]
  rw [PathText.isSafe, Bool.and_eq_true, Bool.not_eq_true', ← Bool.not_eq_true, hdots,
    Text.isPlain_iff, hempty]
  constructor
  · rintro ⟨hforward, hnonempty, hshort, hplain⟩
    exact ⟨hnonempty, hshort, hforward, hplain⟩
  · intro ht
    exact ⟨ht.forward, ht.nonempty, ht.short, ht.plain⟩

/-- The names of a text, from the root or else from the current directory on. Empty ones and dots
are left out, none leads upwards, and the last one is not long. -/
def Names (h : Host) (text : String) (p : Path) : Prop :=
  ∃ base, (if text.toList.head? = some '/' then base = [] else h.cwd = some base) ∧
    p = base.filter (· ≠ ".") ++
      (Text.pieces '/' text).filter (fun name => name ≠ "" ∧ name ≠ ".") ∧
    ".." ∉ p ∧ ∀ last ∈ p.getLast?, last.utf8ByteSize < 256

theorem names_read (text : String) : (Route.read text).names.filter (· ≠ ".") =
    (Text.pieces '/' text).filter fun name => name ≠ "" ∧ name ≠ "." := by
  rw [Route.read, List.filter_filter]
  refine List.filter_congr fun name _ => ?_
  rw [← Bool.decide_and]
  exact decide_eq_decide.mpr and_comm

theorem size_last_iff (p : Path) : ¬ (p.getLast?.getD "").utf8ByteSize ≥ Path.maxName ↔
    ∀ last ∈ p.getLast?, last.utf8ByteSize < 256 := by
  have hempty : "".utf8ByteSize = 0 := rfl
  cases p.getLast? <;> simp [Path.maxName, hempty]

/-- A text has a path exactly if it may stand for one and its names can be told. -/
theorem absolute_eq_ok_iff {h : Host} {text : String} {p : Path} :
    absolute h text = .ok p ↔ IsPathText text ∧ Names h text p := by
  have hbase (base : Path) :
      (if (Route.read text).absolute = true then some [] else h.cwd) = some base ↔
        if text.toList.head? = some '/' then base = [] else h.cwd = some base := by
    by_cases habs : text.toList.head? = some '/'
    · simp [Route.read, habs, @eq_comm Path []]
    · simp [Route.read, habs]
  unfold absolute
  rw [← isSafe_iff]
  by_cases hsafe : PathText.isSafe text = true
  · simp only [hsafe, Bool.not_true, Bool.false_eq_true, if_false, true_and, Names, ← hbase,
      ← names_read, ← List.filter_append]
    cases if (Route.read text).absolute = true then some [] else h.cwd with
    | none => simp
    | some base =>
      dsimp only
      split
      · next hups =>
        simp only [reduceCtorEq, false_iff]
        rintro ⟨found, hfound, rfl, hup, -⟩
        cases hfound
        exact hup (List.contains_iff_mem.mp hups)
      split
      · next hlong =>
        simp only [reduceCtorEq, false_iff]
        rintro ⟨found, hfound, rfl, -, hlast⟩
        cases hfound
        exact (size_last_iff _).mpr hlast hlong
      · next hup hlast =>
        constructor
        · intro hp
          cases hp
          exact ⟨base, rfl, rfl, fun hm => hup (List.contains_iff_mem.mpr hm),
            (size_last_iff _).mp hlast⟩
        · rintro ⟨found, hfound, rfl, -⟩
          cases hfound
          rfl
  · simp [hsafe]

end Trust

end NpuRuntime
