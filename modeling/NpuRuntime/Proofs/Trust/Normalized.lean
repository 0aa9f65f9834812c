import Mathlib.Algebra.Order.BigOperators.Group.List
import Mathlib.Algebra.Order.Group.Nat
import NpuRuntime.Proofs.Host.Dots
import NpuRuntime.Proofs.Trust.Unlinked

/-! # Normal paths
What is left of a text once its dots and repeated slashes are gone is a path in its own right: it
stands for itself, and on every host it leads to where the text leads. -/
namespace NpuRuntime

open Files

/-- The names of an absolute text are the pieces behind its first slash. -/
theorem exists_pieces_of_absolute {text : String} (htext : text.toList.head? = some '/') :
    ∃ rest, Text.pieces '/' text = "" :: rest ∧ rest ≠ [] := by
  obtain ⟨cs, hcs⟩ := List.head?_eq_some_iff.mp htext
  have hsplit : text = "" ++ String.ofList ['/'] ++ String.ofList cs := by
    apply String.toList_injective
    simp [hcs]
  refine ⟨Text.pieces '/' (String.ofList cs), ?_, by simp [Text.pieces]⟩
  rw [hsplit, Text.pieces_append]
  rfl

/-- Each part but the first one comes with a separator. -/
theorem Text.size_join (sep : Char) (first : String) (rest : List String) :
    (Text.join sep (first :: rest)).utf8ByteSize =
      first.utf8ByteSize + (rest.map fun part => sep.utf8Size + part.utf8ByteSize).sum := by
  induction rest generalizing first with
  | nil => simp [Text.join]
  | cons second rest ih =>
    have hsep : (String.ofList [sep]).utf8ByteSize = sep.utf8Size := by simp
    rw [Text.join_cons_cons, String.utf8ByteSize_append, String.utf8ByteSize_append, hsep, ih,
      List.map_cons, List.sum_cons]
    omega

theorem size_text {p : Path} (hp : p ≠ []) :
    p.text.utf8ByteSize = (p.map fun name => '/'.utf8Size + name.utf8ByteSize).sum := by
  obtain ⟨first, rest, rfl⟩ := List.exists_cons_of_ne_nil hp
  have hslash : "/" = String.ofList ['/'] := by decide
  rw [text_eq_join, hslash, ← Text.join_cons_cons, Text.size_join]
  simp

/-- Leaving names out makes no text longer. -/
theorem size_text_le {text : String} {p : Path} (htext : text.toList.head? = some '/')
    (hp : p.Sublist (Route.read text).names) : p.text.utf8ByteSize ≤ text.utf8ByteSize := by
  obtain ⟨rest, hpieces, hrest⟩ := exists_pieces_of_absolute htext
  have hsize : text.utf8ByteSize =
      (rest.map fun part => '/'.utf8Size + part.utf8ByteSize).sum := by
    conv_lhs => rw [← Text.join_pieces '/' text, hpieces, Text.size_join]
    simp
  have hsub : p.Sublist rest := by
    have hnames : (Route.read text).names = rest.filter (· ≠ "") := by
      simp [Route.read, hpieces]
    exact (hnames ▸ hp).trans List.filter_sublist
  by_cases hempty : p = []
  · obtain ⟨part, parts, rfl⟩ := List.exists_cons_of_ne_nil hrest
    have hone : (Path.text []).utf8ByteSize = '/'.utf8Size := by decide
    rw [hempty, hsize, hone, List.map_cons, List.sum_cons]
    omega
  · rw [size_text hempty, hsize]
    exact (hsub.map _).sum_le_sum fun _ _ => Nat.zero_le _

/-- A text without names is made of slashes. -/
theorem endsInSlash_of_names_eq_nil {text : String} (htext : text.toList.head? = some '/')
    (hnames : (Route.read text).names = []) : (Route.read text).endsInSlash = true := by
  have hne : text.toList ≠ [] := by
    intro h
    simp [h] at htext
  obtain ⟨front, last, hlast⟩ := List.eq_nil_or_concat' text.toList |>.resolve_left hne
  have hslash : last = '/' := by
    by_contra hother
    have hnone : '/' ∉ [last] := by simpa using Ne.symm hother
    obtain ⟨pieces, piece, -, hsplit⟩ := Text.splitOn_append_right hnone front
    have hmem : String.ofList (piece ++ [last]) ∈ (Route.read text).names := by
      refine List.mem_filter.mpr ⟨?_, ?_⟩
      · rw [Text.pieces, hlast, hsplit]
        simp
      · refine decide_eq_true fun h => ?_
        simpa using congrArg String.toList h
    rw [hnames] at hmem
    cases hmem
  simp [Route.read, hlast, hslash]

theorem canonical_absolute_iff {h : Host} {r : Route} {real : Path} (hr : r.absolute = true) :
    h.canonical r = .ok real ↔ r.size < Path.maxText ∧ r.size ≠ 0 ∧
      ∃ w, h.files.walk h.effective maxLinks [] r.names r.endsInSlash [] = .ok w ∧
        w.reached = real := by
  have hwalk : h.canonical r = .ok real ↔ ∃ w, h.walk r = .ok w ∧ w.reached = real := by
    unfold Host.canonical
    rw [bind_eq_ok]
    exact exists_congr fun w => and_congr_right fun _ => ⟨Except.ok.inj, congrArg Except.ok⟩
  rw [hwalk, Host.walk, Host.walkAs, if_pos hr]
  by_cases hlong : r.size ≥ Path.maxText
  · simp [hlong]
  by_cases hempty : r.size = 0
  · rw [if_neg hlong, if_pos hempty]
    simp [hempty]
  · rw [if_neg hlong, if_neg hempty]
    exact ⟨fun hw => ⟨Nat.not_le.mp hlong, hempty, hw⟩, fun hw => hw.2.2⟩

/-- A path leads to where an absolute text leads that has its names and dots besides. -/
theorem canonical_of_filter {h : Host} {text : String} {real : Path}
    (htext : text.toList.head? = some '/') (hc : h.canonical (Route.read text) = .ok real) :
    h.canonical (Route.ofPath ((Route.read text).names.filter (· ≠ "."))) = .ok real := by
  have habsolute : (Route.read text).absolute = true := by simp [Route.read, htext]
  obtain ⟨hshort, -, w, hw, hreached⟩ := (canonical_absolute_iff habsolute).mp hc
  have hsize := size_text_le htext (List.filter_sublist (p := (· ≠ ".")))
  refine (canonical_absolute_iff rfl).mpr ⟨Nat.lt_of_le_of_lt hsize hshort, fun hempty => ?_, w,
    ?_, hreached⟩
  · have hhead := Trust.head?_text ((Route.read text).names.filter (· ≠ "."))
    rw [String.utf8ByteSize_eq_zero_iff.mp hempty] at hhead
    simp at hhead
  · refine walk_ignoresDots _ _ _ _ _ _ _ _ _ _ (.filter _) (fun hroot => ?_) hw
    have hdropped : DropsDots (Route.read text).names [] :=
      List.isEmpty_iff.mp hroot ▸ DropsDots.filter (Route.read text).names
    by_cases hnames : (Route.read text).names = []
    · exact .inl (endsInSlash_of_names_eq_nil htext hnames)
    · exact .inr (hdropped.getLast?_of_nil hnames)

namespace Trust

variable {h : Host} {text : String} {p : Path}

/-- A text as it is seen from the root: an absolute one stands for itself, any other is joined to
the current directory. -/
def rooted? (h : Host) (text : String) : Option String :=
  if text.toList.head? = some '/' then some text
  else h.cwd.map fun cwd => PathText.join (Path.text cwd) text

/-- The path of a text has the names of the text from the root, without the dots. -/
theorem exists_rooted_of_absolute (hcwd : ∀ cwd ∈ h.cwd, ∀ name ∈ cwd, IsName name)
    (hp : absolute h text = .ok p) : ∃ whole, rooted? h text = some whole ∧
      whole.toList.head? = some '/' ∧ (Route.read whole).names.filter (· ≠ ".") = p := by
  obtain ⟨-, base, hbase, rfl, -⟩ := absolute_eq_ok_iff.mp hp
  unfold rooted?
  split at hbase
  · next hhead =>
    refine ⟨text, by rw [if_pos hhead], hhead, ?_⟩
    rw [names_read, hbase]
    rfl
  · next hhead =>
    refine ⟨PathText.join (Path.text base) text, by rw [if_neg hhead, hbase]; rfl, ?_, ?_⟩
    · rw [head?_join _ hhead, head?_text]
      intro hempty
      have hslash := head?_text base
      simp [hempty] at hslash
    · rw [names_read_join_relative hhead, names_read_text (hcwd base hbase), List.filter_append,
        names_read]

theorem isNormal_of_absolute (hcwd : ∀ cwd ∈ h.cwd, ∀ name ∈ cwd, IsName name)
    (hp : absolute h text = .ok p) : IsNormal p := by
  have hnames := isName_of_absolute hcwd hp
  obtain ⟨-, base, -, rfl, hup, -⟩ := absolute_eq_ok_iff.mp hp
  intro name hname
  refine ⟨hnames name hname, ?_, fun h => hup (h ▸ hname)⟩
  rcases List.mem_append.mp hname with hname | hname
  · exact of_decide_eq_true (List.mem_filter.mp hname).2
  · exact (of_decide_eq_true (List.mem_filter.mp hname).2).2

/-- The path of a text is a normal one and stands for itself. Wherever the text leads, over
whatever links, there leads the path. -/
theorem absolute_normalizes (hcwd : ∀ cwd ∈ h.cwd, ∀ name ∈ cwd, IsName name)
    (hp : absolute h text = .ok p) :
    IsNormal p ∧
    (PathText.isSafe p.text = true → ∀ g : Host, absolute g p.text = .ok p) ∧
    ∃ whole, rooted? h text = some whole ∧ ∀ real,
      h.canonical (Route.read whole) = .ok real → h.canonical (Route.ofPath p) = .ok real := by
  have hnormal := isNormal_of_absolute hcwd hp
  obtain ⟨-, -, -, -, -, hlast⟩ := absolute_eq_ok_iff.mp hp
  obtain ⟨whole, hwhole, hhead, hnames⟩ := exists_rooted_of_absolute hcwd hp
  refine ⟨hnormal, fun hsafe g => ?_, whole, hwhole, ?_⟩
  · exact (absolute_text_iff hnormal).mpr ⟨rfl, isSafe_iff.mp hsafe, hlast⟩
  · intro real hreal
    rw [← hnames]
    exact canonical_of_filter hhead hreal

/-- A process that stands next to a link. -/
def besideLink : Host := { linked 0o755 with cwd := some ["middle"] }

/-- A text with dots and repeated slashes that leads over the link. -/
theorem absolute_normalizes_beside_link :
    absolute besideLink ".//./link" = .ok ["middle", "link"] ∧
      absolute { besideLink with cwd := none } "/middle/link" = .ok ["middle", "link"] ∧
      rooted? besideLink ".//./link" = some "/middle/.//./link" ∧
      besideLink.canonical (Route.read "/middle/.//./link") = .ok ["last", "file"] ∧
      besideLink.canonical (Route.ofPath ["middle", "link"]) = .ok ["last", "file"] := by
  have hcwd : ∀ cwd ∈ besideLink.cwd, ∀ name ∈ cwd, IsName name := by
    rintro cwd ⟨⟩ name hname
    obtain rfl := List.mem_singleton.mp hname
    exact ⟨by decide, by decide⟩
  have hp : absolute besideLink ".//./link" = .ok ["middle", "link"] := by decide +kernel
  have hrooted : rooted? besideLink ".//./link" = some "/middle/.//./link" := by decide +kernel
  have hreal : besideLink.canonical (Route.read "/middle/.//./link") = .ok ["last", "file"] := by
    decide +kernel
  have hsafe : PathText.isSafe (Path.text ["middle", "link"]) = true := by decide +kernel
  obtain ⟨-, hself, whole, hwhole, hleads⟩ := absolute_normalizes hcwd hp
  obtain rfl := Option.some.inj (hrooted.symm.trans hwhole)
  exact ⟨hp, hself hsafe _, hrooted, hreal, hleads _ hreal⟩

end Trust

end NpuRuntime
