import Mathlib.Data.List.Forall2
import NpuRuntime.Mount.List
import NpuRuntime.Proofs.Query.Run
import NpuRuntime.Proofs.Text.Decoding

/-! # Lists are read whole
All lists of a directory are read, one after the other, or none is. What they name is told line by
line: a line that names a file or a directory adds it, in the order of the lines, and any other line
is passed over. -/
namespace NpuRuntime.Mounts

open Query

variable {σ ω : Type} {h : Host} {dir name line path : String} {lines : List String}

/-- A trimmed line that is not blank names the node that its absolute form leads to, all links
followed. -/
structure Names (h : Host) (line path : String) (n : Node) : Prop where
  filled : Text.trim line ≠ ""
  absolute : PathText.absolute? h.cwd (Text.trim line) = some path
  node : h.node (Route.read path) = .ok n

/-- The absolute form of a line and the node that it names. -/
def named? (h : Host) (line : String) : Option (String × Node) :=
  if Text.trim line = "" then none
  else (PathText.absolute? h.cwd (Text.trim line)).bind fun path =>
    (h.node (Route.read path)).toOption.map fun n => (path, n)

theorem named?_eq_some_iff {n : Node} :
    named? h line = some (path, n) ↔ Names h line path n := by
  unfold named?
  split
  · next hblank => exact iff_of_false nofun fun hn => hn.filled hblank
  · next hfilled =>
    rw [Option.bind_eq_some_iff]
    constructor
    · rintro ⟨found, hfound, hnode⟩
      obtain ⟨m, hm, hpair⟩ := Option.map_eq_some_iff.mp hnode
      obtain ⟨rfl, rfl⟩ := Prod.mk.inj hpair
      cases hn : h.node (Route.read found) with
      | error e => simp [hn, Except.toOption] at hm
      | ok k =>
        rw [hn] at hm
        obtain rfl := Option.some.inj hm
        exact ⟨hfilled, hfound, hn⟩
    · intro hn
      exact ⟨path, hn.absolute, by rw [hn.node]; rfl⟩

/-- The files and the directories that some lines name, in the order of the lines. -/
def gathered (h : Host) (lines : List String) : Mounts where
  files := ((lines.filterMap (named? h)).filter (·.2.isFile)).map Prod.fst
  directories := ((lines.filterMap (named? h)).filter (·.2.isDirectory)).map Prod.fst

theorem gathered_append (h : Host) (first rest : List String) :
    gathered h (first ++ rest) = (gathered h first).append (gathered h rest) := by
  simp [gathered, append]

/-- What is kept of the nodes that some lines name, by the kind of node. -/
theorem mem_gathered {p : Node → Bool} :
    path ∈ ((lines.filterMap (named? h)).filter fun named => p named.2).map Prod.fst ↔
      ∃ line ∈ lines, ∃ n, Names h line path n ∧ p n = true := by
  simp only [List.mem_map, List.mem_filter, List.mem_filterMap]
  constructor
  · rintro ⟨⟨found, n⟩, ⟨⟨line, hline, hnamed⟩, hkind⟩, rfl⟩
    exact ⟨line, hline, n, named?_eq_some_iff.mp hnamed, hkind⟩
  · rintro ⟨line, hline, n, hn, hkind⟩
    exact ⟨(path, n), ⟨⟨line, hline, named?_eq_some_iff.mpr hn⟩, hkind⟩, rfl⟩

theorem not_isDirectory_of_isFile {n : Node} (hn : n.isFile = true) : n.isDirectory = false := by
  unfold Node.isFile at hn
  unfold Node.isDirectory
  cases hkind : n.kind <;> simp [hkind] at hn ⊢

/-- A path leads to one node, whichever line named it. -/
theorem not_mem_directories_of_mem_files (hfile : path ∈ (gathered h lines).files) :
    path ∉ (gathered h lines).directories := by
  intro hdirectory
  obtain ⟨_, _, n, hn, hfile⟩ := mem_gathered.mp hfile
  obtain ⟨_, _, m, hm, hdirectory⟩ := mem_gathered.mp hdirectory
  obtain rfl := Except.ok.inj (hn.node.symm.trans hm.node)
  rw [not_isDirectory_of_isFile hfile] at hdirectory
  cases hdirectory

theorem gathered_of_none (hn : named? h line = none) : gathered h [line] = empty := by
  simp [gathered, hn, empty]

theorem gathered_of_some {n : Node} (hn : named? h line = some (path, n)) :
    gathered h [line] = if n.isFile then ⟨[path], []⟩
      else if n.isDirectory then ⟨[], [path]⟩ else empty := by
  have hone : [line].filterMap (named? h) = [(path, n)] := by simp [hn]
  rw [gathered, hone]
  cases hfile : n.isFile with
  | true =>
    have hdirectory := not_isDirectory_of_isFile hfile
    simp [hfile, hdirectory]
  | false => cases hdirectory : n.isDirectory <;> simp [hfile, hdirectory, empty]

/-- A line that is not blank adds what it names. If that cannot be mounted it is passed over. -/
theorem ofLine_cases (hfilled : Text.trim line ≠ "") :
    ofLine h (Text.trim line) = .ok (gathered h [line]) ∨
      ∃ shown, ofLine h (Text.trim line) = .error shown ∧ gathered h [line] = empty := by
  unfold ofLine
  cases hpath : PathText.absolute? h.cwd (Text.trim line) with
  | none =>
    have hnone : named? h line = none := by rw [named?, if_neg hfilled, hpath, Option.bind_none]
    exact .inr ⟨_, rfl, gathered_of_none hnone⟩
  | some path =>
    dsimp only
    cases hnode : h.node (Route.read path) with
    | error e =>
      have hnone : named? h line = none := by
        rw [named?, if_neg hfilled, hpath, Option.bind_some, hnode]
        rfl
      exact .inr ⟨_, rfl, gathered_of_none hnone⟩
    | ok n =>
      dsimp only
      rw [gathered_of_some (named?_eq_some_iff.mpr ⟨hfilled, hpath, hnode⟩)]
      cases n.isFile with
      | true => exact .inl rfl
      | false =>
        cases n.isDirectory with
        | true => exact .inl rfl
        | false => exact .inr ⟨path, rfl, rfl⟩

theorem ofLines_full (list : Path) (line : String) (lines : List String) :
    (ofLines h list maxEntries (line :: lines) : Act σ ω Failure Mounts) =
      throw (.ofFault (.tooMany .mountEntries (maxEntries + 1) maxEntries)) := by
  unfold ofLines
  rw [if_pos (Nat.le_refl maxEntries)]
  rfl

/-- What a trimmed line adds. If it is passed over that is recorded. -/
def addLine (h : Host) (list : Path) (line : String) : Act σ ω Failure Mounts :=
  if line = "" then pure empty
  else match ofLine h line with
    | .ok m => pure m
    | .error shown => do
      note ⟨.debug, .mounts, list.text ++ ": skipping " ++ shown⟩
      pure empty

theorem ofLines_cons (list : Path) {count : Nat} (hcount : count < maxEntries) (line : String)
    (lines : List String) : (ofLines h list count (line :: lines) : Act σ ω Failure Mounts) = do
      let here ← addLine h list (Text.trim line)
      return here.append (← ofLines h list (count + 1) lines) := by
  rw [ofLines.eq_def, addLine]
  dsimp only
  rw [if_neg (Nat.not_le.mpr hcount)]
  split
  · rfl
  · cases ofLine h (Text.trim line) <;> rfl

theorem outcome_addLine (list : Path) (line : String) (r : Run σ ω) : ∃ r',
    outcome (addLine h list (Text.trim line)) r = (.ok (gathered h [line]), r') := by
  unfold addLine
  by_cases hblank : Text.trim line = ""
  · have hnone : named? h line = none := by rw [named?, if_pos hblank]
    rw [if_pos hblank, gathered_of_none hnone]
    exact ⟨r, rfl⟩
  · rw [if_neg hblank]
    obtain hadded | ⟨shown, hskipped, hnone⟩ := ofLine_cases (h := h) hblank
    · rw [hadded]
      exact ⟨r, rfl⟩
    · rw [hskipped, hnone]
      exact ⟨_, rfl⟩

/-- A list of at most 128 lines, blank ones included, gives what they name; the line behind that
ends it. -/
theorem result_ofLines (list : Path) {count : Nat} (hcount : count ≤ maxEntries)
    (lines : List String) (r : Run σ ω) : (outcome (ofLines h list count lines) r).1 =
      if count + lines.length ≤ maxEntries then .ok (gathered h lines)
      else .error (.ofFault (.tooMany .mountEntries (maxEntries + 1) maxEntries)) := by
  induction lines generalizing count r with
  | nil =>
    rw [List.length_nil, Nat.add_zero, if_pos hcount]
    rfl
  | cons line lines ih =>
    rcases Nat.lt_or_eq_of_le hcount with hroom | rfl
    · obtain ⟨r', hline⟩ := outcome_addLine (h := h) list line r
      have hlength : count + (line :: lines).length = count + 1 + lines.length := by
        rw [List.length_cons]
        omega
      rw [ofLines_cons list hroom, outcome_bind, hline, hlength]
      dsimp only
      rw [result_bind_pure, ih hroom r']
      split
      · exact congrArg Except.ok (gathered_append h [line] lines).symm
      · rfl
    · rw [ofLines_full, if_neg (by rw [List.length_cons]; omega)]
      rfl

/-- The list of a name is a trusted file that can be read and holds these lines as text, no more
than 128 of them. -/
structure HasLines (h : Host) (dir : Path) (name : String) (lines : List String) : Prop where
  held : ∃ file content text,
    Trust.realFile h (PathText.join dir.text (name ++ "." ++ listSuffix)) = .ok file ∧
    h.read (Route.ofPath file) = .ok content ∧ content.toList = Utf8.bytesOf text ∧
    Text.lines text = lines
  short : lines.length ≤ 128

theorem listText_eq_ok_iff {file : Path} {text : String} : listText h file = .ok text ↔
    ∃ content, h.read (Route.ofPath file) = .ok content ∧ content.toList = Utf8.bytesOf text := by
  unfold listText
  cases hread : h.read (Route.ofPath file) with
  | error e => exact iff_of_false nofun nofun
  | ok content =>
    dsimp only
    cases htext : Utf8.text? content.toList with
    | none =>
      refine iff_of_false nofun ?_
      rintro ⟨found, hfound, hbytes⟩
      cases hfound
      rw [Utf8.text?_eq_some_iff.mpr hbytes] at htext
      cases htext
    | some found =>
      have hbytes := Utf8.text?_eq_some_iff.mp htext
      constructor
      · rintro ⟨⟩
        exact ⟨content, rfl, hbytes⟩
      · rintro ⟨_, ⟨⟩, hbytes'⟩
        rw [Utf8.text?_eq_some_iff.mpr hbytes'] at htext
        rw [Option.some.inj htext]

theorem result_readList {dir : Path} {m : Mounts} (r : Run σ ω) :
    (outcome (readList h dir.text name) r).1 = .ok m ↔
      ∃ lines, HasLines h dir name lines ∧ m = gathered h lines := by
  unfold readList
  dsimp only
  rw [result_ofExcept_bind]
  constructor
  · rintro ⟨file, hfile, hm⟩
    obtain ⟨text, htext, hm⟩ := result_ofExcept_bind.mp hm
    obtain ⟨content, hread, hbytes⟩ := listText_eq_ok_iff.mp htext
    rw [result_ofLines file (Nat.zero_le maxEntries), Nat.zero_add] at hm
    split at hm
    · next hshort =>
      obtain rfl := Except.ok.inj hm
      exact ⟨_, ⟨⟨file, content, text, mapError_eq_ok.mp hfile, hread, hbytes, rfl⟩, hshort⟩, rfl⟩
    · cases hm
  · rintro ⟨_, ⟨⟨file, content, text, hfile, hread, hbytes, rfl⟩, hshort⟩, rfl⟩
    have htext : listText h file = .ok text := listText_eq_ok_iff.mpr ⟨content, hread, hbytes⟩
    refine ⟨file, mapError_eq_ok.mpr hfile, result_ofExcept_bind.mpr ⟨text, htext, ?_⟩⟩
    rw [result_ofLines file (Nat.zero_le maxEntries), Nat.zero_add]
    exact if_pos hshort

theorem result_readNamed {dir : Path} {names : List String} {m : Mounts} (r : Run σ ω) :
    (outcome (readNamed h dir names) r).1 = .ok m ↔
      ∃ lists, List.Forall₂ (HasLines h dir) names lists ∧ m = gathered h lists.flatten := by
  induction names generalizing m r with
  | nil =>
    constructor
    · rintro ⟨⟩
      exact ⟨[], .nil, rfl⟩
    · rintro ⟨lists, hlists, rfl⟩
      cases hlists
      rfl
  | cons name names ih =>
    unfold readNamed
    constructor
    · intro hm
      obtain ⟨here, r', hhere, hm⟩ := outcome_bind_eq_ok.mp (outcome_eq_of_result hm)
      have hlist := congrArg Prod.fst (outcome_mapFailure_eq_ok.mp hhere)
      have hmore := congrArg Prod.fst hm
      rw [result_bind_pure, map_eq_ok] at hmore
      obtain ⟨first, hfirst, rfl⟩ := (result_readList r).mp hlist
      obtain ⟨more, hmore, rfl⟩ := hmore
      obtain ⟨lists, hlists, rfl⟩ := (ih r').mp hmore
      exact ⟨first :: lists, .cons hfirst hlists, (gathered_append h first lists.flatten).symm⟩
    · rintro ⟨_, hlists, rfl⟩
      obtain ⟨first, lists, hfirst, hothers, rfl⟩ := List.forall₂_cons_left_iff.mp hlists
      have hlist := (result_readList r).mpr ⟨first, hfirst, rfl⟩
      rw [outcome_bind, outcome_mapFailure, hlist]
      dsimp only [mapError_ok]
      rw [result_bind_pure, (ih _).mpr ⟨lists, hothers, rfl⟩]
      exact congrArg Except.ok (gathered_append h first lists.flatten).symm

/-- The directory is trusted, and these are the lines of the named lists in it. -/
def HasLists (h : Host) (dir : String) (names : List String) (lists : List (List String)) : Prop :=
  ∃ real, Trust.realDirectory h dir = .ok real ∧ List.Forall₂ (HasLines h real) names lists

theorem result_readLists {names : List String} {m : Mounts} (r : Run σ ω) :
    (outcome (readLists h dir names) r).1 = .ok m ↔
      ∃ lists, HasLists h dir names lists ∧ m = gathered h lists.flatten := by
  unfold readLists
  rw [result_ofExcept_bind]
  constructor
  · rintro ⟨real, hreal, hm⟩
    obtain ⟨lists, hlists, rfl⟩ := (result_readNamed r).mp hm
    exact ⟨lists, ⟨real, mapError_eq_ok.mp hreal, hlists⟩, rfl⟩
  · rintro ⟨lists, ⟨real, hreal, hlists⟩, rfl⟩
    exact ⟨real, mapError_eq_ok.mpr hreal, (result_readNamed r).mpr ⟨lists, hlists, rfl⟩⟩

theorem exists_forall₂_iff {α β : Type} {R : α → β → Prop} {xs : List α} :
    (∃ ys, List.Forall₂ R xs ys) ↔ ∀ x ∈ xs, ∃ y, R x y := by
  induction xs with
  | nil => exact iff_of_true ⟨[], .nil⟩ nofun
  | cons x xs ih =>
    rw [List.forall_mem_cons, ← ih]
    simp only [List.forall₂_cons_left_iff]
    constructor
    · rintro ⟨_, y, ys, hy, hys, -⟩
      exact ⟨⟨y, hy⟩, ⟨ys, hys⟩⟩
    · rintro ⟨⟨y, hy⟩, ⟨ys, hys⟩⟩
      exact ⟨_, y, ys, hy, hys, rfl⟩

/-- Lists are read exactly if the directory is trusted and each name has a list there. What is read
is then what the lines of all lists name, in the order of the names and of the lines, files and
directories apart. -/
theorem readLists_whole (h : Host) (dir : String) (names : List String) (r : Run σ ω) :
    ((∃ m, (outcome (readLists h dir names) r).1 = .ok m) ↔
      ∃ real, Trust.realDirectory h dir = .ok real ∧
        ∀ name ∈ names, ∃ lines, HasLines h real name lines) ∧
    ∀ m, (outcome (readLists h dir names) r).1 = .ok m →
      (∃ lists, HasLists h dir names lists ∧ m = gathered h lists.flatten) ∧
      ∀ path ∈ m.files, path ∉ m.directories := by
  refine ⟨?_, fun m hm => ?_⟩
  · simp only [← exists_forall₂_iff]
    constructor
    · rintro ⟨m, hm⟩
      obtain ⟨lists, ⟨real, hreal, hlists⟩, -⟩ := (result_readLists r).mp hm
      exact ⟨real, hreal, lists, hlists⟩
    · rintro ⟨real, hreal, lists, hlists⟩
      exact ⟨_, (result_readLists r).mpr ⟨lists, ⟨real, hreal, hlists⟩, rfl⟩⟩
  · obtain ⟨lists, hlists, rfl⟩ := (result_readLists r).mp hm
    exact ⟨⟨lists, hlists, rfl⟩, fun path => not_mem_directories_of_mem_files⟩

/-- Two lists, with blank and padded lines, a relative one and one that names nothing. -/
def shelved : Host where
  cwd := some ["opt"]
  files := ⟨[
    ([], Node.rootDirectory),
    (["opt"], Node.rootDirectory),
    (["opt", "lib"], ⟨.file ⟨[], 0⟩, 0o644, 0, 0⟩),
    (["opt", "link"], ⟨.link "/opt", 0o777, 0, 0⟩),
    (["opt", "a.list"], ⟨.file ⟨Utf8.bytesOf "/none\r\n\n ./lib \n/opt/link", 0⟩, 0o644, 0, 0⟩),
    (["opt", "b.list"], ⟨.file ⟨Utf8.bytesOf "/opt/lib\n", 0⟩, 0o644, 0, 0⟩)]⟩

example : (outcome (readLists shelved "/opt" ["b", "a"])
    ({ memory := (), work := () } : Run Unit Unit)).1 =
      .ok ⟨["/opt/lib", "/opt/lib"], ["/opt/link"]⟩ := by
  decide +kernel

end NpuRuntime.Mounts
