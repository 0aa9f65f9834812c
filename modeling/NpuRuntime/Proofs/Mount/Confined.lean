import NpuRuntime.Mount.List
import NpuRuntime.Proofs.Query.Run
import NpuRuntime.Proofs.Trust.Alike
import NpuRuntime.Proofs.Trust.Unlinked
import NpuRuntime.Selection.Mounts

/-! # Mount lists stay in their directory
A container names the lists, in whatever spelling. A name that is accepted is a plain one, so its
list lies right below the trusted directory, and no other file has a say in what is mounted. -/
namespace NpuRuntime

open Query

namespace MountNames

/-- Small letters, digits, underscores and dashes, and at least one of them. -/
structure IsListName (name : String) : Prop where
  nonempty : name ≠ ""
  plain : ∀ c ∈ name.toList, ('a' ≤ c ∧ c ≤ 'z') ∨ ('0' ≤ c ∧ c ≤ '9') ∨ c = '_' ∨ c = '-'

theorem isPlain_eq_true_iff {c : Char} : isPlain c = true ↔
    ('a' ≤ c ∧ c ≤ 'z') ∨ ('0' ≤ c ∧ c ≤ '9') ∨ c = '_' ∨ c = '-' := by
  have hlower : c.isLower = true ↔ 'a' ≤ c ∧ c ≤ 'z' :=
    Bool.and_eq_true_iff.trans (and_congr decide_eq_true_iff decide_eq_true_iff)
  have hdigit : c.isDigit = true ↔ '0' ≤ c ∧ c ≤ '9' :=
    Bool.and_eq_true_iff.trans (and_congr decide_eq_true_iff decide_eq_true_iff)
  simp only [isPlain, Bool.or_eq_true, hlower, hdigit, beq_iff_eq, or_assoc]

theorem isListName_iff {name : String} :
    IsListName name ↔ name ≠ "" ∧ name.toList.all isPlain = true := by
  rw [List.all_eq_true]
  simp only [isPlain_eq_true_iff]
  exact ⟨fun hn => ⟨hn.nonempty, hn.plain⟩, fun hn => ⟨hn.1, hn.2⟩⟩

/-- However a token was spelled, what it is turned into is looked at again. -/
theorem isListName_of_ofToken {token name : String} (h : ofToken token = .ok name) :
    IsListName name := by
  unfold ofToken at h
  dsimp only at h
  split at h
  · next hname =>
    obtain rfl := Except.ok.inj h
    exact isListName_iff.mpr hname
  · cases h

theorem isListName_of_parse {s : String} {names : List String} (h : parse s = .ok names) :
    ∀ name ∈ names, IsListName name := by
  unfold parse at h
  split at h
  · cases h
    intro name hname
    obtain rfl := List.mem_singleton.mp hname
    exact isListName_iff.mpr (by decide)
  · obtain ⟨⟨⟩, -, h⟩ := bind_eq_ok.mp h
    intro name hname
    obtain ⟨token, -, htoken⟩ := exists_of_mapM_eq_ok h name hname
    exact isListName_of_ofToken htoken

/-- The file of a list has a name that is a single one. -/
theorem IsListName.file {name : String} (hn : IsListName name) : IsName (name ++ ".list") where
  nonempty := by
    intro hempty
    have hchars := congrArg String.toList hempty
    rw [String.toList_append] at hchars
    exact absurd (List.append_eq_nil_iff.mp hchars).2 (by decide)
  single := by
    rw [String.toList_append, List.mem_append]
    rintro (hslash | hslash)
    · have hplain := hn.plain '/' hslash
      revert hplain
      decide
    · revert hslash
      decide

end MountNames

namespace Mounts

open Trust

variable {σ ω : Type} {h g : Host} {dir name text : String} {names : List String} {file : Path}

/-- A list of one of the names in the directory that passes all checks, and so is opened. -/
def Opens (h : Host) (dir : String) (names : List String) (file : Path) : Prop :=
  ∃ real, realDirectory h dir = .ok real ∧ ∃ name ∈ names,
    realFile h (PathText.join real.text (name ++ "." ++ listSuffix)) = .ok file

/-- The list of a name is a safe file right below a safe directory. -/
structure Confined (h : Host) (dir : String) (names : List String) (file : Path) : Prop where
  below : ∃ real, absolute h dir = .ok real ∧ h.canonical (Route.ofPath real) = .ok real ∧
    ∃ name ∈ names, file = real ++ [name ++ ".list"]
  guarded : Guarded h file
  holds : Holds h file Node.isFile

theorem listFile_eq (name : String) : name ++ "." ++ listSuffix = name ++ ".list" := by
  have hsuffix : "." ++ listSuffix = ".list" := by decide
  rw [String.append_assoc, hsuffix]

theorem confined_of_opens (hcwd : ∀ cwd ∈ h.cwd, ∀ name ∈ cwd, IsName name)
    (hnames : ∀ name ∈ names, MountNames.IsListName name) (ho : Opens h dir names file) :
    Confined h dir names file := by
  obtain ⟨real, hreal, name, hname, hfile⟩ := ho
  obtain ⟨hdir, hguarded, -⟩ := guarded_of_validate rfl rfl (validate_of_realDirectory hreal)
  obtain ⟨habsolute, hbelow, hholds⟩ := guarded_of_realFile hfile
  refine ⟨⟨real, hdir, hguarded.canonical, name, hname, ?_⟩, hbelow, hholds⟩
  have hplain := (hnames name hname).file
  rw [listFile_eq] at habsolute
  refine absolute_join (isName_of_absolute hcwd hdir) hguarded.direct hplain ?_ habsolute
  intro hdot
  have hlength := congrArg (·.toList.length) hdot
  simp at hlength

/-- A host like this one, with the same lists. In files that are not opened here it may hold other
bytes, as many of them, and its environment is of no account. -/
structure SameLists (h g : Host) (dir : String) (names : List String) : Prop where
  alike : h.Alike g
  sizes : ∀ p n m, h.files.node? p = some n → g.files.node? p = some m → m.size = n.size
  opened : ∀ file, Opens h dir names file → g.files.node? file = h.files.node? file

theorem realDirectory_same (hs : SameLists h g dir names) (text : String) :
    realDirectory g text = realDirectory h text := by
  unfold realDirectory
  rw [validate_eq_of_sizes hs.alike hs.sizes]
  refine congrArg (validate h text Policy.directory >>= ·) (funext fun real => ?_)
  unfold onlyDirectory
  obtain ⟨e, hn, hm⟩ | ⟨n, m, hl, hn, hm⟩ := Host.node_alike_cases hs.alike (Route.ofPath real)
  · rw [hn, hm]
  · rw [hn, hm]
    dsimp only
    rw [hl.isDirectory]

/-- Lines name files that are looked at but never opened. -/
theorem ofLine_alike (ha : h.Alike g) (line : String) : ofLine g line = ofLine h line := by
  unfold ofLine
  rw [ha.cwd]
  cases PathText.absolute? h.cwd line with
  | none => rfl
  | some path =>
    dsimp only
    obtain ⟨e, hn, hm⟩ | ⟨n, m, hl, hn, hm⟩ := Host.node_alike_cases ha (Route.read path)
    · rw [hn, hm]
    · rw [hn, hm]
      dsimp only
      rw [hl.isFile, hl.isDirectory]

theorem ofLines_alike (ha : h.Alike g) (list : Path) (count : Nat) (lines : List String) :
    ofLines g list count lines = (ofLines h list count lines : Act σ ω Failure Mounts) := by
  induction lines generalizing count with
  | nil => rfl
  | cons line lines ih =>
    unfold ofLines
    simp only [ofLine_alike ha, ih]

theorem listText_alike (ha : h.Alike g) (hguarded : Guarded h file)
    (hsame : g.files.node? file = h.files.node? file) : listText g file = listText h file := by
  have hread : g.read (Route.ofPath file) = h.read (Route.ofPath file) := by
    unfold Host.read
    obtain ⟨e, hn, hm⟩ | ⟨n, m, -, hn, hm⟩ := Host.node_alike_cases ha (Route.ofPath file)
    · rw [hn, hm]
      rfl
    · have hdirect := direct_of_canonical ((Host.canonical_alike ha _).trans hguarded.canonical)
      have hnode := node?_of_direct hdirect hm
      rw [hsame, node?_of_direct hguarded.direct hn] at hnode
      obtain rfl := Option.some.inj hnode
      rw [hn, hm, ha.effective]
  unfold listText
  rw [hread]

theorem readList_same (hs : SameLists h g dir names) {real : Path}
    (hreal : realDirectory h dir = .ok real) (hname : name ∈ names) :
    readList g real.text name = (readList h real.text name : Act σ ω Failure Mounts) := by
  have hfile (text : String) : realFile g text = realFile h text :=
    validate_eq_of_sizes hs.alike hs.sizes text Policy.file
  unfold readList
  dsimp only
  rw [hfile]
  refine ofExcept_bind_congr fun list hlist => ?_
  -- Only a list that is opened gets this far, and that one is the same on both hosts.
  have hlist := mapError_eq_ok.mp hlist
  rw [listText_alike hs.alike (guarded_of_realFile hlist).2.1
    (hs.opened list ⟨real, hreal, name, hname, hlist⟩)]
  exact ofExcept_bind_congr fun text _ => ofLines_alike hs.alike list 0 (Text.lines text)

theorem readNamed_same (hs : SameLists h g dir names) {real : Path}
    (hreal : realDirectory h dir = .ok real) {chosen : List String} (hchosen : chosen ⊆ names) :
    readNamed g real chosen = (readNamed h real chosen : Act σ ω Failure Mounts) := by
  induction chosen with
  | nil => rfl
  | cons name rest ih =>
    obtain ⟨hname, hrest⟩ := List.cons_subset.mp hchosen
    unfold readNamed
    rw [readList_same hs hreal hname, ih hrest]

theorem readLists_same (hs : SameLists h g dir names) :
    readLists g dir names = (readLists h dir names : Act σ ω Failure Mounts) := by
  unfold readLists
  rw [realDirectory_same hs]
  refine ofExcept_bind_congr fun real hreal => ?_
  exact readNamed_same hs (mapError_eq_ok.mp hreal) (List.Subset.refl names)

theorem SameLists.of_rewrites {old : Content} {new : List UInt8}
    (hr : Host.Rewrites h g file old new) (hsize : new.length = old.size)
    (hclosed : ¬ Opens h dir names file) : SameLists h g dir names where
  alike := hr.alike
  sizes p n m hn hm := by
    by_cases hp : p = file
    · obtain ⟨found, hfound, hkind, hafter⟩ := hr.rewritten
      rw [hp, hfound] at hn
      rw [hp, hafter] at hm
      cases hn
      cases hm
      simp only [Node.size, hkind]
      exact hsize
    · rw [hr.others p hp, hn] at hm
      cases hm
      rfl
  opened other ho := hr.others other fun he => hclosed (he ▸ ho)

/-- Names that are accepted are plain. Each list that is opened for them is a safe file right below
the directory, reached over safe directories and no link, and no other file is read. -/
theorem readLists_confined (h : Host) (dir text : String) {names : List String}
    (hcwd : ∀ cwd ∈ h.cwd, ∀ name ∈ cwd, IsName name)
    (hnames : MountNames.parse text = .ok names) :
    (∀ name ∈ names, MountNames.IsListName name) ∧
    (∀ file, Opens h dir names file → Confined h dir names file) ∧
    ∀ g, SameLists h g dir names → ∀ r : Run σ ω,
      outcome (readLists g dir names) r = outcome (readLists h dir names) r := by
  have hplain := MountNames.isListName_of_parse hnames
  refine ⟨hplain, fun file ho => confined_of_opens hcwd hplain ho, fun g hs r => ?_⟩
  rw [readLists_same hs]

/-- A directory with two lists. -/
def listed : Host where
  files := ⟨[
    ([], Node.rootDirectory),
    (["etc"], Node.rootDirectory),
    (["etc", "base.list"], ⟨.file ⟨Utf8.bytesOf "/etc", 0⟩, 0o644, 0, 0⟩),
    (["etc", "extra.list"], ⟨.file ⟨Utf8.bytesOf "/dev", 0⟩, 0o644, 0, 0⟩)]⟩

/-- Only the one that is named has a say. -/
theorem readLists_confined_listed :
    (∀ cwd ∈ listed.cwd, ∀ name ∈ cwd, IsName name) ∧
    MountNames.parse " Base" = .ok ["base"] ∧
    Opens listed "/etc" ["base"] ["etc", "base.list"] ∧
    Confined listed "/etc" ["base"] ["etc", "base.list"] ∧
    outcome (readLists (listed.store ["etc", "extra.list"] (Utf8.bytesOf "/lib")) "/etc" ["base"])
        ({ memory := (), work := () } : Run Unit Unit) =
      outcome (readLists listed "/etc" ["base"]) { memory := (), work := () } := by
  have hcwd : ∀ cwd ∈ listed.cwd, ∀ name ∈ cwd, IsName name := by
    intro cwd hcwd name hname
    cases hcwd
    cases hname
  have hnames : MountNames.parse " Base" = .ok ["base"] := by decide +kernel
  have hreal : realDirectory listed "/etc" = .ok ["etc"] := by decide +kernel
  have hfile : realFile listed (PathText.join (Path.text ["etc"]) ("base" ++ "." ++ listSuffix)) =
      .ok ["etc", "base.list"] := by
    decide +kernel
  have hopens : Opens listed "/etc" ["base"] ["etc", "base.list"] :=
    ⟨["etc"], hreal, "base", List.mem_singleton_self "base", hfile⟩
  have hclosed : ¬ Opens listed "/etc" ["base"] ["etc", "extra.list"] := by
    rintro ⟨real, hreal', name, hname, hfile'⟩
    cases hreal.symm.trans hreal'
    obtain rfl := List.mem_singleton.mp hname
    exact absurd (Except.ok.inj (hfile.symm.trans hfile')) (by decide)
  have hsame := SameLists.of_rewrites (Host.rewrites_store (h := listed) rfl rfl
    (Utf8.bytesOf "/lib")) (by decide +kernel) hclosed
  obtain ⟨-, hconfined, hread⟩ := readLists_confined (σ := Unit) (ω := Unit) listed "/etc" " Base"
    hcwd hnames
  exact ⟨hcwd, hnames, hopens, hconfined _ hopens, hread _ hsame _⟩

end Mounts

end NpuRuntime
