import NpuRuntime.Proofs.Trust.Acceptance

/-! # Trusted paths without links
Where no link is allowed, a trusted path is handed back as it was named, and each node on the way
down lies where the path puts it. A plain name that is joined to such a path stays right below. -/
namespace NpuRuntime.Trust

variable {h : Host} {text : String} {file real : Path}

/-- A node that nobody else can change lies at this path. -/
def Holds (h : Host) (p : Path) (kind : Node → Bool) : Prop :=
  ∃ n, h.files.node? p = some n ∧ kind n = true ∧ IsSafe h n

/-- A path that leads to itself over safe directories. -/
structure Guarded (h : Host) (p : Path) : Prop where
  canonical : h.canonical (Route.ofPath p) = .ok p
  direct : h.files.Direct p
  above : ∀ a ∈ p.ancestors, Holds h a Node.isDirectory

theorem holds_of_checkNode {p : Path} {n : Node} {allowDirectory : Bool} {kind : Node → Bool}
    (hc : checkNode h p allowDirectory false = .ok (real, n)) (hkind : kind n = true) :
    Holds h p kind := by
  obtain ⟨hr, -, hsafe⟩ := checkNode_eq_ok_iff.mp hc
  obtain rfl := hr.unlinked rfl
  exact ⟨n, node?_of_direct (direct_of_canonical hr.canonical) hr.node, hkind, hsafe⟩

/-- Where no links are allowed a trusted path is handed back as it was named. -/
theorem guarded_of_validate {policy : Policy} (hlinks : policy.allowSymlink = false)
    (hparents : policy.checkParents = true) (hv : validate h text policy = .ok real) :
    absolute h text = .ok real ∧ Guarded h real ∧
      ∃ n, checkNode h real policy.allowDirectory false = .ok (real, n) := by
  obtain ⟨p, n, -, hp, hnode, -, hchains⟩ := validate_eq_ok_iff.mp hv
  rw [hlinks] at hnode
  obtain ⟨hr, -, -⟩ := checkNode_eq_ok_iff.mp hnode
  obtain rfl := hr.unlinked rfl
  refine ⟨hp, ⟨hr.canonical, direct_of_canonical hr.canonical, fun a ha => ?_⟩, n, hnode⟩
  have hchecked := checkAncestors_eq_ok_iff.mp (hchains hparents real (.inl rfl))
  rw [hlinks] at hchecked
  obtain ⟨d, m, hm⟩ := hchecked.2 a ha
  obtain ⟨w, hw, -⟩ := exists_walk_of_canonical hr.canonical
  exact holds_of_checkNode hm (isDirectory_of_ancestor hw ha (checkNode_eq_ok_iff.mp hm).1)

theorem guarded_of_realFile (hv : realFile h text = .ok file) :
    absolute h text = .ok file ∧ Guarded h file ∧ Holds h file Node.isFile := by
  obtain ⟨habsolute, hguarded, n, hn⟩ := guarded_of_validate rfl rfl hv
  obtain ⟨-, hfile | ⟨hdirectory, -⟩, -⟩ := checkNode_eq_ok_iff.mp hn
  · exact ⟨habsolute, hguarded, holds_of_checkNode hn hfile⟩
  · cases hdirectory

theorem validate_of_realDirectory (hv : realDirectory h text = .ok real) :
    validate h text Policy.directory = .ok real := by
  obtain ⟨found, hfound, hv⟩ := bind_eq_ok.mp hv
  unfold onlyDirectory at hv
  split at hv
  · split at hv
    · cases hv
      exact hfound
    · cases hv
  · cases hv

/-- The names of a path from a text are single ones, if those of the current directory are. -/
theorem isName_of_absolute (hcwd : ∀ cwd ∈ h.cwd, ∀ name ∈ cwd, IsName name)
    (hp : absolute h text = .ok real) : ∀ name ∈ real, IsName name := by
  obtain ⟨-, base, hbase, rfl, -⟩ := absolute_eq_ok_iff.mp hp
  intro name hname
  rcases List.mem_append.mp hname with hname | hname
  · split at hbase
    · rw [hbase] at hname
      cases hname
    · exact hcwd base hbase name (List.mem_filter.mp hname).1
  · obtain ⟨hpiece, hstands⟩ := List.mem_filter.mp hname
    exact ⟨(of_decide_eq_true hstands).1, Text.not_mem_of_mem_pieces hpiece⟩

/-- A path without links has no dots. -/
theorem ne_dot_of_direct {p : Path} (hdirect : h.files.Direct p) {name : String}
    (hname : name ∈ p) : name ≠ "." := by
  obtain ⟨above, below, rfl⟩ := List.append_of_mem hname
  exact (hdirect above name below rfl).1

theorem ne_up_of_direct {p : Path} (hdirect : h.files.Direct p) {name : String} (hname : name ∈ p) :
    name ≠ ".." := by
  obtain ⟨above, below, rfl⟩ := List.append_of_mem hname
  exact (hdirect above name below rfl).2.1

theorem head?_text (p : Path) : p.text.toList.head? = some '/' := by
  rw [text_eq_join]
  simp

/-- Single names without dots and upward steps. -/
def IsNormal (p : Path) : Prop := ∀ name ∈ p, IsName name ∧ name ≠ "." ∧ name ≠ ".."

/-- The text of a normal path names that path and no other, whatever the current directory is. -/
theorem absolute_text_iff {g : Host} {p q : Path} (hnormal : IsNormal p) :
    absolute g p.text = .ok q ↔
      q = p ∧ IsPathText p.text ∧ ∀ last ∈ p.getLast?, last.utf8ByteSize < 256 := by
  have hpieces : (Text.pieces '/' p.text).filter (fun name => name ≠ "" ∧ name ≠ ".") = p := by
    rw [← names_read, names_read_text fun name hname => (hnormal name hname).1]
    exact List.filter_eq_self.mpr fun name hname => decide_eq_true (hnormal name hname).2.1
  rw [absolute_eq_ok_iff, Names, head?_text, hpieces]
  constructor
  · rintro ⟨hplain, base, rfl, rfl, -, hlast⟩
    exact ⟨rfl, hplain, hlast⟩
  · rintro ⟨rfl, hplain, hlast⟩
    exact ⟨hplain, [], rfl, rfl, fun hup => (hnormal _ hup).2.2 rfl, hlast⟩

/-- A name that is joined to a directory's text is looked for right below the directory. -/
theorem absolute_join {name : String} (hnames : ∀ part ∈ real, IsName part)
    (hdirect : h.files.Direct real) (hname : IsName name) (hdot : name ≠ ".")
    (hp : absolute h (PathText.join real.text name) = .ok file) : file = real ++ [name] := by
  have hhead : (PathText.join real.text name).toList.head? = some '/' := by
    have htext : real.text ≠ "" := by
      intro hempty
      have hslash := head?_text real
      simp [hempty] at hslash
    rw [head?_join htext fun hs => hname.single (List.mem_of_head? hs), head?_text]
  have hkept : ∀ part ∈ real ++ [name], decide (part ≠ ".") = true := by
    intro part hpart
    refine decide_eq_true ?_
    rcases List.mem_append.mp hpart with hpart | hpart
    · exact ne_dot_of_direct hdirect hpart
    · obtain rfl := List.mem_singleton.mp hpart
      exact hdot
  obtain ⟨-, base, hbase, rfl, -⟩ := absolute_eq_ok_iff.mp hp
  rw [if_pos hhead] at hbase
  rw [hbase, List.filter_nil, List.nil_append, ← names_read, names_read_join hname,
    names_read_text hnames]
  exact List.filter_eq_self.mpr hkept

end NpuRuntime.Trust
