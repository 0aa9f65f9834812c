import NpuRuntime.Host.Basic
import NpuRuntime.Proofs.Host.Storing

/-! # Files that differ in content only
Links, directories, modes and owners decide where a path leads. So a walk takes the same way where
nothing but the content of plain files has changed. -/
namespace NpuRuntime

/-- Nodes that differ at most in what a plain file holds. -/
inductive Node.Like : Node → Node → Prop
  | same (n : Node) : Node.Like n n
  | file (mode uid gid : Nat) (old new : Content) :
    Node.Like ⟨.file old, mode, uid, gid⟩ ⟨.file new, mode, uid, gid⟩

namespace Node.Like

variable {n m : Node}

theorem isDirectory (hl : Node.Like n m) : m.isDirectory = n.isDirectory := by
  cases hl <;> rfl

theorem isFile (hl : Node.Like n m) : m.isFile = n.isFile := by
  cases hl <;> rfl

theorem mode (hl : Node.Like n m) : m.mode = n.mode := by
  cases hl <;> rfl

theorem uid (hl : Node.Like n m) : m.uid = n.uid := by
  cases hl <;> rfl

theorem setsId (hl : Node.Like n m) : m.setsId = n.setsId := by
  cases hl <;> rfl

theorem writableByOthers (hl : Node.Like n m) : m.writableByOthers = n.writableByOthers := by
  cases hl <;> rfl

theorem permits (hl : Node.Like n m) (who : Identity) (p : Permit) :
    m.permits who p = n.permits who p := by
  cases hl <;> rfl

end Node.Like

/-- At each path there are like nodes, or none at all. -/
def Files.Alike (fs gs : Files) : Prop := ∀ p, Option.Rel Node.Like (fs.node? p) (gs.node? p)

namespace Files

variable {fs gs : Files}

theorem arrive_alike (ha : fs.Alike gs) (here : Path) (slash : Bool) (searched : List Path) :
    gs.arrive here slash searched = fs.arrive here slash searched := by
  unfold arrive
  have hhere := ha here
  generalize fs.node? here = x at hhere
  generalize gs.node? here = y at hhere
  cases hhere with
  | none => rfl
  | some hl =>
    dsimp only
    rw [hl.isDirectory]

theorem stretch_alike (ha : fs.Alike gs) (who : Identity) (follow : Option Onward) (here : Path)
    (names : List String) (slash : Bool) (searched : List Path) :
    gs.stretch who follow here names slash searched =
      fs.stretch who follow here names slash searched := by
  induction names generalizing here searched with
  | nil => exact arrive_alike ha here slash searched
  | cons name rest ih =>
    unfold stretch
    simp only [ih]
    have hhere := ha here
    generalize fs.node? here = x at hhere
    generalize gs.node? here = y at hhere
    cases hhere with
    | none => rfl
    | some hl =>
      dsimp only
      rw [hl.isDirectory, hl.permits]
      have hnext := ha (here ++ [name])
      generalize fs.node? (here ++ [name]) = x at hnext
      generalize gs.node? (here ++ [name]) = y at hnext
      cases hnext with
      | none => rfl
      | some hnode => cases hnode <;> rfl

theorem walk_alike (ha : fs.Alike gs) (who : Identity) (links : Nat) :
    gs.walk who links = fs.walk who links := by
  induction links with
  | zero =>
    funext here names slash searched
    exact stretch_alike ha who none here names slash searched
  | succ links ih =>
    funext here names slash searched
    rw [walk, walk, ih]
    exact stretch_alike ha who _ here names slash searched

end Files

/-- Two hosts that look alike to one user with the same groups in the same directory. Who started
the process and what the environment holds are of no account. -/
structure Host.Alike (h g : Host) : Prop where
  files : h.files.Alike g.files
  cwd : g.cwd = h.cwd
  effective : g.effective = h.effective

theorem Host.Alike.user {h g : Host} (ha : h.Alike g) : g.user = h.user :=
  congrArg Identity.user ha.effective

namespace Host

variable {h g : Host} {r : Route}

theorem walkAs_alike (ha : h.Alike g) (who : Identity) (r : Route) :
    g.walkAs who r = h.walkAs who r := by
  unfold walkAs
  rw [ha.cwd, Files.walk_alike ha.files]

theorem canonical_alike (ha : h.Alike g) (r : Route) : g.canonical r = h.canonical r := by
  unfold canonical walk
  rw [ha.effective, walkAs_alike ha]

/-- A route leads to like nodes, or it fails for one reason. -/
theorem node_alike_cases (ha : h.Alike g) (r : Route) :
    (∃ e, h.node r = .error e ∧ g.node r = .error e) ∨
      ∃ n m, Node.Like n m ∧ h.node r = .ok n ∧ g.node r = .ok m := by
  unfold node nodeAs
  rw [ha.effective, walkAs_alike ha]
  cases h.walkAs h.effective r with
  | error e => exact .inl ⟨e, rfl, rfl⟩
  | ok w =>
    have hreached := ha.files w.reached
    dsimp only [bind, Except.bind]
    generalize h.files.node? w.reached = x at hreached
    generalize g.files.node? w.reached = y at hreached
    cases hreached with
    | none => exact .inl ⟨.noEntry, rfl, rfl⟩
    | some hl => exact .inr ⟨_, _, hl, rfl, rfl⟩

/-- A node that a route leads to has one like it on the other host. -/
theorem node_alike (ha : h.Alike g) {n : Node} (hn : h.node r = .ok n) :
    ∃ m, g.node r = .ok m ∧ Node.Like n m := by
  obtain ⟨e, he, -⟩ | ⟨found, m, hl, hfound, hm⟩ := node_alike_cases ha r
  · rw [hn] at he
    cases he
  · rw [hn] at hfound
    cases hfound
    exact ⟨m, hm, hl⟩

/-- A file that could be read can still be read, with the content that it has now. -/
theorem read_alike (ha : h.Alike g) {old new : Content} {m : Node} (hr : h.read r = .ok old)
    (hm : g.node r = .ok m) (hkind : m.kind = .file new) : g.read r = .ok new := by
  obtain ⟨n, hn, hn'⟩ := bind_eq_ok.mp hr
  obtain ⟨found, hfound, hl⟩ := node_alike ha hn
  rw [hm] at hfound
  cases hfound
  have hpermits : m.permits g.effective .read = true := by
    rw [ha.effective, hl.permits]
    cases hp : n.permits h.effective .read with
    | true => rfl
    | false =>
      rw [hp] at hn'
      cases hn'
  refine bind_eq_ok.mpr ⟨m, hm, ?_⟩
  rw [hpermits, hkind]
  rfl

end Host

theorem Host.Rewrites.alike {before after : Host} {file : Path} {old : Content} {new : List UInt8}
    (hr : Host.Rewrites before after file old new) : before.Alike after where
  files := by
    intro p
    by_cases hp : p = file
    · obtain ⟨⟨kind, mode, uid, gid⟩, hn, hkind, hafter⟩ := hr.rewritten
      cases hkind
      rw [hp, hn, hafter]
      exact .some (.file mode uid gid old ⟨new, 0⟩)
    · rw [hr.others p hp]
      cases before.files.node? p with
      | none => exact .none
      | some n => exact .some (.same n)
  cwd := by rw [hr.process]
  effective := by rw [hr.process]

end NpuRuntime
