import NpuRuntime.Proofs.Host.Passing
import NpuRuntime.Proofs.Trust.Checks
import NpuRuntime.Proofs.Trust.Named
import NpuRuntime.Proofs.Trust.Resolution

/-! # Accepted paths
Exactly which paths are trusted. The conditions speak of the text, of where its path and each
directory above it lead, and of the nodes there; that a path above leads to a directory need not be
asked for, because the kernel has looked a name up in it. -/
namespace NpuRuntime.Trust

open Files

variable {h : Host} {p real : Path} {n : Node}

/-- All that makes a text a trusted path: the path that it names, and the path and the node that
this leads to. -/
structure Accepts (h : Host) (text : String) (policy : Policy) (p real : Path) (n : Node) :
    Prop where
  limit : ∀ mb ∈ policy.sizeLimit, mb ≤ 102400
  plain : IsPathText text
  named : Names h text p
  resolves : Resolves h policy.allowSymlink p real n
  kind : n.isFile = true ∨ policy.allowDirectory = true ∧ n.isDirectory = true
  safe : IsSafe h n
  size : n.isFile = true → ∀ mb ∈ policy.sizeLimit, n.size ≤ mb * (1024 * 1024)
  above : policy.checkParents = true → ∀ q, q = p ∨ q = real → q.length ≤ 99 ∧
    ∀ a ∈ q.ancestors, ∃ d m, Resolves h policy.allowSymlink a d m ∧ IsSafe h m

theorem exists_walk_of_node (hn : h.node (Route.ofPath p) = .ok n) :
    ∃ w, h.walk (Route.ofPath p) = .ok w := by
  unfold Host.node Host.nodeAs at hn
  obtain ⟨w, hw, -⟩ := bind_eq_ok.mp hn
  exact ⟨w, hw⟩

/-- The walk that a path asks for starts at the root. -/
theorem walk_of_ofPath {w : Walk} (hw : h.walk (Route.ofPath p) = .ok w) :
    h.files.walk h.effective maxLinks [] p p.isEmpty [] = .ok w := by
  unfold Host.walk Host.walkAs at hw
  split at hw
  · cases hw
  · split at hw
    · cases hw
    · exact hw

theorem isDirectory_of_ancestor {w : Walk} (hw : h.walk (Route.ofPath p) = .ok w) {a d : Path}
    {m : Node} {allowSymlink : Bool} (ha : a ∈ p.ancestors) (hr : Resolves h allowSymlink a d m) :
    m.isDirectory = true := by
  obtain ⟨name, below, rfl⟩ := mem_ancestors.mp ha
  obtain ⟨mid, hmid, rfl⟩ := exists_walk_of_canonical hr.canonical
  have hstored := node?_of_direct (direct_of_canonical hr.canonical) hr.node
  obtain ⟨dir, hdir, hd⟩ := directory_of_walk (walk_of_ofPath hw) (walk_of_ofPath hmid)
  rw [hstored] at hdir
  cases hdir
  exact hd

/-- The directories above a path that leads somewhere pass by where they lead and their nodes. -/
theorem checkAncestors_iff {w : Walk} (hw : h.walk (Route.ofPath p) = .ok w)
    {allowSymlink : Bool} : checkAncestors h allowSymlink p = .ok () ↔ p.length ≤ 99 ∧
      ∀ a ∈ p.ancestors, ∃ d m, Resolves h allowSymlink a d m ∧ IsSafe h m := by
  rw [checkAncestors_eq_ok_iff]
  refine and_congr_right fun _ => forall₂_congr fun a ha => ?_
  refine exists_congr fun d => exists_congr fun m => ?_
  rw [checkNode_eq_ok_iff]
  constructor
  · rintro ⟨hr, -, hsafe⟩
    exact ⟨hr, hsafe⟩
  · rintro ⟨hr, hsafe⟩
    exact ⟨hr, .inr ⟨rfl, isDirectory_of_ancestor hw ha hr⟩, hsafe⟩

/-- A text is a trusted path exactly if its path is accepted, and what is handed back is the path
that this leads to. -/
theorem validate_accepts_iff (h : Host) (text : String) (policy : Policy) (real : Path) :
    validate h text policy = .ok real ↔ ∃ p n, Accepts h text policy p real n := by
  rw [validate_eq_ok_iff]
  refine exists_congr fun p => exists_congr fun n => ?_
  rw [checkLimit_eq_ok_iff, absolute_eq_ok_iff, checkNode_eq_ok_iff, checkSize_eq_ok_iff]
  have above (hr : Resolves h policy.allowSymlink p real n) (q : Path) (hq : q = p ∨ q = real) :
      checkAncestors h policy.allowSymlink q = .ok () ↔ q.length ≤ 99 ∧
        ∀ a ∈ q.ancestors, ∃ d m, Resolves h policy.allowSymlink a d m ∧ IsSafe h m := by
    have hw : ∃ w, h.walk (Route.ofPath q) = .ok w := by
      rcases hq with rfl | rfl
      · obtain ⟨w, hw, -⟩ := exists_walk_of_canonical hr.canonical
        exact ⟨w, hw⟩
      · exact exists_walk_of_node hr.node
    obtain ⟨w, hw⟩ := hw
    exact checkAncestors_iff hw
  constructor
  · rintro ⟨hlimit, ⟨htext, hnames⟩, ⟨hr, hkind, hsafe⟩, hsize, hchains⟩
    refine ⟨hlimit, htext, hnames, hr, hkind, hsafe, hsize, fun hparents q hq => ?_⟩
    exact (above hr q hq).mp (hchains hparents q hq)
  · intro ha
    refine ⟨ha.limit, ⟨ha.plain, ha.named⟩, ⟨ha.resolves, ha.kind, ha.safe⟩, ha.size, ?_⟩
    intro hparents q hq
    exact (above ha.resolves q hq).mpr (ha.above hparents q hq)

end NpuRuntime.Trust
