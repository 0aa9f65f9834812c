import Mathlib.Control.Monad.Basic
import NpuRuntime.Proofs.Fallible
import NpuRuntime.Proofs.Host.Leading
import NpuRuntime.Proofs.Trust.Checks

/-! # Trust in a resolution
Which of the directories that the kernel searches for a trusted path are known to be guarded: those
that the path names and those above its end, but none that only a link on the way led through. -/
namespace NpuRuntime.Trust

open Files

variable {h : Host} {p real : Path} {n : Node} {allowDirectory allowSymlink : Bool}

/-- Only the superuser and the current user can change what a directory holds. -/
def isGuarded (h : Host) (d : Path) : Bool :=
  (h.files.node? d).any fun n => !n.writableByOthers && (n.uid == 0 || n.uid == h.user)

theorem leads_of_walk {w : Walk} (hw : h.walk (Route.ofPath p) = .ok w) :
    h.files.Leads maxLinks [] p [] w := by
  unfold Host.walk Host.walkAs at hw
  split at hw
  · cases hw
  · split at hw
    · cases hw
    · exact Files.leads_of_walk hw

theorem exists_walk_of_canonical (hc : h.canonical (Route.ofPath p) = .ok real) :
    ∃ w, h.walk (Route.ofPath p) = .ok w ∧ w.reached = real := by
  unfold Host.canonical at hc
  cases hw : h.walk (Route.ofPath p) with
  | error e => simp [hw, bind, Except.bind] at hc
  | ok w => exact ⟨w, rfl, by simpa [hw, bind, Except.bind, pure, Except.pure] using hc⟩

theorem direct_of_canonical (hc : h.canonical (Route.ofPath p) = .ok real) :
    h.files.Direct real := by
  obtain ⟨w, hw, rfl⟩ := exists_walk_of_canonical hc
  exact (leads_of_walk hw).direct direct_root

theorem canonical_of_direct (hd : h.files.Direct p)
    (hc : h.canonical (Route.ofPath p) = .ok real) : real = p := by
  obtain ⟨w, hw, rfl⟩ := exists_walk_of_canonical hc
  exact (leads_of_walk hw).reached_eq hd

/-- The node at the end of a path without links is the one stored there. -/
theorem node?_of_direct (hd : h.files.Direct p) (hn : h.node (Route.ofPath p) = .ok n) :
    h.files.node? p = some n := by
  unfold Host.node Host.nodeAs at hn
  cases hw : h.walkAs h.effective (Route.ofPath p) with
  | error e => simp [hw, bind, Except.bind] at hn
  | ok w =>
    have hr : w.reached = p := (leads_of_walk hw).reached_eq hd
    simp only [hw, bind, Except.bind, hr] at hn
    cases hnode : h.files.node? p with
    | none => simp [hnode, throw, throwThe, MonadExceptOf.throw] at hn
    | some node =>
      simp only [hnode, pure, Except.pure, Except.ok.injEq] at hn
      rw [hn]

theorem checkNode_eq_ok (hc : checkNode h p allowDirectory allowSymlink = .ok (real, n)) :
    h.canonical (Route.ofPath p) = .ok real ∧ isGuarded h real = true := by
  obtain ⟨hr, -, hsafe⟩ := checkNode_eq_ok_iff.mp hc
  obtain ⟨-, hwritable, howner⟩ := isSafe_node_iff.mp hsafe
  refine ⟨hr.canonical, ?_⟩
  rw [isGuarded, node?_of_direct (direct_of_canonical hr.canonical) hr.node]
  simpa [hwritable] using howner

/-- What a success of the whole check says about the path and its end. -/
theorem validate_eq_ok {text : String} {policy : Policy} (hparents : policy.checkParents = true)
    (hv : validate h text policy = .ok real) : ∃ p, absolute h text = .ok p ∧
      h.canonical (Route.ofPath p) = .ok real ∧
      (∀ a ∈ p.ancestors, ∃ d n, checkNode h a true policy.allowSymlink = .ok (d, n)) ∧
      ∀ a ∈ real.ancestors, ∃ d n, checkNode h a true policy.allowSymlink = .ok (d, n) := by
  obtain ⟨p, n, -, hp, hnode, -, hchains⟩ := validate_eq_ok_iff.mp hv
  have hnamed := checkAncestors_eq_ok_iff.mp (hchains hparents p (.inl rfl))
  have hfound := checkAncestors_eq_ok_iff.mp (hchains hparents real (.inr rfl))
  exact ⟨p, hp, (checkNode_eq_ok hnode).1, hnamed.2, hfound.2⟩

/-- The directories that are looked at: where named ancestors lead, and what is above the end. -/
def IsChecked (h : Host) (p real d : Path) : Prop :=
  (∃ a ∈ p.ancestors, h.canonical (Route.ofPath a) = .ok d) ∨ d ∈ real.ancestors

theorem isGuarded_of_isChecked {d : Path} (hreal : h.files.Direct real)
    (hnamed : ∀ a ∈ p.ancestors, ∃ d n, checkNode h a true allowSymlink = .ok (d, n))
    (habove : ∀ a ∈ real.ancestors, ∃ d n, checkNode h a true allowSymlink = .ok (d, n))
    (hd : IsChecked h p real d) : isGuarded h d = true := by
  rcases hd with ⟨a, ha, hc⟩ | ha
  · obtain ⟨found, n, hnode⟩ := hnamed a ha
    obtain ⟨hfound, hguarded⟩ := checkNode_eq_ok hnode
    rw [hc] at hfound
    cases hfound
    exact hguarded
  · obtain ⟨found, n, hnode⟩ := habove d ha
    obtain ⟨hfound, hguarded⟩ := checkNode_eq_ok hnode
    rw [canonical_of_direct (hreal.of_ancestor ha) hfound] at hguarded
    exact hguarded

/-- Every directory that is looked at is guarded, and the ones above the end were all searched. So
the whole resolution is guarded exactly if the searched directories that nobody looked at are; when
at most one link was followed, and none points upwards, there are no others. -/
theorem searched_guarded_iff {text : String}
    (hv : validate h text Policy.file.withSymlinks = .ok real) :
    ∃ p w, absolute h text = .ok p ∧ h.walk (Route.ofPath p) = .ok w ∧ w.reached = real ∧
      (∀ d, IsChecked h p real d → isGuarded h d = true) ∧
      (∀ a ∈ real.ancestors, a ∈ w.searched) ∧
      ((∀ d ∈ w.searched, isGuarded h d = true) ↔
        ∀ d ∈ w.searched, ¬ IsChecked h p real d → isGuarded h d = true) ∧
      (h.files.walk h.effective 1 [] p p.isEmpty [] = .ok w → ".." ∉ p → "." ∉ p →
        h.files.LinksGoDown → ∀ d ∈ w.searched, IsChecked h p real d) := by
  obtain ⟨p, hp, hcanonical, hnamed, habove⟩ := validate_eq_ok rfl hv
  obtain ⟨w, hw, rfl⟩ := exists_walk_of_canonical hcanonical
  have hleads := leads_of_walk hw
  have hguarded (d : Path) : IsChecked h p w.reached d → isGuarded h d = true :=
    isGuarded_of_isChecked (direct_of_canonical hcanonical) hnamed habove
  refine ⟨p, w, hp, hw, rfl, hguarded, hleads.ancestors_searched (by simp [Path.ancestors]), ?_, ?_⟩
  · constructor
    · exact fun hall d hd _ => hall d hd
    · intro hrest d hd
      by_cases hchecked : IsChecked h p w.reached d
      · exact hguarded d hchecked
      · exact hrest d hd hchecked
  · intro hone hup hdot hlinks d hd
    rcases (Files.leads_of_walk hone).searched_of_one direct_root hup hdot hlinks d hd with
      hs | ha | ⟨hdirect, above, name, below, hnames, rfl⟩
    · cases hs
    · exact .inr ha
    · have ha : d ∈ p.ancestors := mem_ancestors.mpr ⟨name, below, hnames⟩
      obtain ⟨found, n, hnode⟩ := hnamed d ha
      have hfound := (checkNode_eq_ok hnode).1
      rw [canonical_of_direct hdirect hfound] at hfound
      exact .inl ⟨d, ha, hfound⟩

/-- Links that lead from one directory to the next, with `mode` on the one in the middle. -/
def linked (mode : Nat) : Host where
  files := ⟨[
    ([], Node.rootDirectory),
    (["first"], Node.rootDirectory),
    (["first", "link"], ⟨.link "/middle/link", 0o777, 0, 0⟩),
    (["middle"], ⟨.directory, mode, 0, 0⟩),
    (["middle", "link"], ⟨.link "/last/file", 0o777, 0, 0⟩),
    (["last"], Node.rootDirectory),
    (["last", "file"], ⟨.file ⟨[], 0⟩, 0o644, 0, 0⟩)]⟩

/-- Over one link everything that is searched was looked at. -/
theorem searched_guarded_one_link :
    validate (linked 0o755) "/middle/link" Policy.file.withSymlinks = .ok ["last", "file"] ∧
      ∃ w, (linked 0o755).walk (Route.ofPath ["middle", "link"]) = .ok w ∧
        w.searched = [[], ["middle"], [], ["last"]] ∧
        ∀ d ∈ w.searched, IsChecked (linked 0o755) ["middle", "link"] ["last", "file"] d ∧
          isGuarded (linked 0o755) d = true := by
  have hv : validate (linked 0o755) "/middle/link" Policy.file.withSymlinks =
      .ok ["last", "file"] := by
    decide +kernel
  have hp : absolute (linked 0o755) "/middle/link" = .ok ["middle", "link"] := by decide +kernel
  have hw : (linked 0o755).walk (Route.ofPath ["middle", "link"]) =
      .ok ⟨["last", "file"], [[], ["middle"], [], ["last"]]⟩ := by
    decide +kernel
  have hone : (linked 0o755).files.walk (linked 0o755).effective 1 [] ["middle", "link"] false [] =
      .ok ⟨["last", "file"], [[], ["middle"], [], ["last"]]⟩ := by
    decide +kernel
  have hlinks : (linked 0o755).files.LinksGoDown := by
    unfold LinksGoDown
    decide +kernel
  obtain ⟨p, w, hp', hw', -, hguarded, -, -, hchecked⟩ := searched_guarded_iff hv
  rw [hp] at hp'
  cases hp'
  rw [hw] at hw'
  cases hw'
  refine ⟨hv, _, hw, rfl, fun d hd => ?_⟩
  have hd' := hchecked hone (by decide) (by decide) hlinks d hd
  exact ⟨hd', hguarded d hd'⟩

/-- Over two links the directory of the second one may be open to everybody. -/
theorem searched_open_directory :
    validate (linked 0o777) "/first/link" Policy.file.withSymlinks = .ok ["last", "file"] ∧
      (linked 0o777).walk (Route.ofPath ["first", "link"]) =
        .ok ⟨["last", "file"], [[], ["first"], [], ["middle"], [], ["last"]]⟩ ∧
      isGuarded (linked 0o777) ["middle"] = false := by
  decide +kernel

end NpuRuntime.Trust
