import NpuRuntime.Proofs.Trust.Unlinked

/-! # Trusted paths are canonical
The path that a trusted text leads to is trusted in its own right, even where no links are allowed:
it leads to itself, as does each directory above it, and what was checked there before is all that
is looked at again. -/
namespace NpuRuntime

theorem isName_of_mem_read {text name : String} (hname : name ∈ (Route.read text).names) :
    IsName name := by
  obtain ⟨hpiece, hstands⟩ := List.mem_filter.mp hname
  exact ⟨of_decide_eq_true hstands, Text.not_mem_of_mem_pieces hpiece⟩

/-- A walk ends below its start, or below the start of a link, on names that it has looked up. -/
theorem Files.Leads.forall_reached {fs : Files} {links : Nat} {here : Path} {names : List String}
    {searched : List Path} {w : Walk} (h : Leads fs links here names searched w) {P : String → Prop}
    (hlooked : ∀ name, IsName name → name ≠ "." → name ≠ ".." → P name)
    (hhere : ∀ name ∈ here, P name) (hnames : ∀ name ∈ names, IsName name) :
    ∀ name ∈ w.reached, P name := by
  induction h with
  | arrive => exact hhere
  | dot _ ih => exact ih hhere fun name hname => hnames name (List.mem_cons_of_mem _ hname)
  | up _ ih =>
    exact ih (fun name hname => hhere name (List.dropLast_subset _ hname))
      fun name hname => hnames name (List.mem_cons_of_mem _ hname)
  | down hdot hup _ _ _ ih =>
    obtain ⟨hfirst, hrest⟩ := List.forall_mem_cons.mp hnames
    refine ih (fun name hname => ?_) hrest
    rcases List.mem_append.mp hname with hname | hname
    · exact hhere name hname
    · obtain rfl := List.mem_singleton.mp hname
      exact hlooked _ hfirst hdot hup
  | follow _ _ _ _ _ ih =>
    refine ih (fun name hname => ?_) fun name hname => ?_
    · split at hname
      · cases hname
      · exact hhere name hname
    · rcases List.mem_append.mp hname with hname | hname
      · exact isName_of_mem_read hname
      · exact hnames name (List.mem_cons_of_mem _ hname)

namespace Trust

open Files

variable {h : Host} {text : String} {policy : Policy} {p real : Path} {n : Node}
  {allowDirectory allowSymlink : Bool}

theorem canonical_of_node (hd : h.files.Direct p) (hn : h.node (Route.ofPath p) = .ok n) :
    h.canonical (Route.ofPath p) = .ok p := by
  obtain ⟨w, hw⟩ := exists_walk_of_node hn
  have hreached : w.reached = p := (leads_of_walk hw).reached_eq hd
  unfold Host.canonical
  rw [hw, ← hreached]
  rfl

/-- What was found at the end of a path passes again, now as what lies at the end itself. -/
theorem checkNode_real (hc : checkNode h p allowDirectory allowSymlink = .ok (real, n)) :
    checkNode h real allowDirectory false = .ok (real, n) := by
  obtain ⟨hr, hkind, hsafe⟩ := checkNode_eq_ok_iff.mp hc
  have hself := canonical_of_node (direct_of_canonical hr.canonical) hr.node
  exact checkNode_eq_ok_iff.mpr ⟨⟨hself, fun _ => rfl, hr.node⟩, hkind, hsafe⟩

/-- Above a path without links there are none either. -/
theorem checkAncestors_unlinked (hd : h.files.Direct p)
    (hc : checkAncestors h allowSymlink p = .ok ()) : checkAncestors h false p = .ok () := by
  obtain ⟨hlength, heach⟩ := checkAncestors_eq_ok_iff.mp hc
  refine checkAncestors_eq_ok_iff.mpr ⟨hlength, fun a ha => ?_⟩
  obtain ⟨d, m, hm⟩ := heach a ha
  have hself : d = a := canonical_of_direct (hd.of_ancestor ha) (checkNode_eq_ok hm).1
  exact ⟨d, m, hself ▸ checkNode_real hm⟩

theorem canonical_of_checkAncestors (hc : checkAncestors h false p = .ok ()) :
    ∀ a ∈ p.ancestors, h.canonical (Route.ofPath a) = .ok a := by
  intro a ha
  obtain ⟨d, m, hm⟩ := (checkAncestors_eq_ok_iff.mp hc).2 a ha
  have hr := (checkNode_eq_ok_iff.mp hm).1
  exact hr.unlinked rfl ▸ hr.canonical

theorem isName_of_canonical (hp : ∀ name ∈ p, IsName name)
    (hc : h.canonical (Route.ofPath p) = .ok real) : ∀ name ∈ real, IsName name := by
  obtain ⟨w, hw, rfl⟩ := exists_walk_of_canonical hc
  exact (leads_of_walk hw).forall_reached (fun _ hname _ _ => hname) (by simp) hp

/-- The text of a plain path without links names that path. -/
theorem absolute_text (hsafe : PathText.isSafe p.text = true) (hnames : ∀ name ∈ p, IsName name)
    (hd : h.files.Direct p) (hn : h.node (Route.ofPath p) = .ok n) :
    absolute h p.text = .ok p := by
  obtain ⟨w, hw⟩ := exists_walk_of_node hn
  have hnormal : IsNormal p := fun name hname =>
    ⟨hnames name hname, ne_dot_of_direct hd hname, ne_up_of_direct hd hname⟩
  refine (absolute_text_iff hnormal).mpr ⟨rfl, isSafe_iff.mp hsafe, fun last hlast => ?_⟩
  have hsize := size_le_of_walk (walk_of_ofPath hw) last (List.mem_of_mem_getLast? hlast)
  exact Nat.lt_succ_of_le hsize

/-- What a text leads to is trusted again under its own name, without any links, if that name may
be given at all. A relative text takes the names of the current directory along, and these hold no
slashes. -/
theorem validate_canonical (hcwd : ∀ cwd ∈ h.cwd, ∀ name ∈ cwd, IsName name)
    (hparents : policy.checkParents = true) (hv : validate h text policy = .ok real)
    (hsafe : PathText.isSafe real.text = true) :
    validate h real.text { policy with allowSymlink := false } = .ok real ∧
      ∀ q, q = real ∨ q ∈ real.ancestors → h.canonical (Route.ofPath q) = .ok q := by
  obtain ⟨p, n, hlimit, hp, hnode, hsize, hchains⟩ := validate_eq_ok_iff.mp hv
  have hr := (checkNode_eq_ok_iff.mp hnode).1
  have hdirect := direct_of_canonical hr.canonical
  have hnames := isName_of_canonical (isName_of_absolute hcwd hp) hr.canonical
  have habove : checkAncestors h false real = .ok () :=
    checkAncestors_unlinked hdirect (hchains hparents real (.inr rfl))
  constructor
  · refine validate_eq_ok_iff.mpr ⟨real, n, hlimit, absolute_text hsafe hnames hdirect hr.node,
      checkNode_real hnode, hsize, fun _ q hq => ?_⟩
    rwa [or_self_iff.mp hq]
  · rintro q (rfl | hq)
    · exact canonical_of_node hdirect hr.node
    · exact canonical_of_checkAncestors habove q hq

/-- A relative path over a link, and the file that it leads to. -/
theorem validate_canonical_linked :
    validate { linked 0o755 with cwd := some ["middle"] } "./link" Policy.file.withSymlinks =
        .ok ["last", "file"] ∧
      validate { linked 0o755 with cwd := some ["middle"] } "/last/file" Policy.file =
        .ok ["last", "file"] := by
  have hv : validate { linked 0o755 with cwd := some ["middle"] } "./link"
      Policy.file.withSymlinks = .ok ["last", "file"] := by
    decide +kernel
  have hcwd : ∀ cwd ∈ some ["middle"], ∀ name ∈ cwd, IsName name := by
    rintro cwd ⟨⟩ name hname
    obtain rfl := List.mem_singleton.mp hname
    exact ⟨by decide, by decide⟩
  exact ⟨hv, (validate_canonical hcwd rfl hv (by decide +kernel)).1⟩

end Trust

end NpuRuntime
