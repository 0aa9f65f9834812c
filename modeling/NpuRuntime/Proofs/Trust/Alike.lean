import NpuRuntime.Proofs.Host.Alike
import NpuRuntime.Proofs.Trust.Resolution

/-! # Trust where only content differs
Whether a path is trusted depends on text, links, modes and owners, and on the size of the one file
at its end. Where only content differs the answer is the same, unless that file is too large on one
of the two hosts. -/
namespace NpuRuntime.Trust

variable {h g : Host} {text : String} {policy : Policy} {allowDirectory allowSymlink : Bool}

theorem absolute_alike (ha : h.Alike g) (text : String) : absolute g text = absolute h text := by
  unfold absolute
  rw [ha.cwd]

/-- Like nodes pass, or a path is refused for one reason. -/
theorem checkNode_alike_cases (ha : h.Alike g) (p : Path) (allowDirectory allowSymlink : Bool) :
    (∃ f, checkNode h p allowDirectory allowSymlink = .error f ∧
      checkNode g p allowDirectory allowSymlink = .error f) ∨
    ∃ real n m, Node.Like n m ∧ checkNode h p allowDirectory allowSymlink = .ok (real, n) ∧
      checkNode g p allowDirectory allowSymlink = .ok (real, m) := by
  unfold checkNode
  rw [Host.canonical_alike ha]
  cases h.canonical (Route.ofPath p) with
  | error e => exact .inl ⟨_, rfl, rfl⟩
  | ok real =>
    dsimp only
    split
    · exact .inl ⟨_, rfl, rfl⟩
    obtain ⟨e, hn, hm⟩ | ⟨n, m, hl, hn, hm⟩ := Host.node_alike_cases ha (Route.ofPath real)
    · rw [hn, hm]
      exact .inl ⟨_, rfl, rfl⟩
    · rw [hn, hm]
      dsimp only
      rw [hl.isFile, hl.isDirectory, hl.setsId, hl.writableByOthers, hl.mode, hl.uid, ha.user]
      split
      · exact .inl ⟨_, rfl, rfl⟩
      split
      · exact .inl ⟨_, rfl, rfl⟩
      split
      · exact .inl ⟨_, rfl, rfl⟩
      split
      · exact .inl ⟨_, rfl, rfl⟩
      exact .inr ⟨real, n, m, hl, rfl, rfl⟩

theorem checkEach_alike (ha : h.Alike g) (allowSymlink : Bool) (left : Nat) (ps : List Path) :
    checkEach g allowSymlink left ps = checkEach h allowSymlink left ps := by
  induction ps generalizing left with
  | nil => rw [checkEach_nil, checkEach_nil]
  | cons p ps ih =>
    cases left with
    | zero => rfl
    | succ left =>
      unfold checkEach
      obtain ⟨f, hn, hm⟩ | ⟨real, n, m, -, hn, hm⟩ := checkNode_alike_cases ha p true allowSymlink
      · rw [hn, hm]
        rfl
      · rw [hn, hm]
        exact ih left

theorem checkAncestors_alike (ha : h.Alike g) (allowSymlink : Bool) (p : Path) :
    checkAncestors g allowSymlink p = checkAncestors h allowSymlink p :=
  checkEach_alike ha allowSymlink maxDepth p.ancestors

/-- Nothing but the size of the node at the end can make a difference. -/
theorem validate_eq_of_alike (ha : h.Alike g)
    (hsize : ∀ p real n m, absolute h text = .ok p →
      checkNode h p policy.allowDirectory policy.allowSymlink = .ok (real, n) →
      checkNode g p policy.allowDirectory policy.allowSymlink = .ok (real, m) →
      checkSize policy.sizeLimit real m = checkSize policy.sizeLimit real n) :
    validate g text policy = validate h text policy := by
  unfold validate
  rw [absolute_alike ha]
  refine congrArg (checkLimit policy.sizeLimit >>= ·) (funext fun _ => ?_)
  cases hp : absolute h text with
  | error f => rfl
  | ok p =>
    dsimp only [bind, Except.bind]
    obtain ⟨f, hn, hm⟩ | ⟨real, n, m, -, hn, hm⟩ :=
      checkNode_alike_cases ha p policy.allowDirectory policy.allowSymlink
    · rw [hn, hm]
    · rw [hn, hm]
      dsimp only
      rw [hsize p real n m hp hn hm, checkAncestors_alike ha, checkAncestors_alike ha]

/-- A trusted path stays trusted while its file is not too large. -/
theorem validate_alike {real : Path} (ha : h.Alike g) (hv : validate h text policy = .ok real)
    (hsize : ∀ m, g.node (Route.ofPath real) = .ok m → m.isFile = true →
      ∀ mb ∈ policy.sizeLimit, m.size ≤ mb * (1024 * 1024)) :
    validate g text policy = .ok real := by
  obtain ⟨p, n, -, hp, hn, hsmall, -⟩ := validate_eq_ok_iff.mp hv
  rw [validate_eq_of_alike ha, hv]
  intro p' real' n' m hp' hn' hm
  cases hp.symm.trans hp'
  cases hn.symm.trans hn'
  have hresolves := (checkNode_eq_ok_iff.mp hm).1
  rw [hsmall, checkSize_eq_ok_iff]
  exact hsize m hresolves.node

/-- Where sizes are the same too, so is every answer. -/
theorem validate_eq_of_sizes (ha : h.Alike g)
    (hsizes : ∀ p n m, h.files.node? p = some n → g.files.node? p = some m → m.size = n.size)
    (text : String) (policy : Policy) : validate g text policy = validate h text policy := by
  refine validate_eq_of_alike ha fun p real n m _ hn hm => ?_
  have hn := (checkNode_eq_ok_iff.mp hn).1
  have hm := (checkNode_eq_ok_iff.mp hm).1
  have hold := node?_of_direct (direct_of_canonical hn.canonical) hn.node
  have hnew := node?_of_direct (direct_of_canonical hm.canonical) hm.node
  have hlike := ha.files real
  rw [hold, hnew] at hlike
  cases hlike with
  | some hl =>
    unfold checkSize
    rw [hl.isFile, hsizes real n m hold hnew]

end NpuRuntime.Trust
