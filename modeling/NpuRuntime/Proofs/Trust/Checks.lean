import Mathlib.Data.Nat.Bitwise
import NpuRuntime.Proofs.Fallible
import NpuRuntime.Trust.Basic

/-! # The checks one by one
When each check of a path succeeds, said without the check: by where the path leads to and by the
mode bits, the owner and the size of the node that is there. -/
namespace NpuRuntime.Trust

variable {h : Host} {p real : Path} {n : Node} {allowDirectory allowSymlink : Bool}

/-- Nobody but the superuser and the current user may write to the node, and it lends nobody the
rights of its owner or group. -/
structure IsSafe (h : Host) (n : Node) : Prop where
  setsUser : n.mode.testBit 11 = false
  setsGroup : n.mode.testBit 10 = false
  groupWrites : n.mode.testBit 4 = false
  othersWrite : n.mode.testBit 1 = false
  owner : n.uid = 0 ∨ n.uid = h.user

theorem and_bits_eq_zero (m i j : Nat) :
    m &&& (2 ^ i ||| 2 ^ j) = 0 ↔ m.testBit i = false ∧ m.testBit j = false := by
  rw [Nat.and_or_distrib_left, Nat.or_eq_zero_iff, Nat.and_two_pow, Nat.and_two_pow]
  simp

theorem setsId_eq_false_iff : n.setsId = false ↔
    n.mode.testBit 11 = false ∧ n.mode.testBit 10 = false := by
  rw [← and_bits_eq_zero]
  exact bne_eq_false_iff_eq

theorem writableByOthers_eq_false_iff : n.writableByOthers = false ↔
    n.mode.testBit 4 = false ∧ n.mode.testBit 1 = false := by
  rw [← and_bits_eq_zero]
  exact bne_eq_false_iff_eq

theorem isSafe_node_iff : IsSafe h n ↔
    n.setsId = false ∧ n.writableByOthers = false ∧ (n.uid = 0 ∨ n.uid = h.user) := by
  rw [setsId_eq_false_iff, writableByOthers_eq_false_iff]
  constructor
  · intro hn
    exact ⟨⟨hn.setsUser, hn.setsGroup⟩, ⟨hn.groupWrites, hn.othersWrite⟩, hn.owner⟩
  · rintro ⟨⟨huser, hgroup⟩, ⟨hgroupWrites, hothersWrite⟩, howner⟩
    exact ⟨huser, hgroup, hgroupWrites, hothersWrite, howner⟩

/-- A path leads to another, to itself unless links are allowed, and a node is found there. -/
structure Resolves (h : Host) (allowSymlink : Bool) (p real : Path) (n : Node) : Prop where
  canonical : h.canonical (Route.ofPath p) = .ok real
  unlinked : allowSymlink = false → real = p
  node : h.node (Route.ofPath real) = .ok n

theorem checkNode_eq_ok_iff : checkNode h p allowDirectory allowSymlink = .ok (real, n) ↔
    Resolves h allowSymlink p real n ∧
      (n.isFile = true ∨ allowDirectory = true ∧ n.isDirectory = true) ∧ IsSafe h n := by
  have hkind (m : Node) : (!(m.isFile || allowDirectory && m.isDirectory)) = true ↔
      ¬ (m.isFile = true ∨ allowDirectory = true ∧ m.isDirectory = true) := by
    rw [Bool.not_eq_true', ← Bool.not_eq_true, Bool.or_eq_true, Bool.and_eq_true]
  have howner (m : Node) : (m.uid ≠ 0 ∧ m.uid ≠ h.user) ↔ ¬ (m.uid = 0 ∨ m.uid = h.user) := by
    rw [not_or]
  unfold checkNode
  rw [isSafe_node_iff]
  constructor
  · intro hc
    cases hcanonical : h.canonical (Route.ofPath p) with
    | error e => simp [hcanonical] at hc
    | ok found =>
      simp only [hcanonical] at hc
      split at hc
      · cases hc
      next hlink =>
      cases hnode : h.node (Route.ofPath found) with
      | error e => simp [hnode] at hc
      | ok m =>
        simp only [hnode, hkind, howner] at hc
        split at hc
        · cases hc
        next hk =>
        split at hc
        · cases hc
        next hset =>
        split at hc
        · cases hc
        next hwrite =>
        split at hc
        · cases hc
        next ho =>
        cases hc
        refine ⟨⟨hcanonical, ?_, hnode⟩, not_not.mp hk, by simpa using hset, by simpa using hwrite,
          not_not.mp ho⟩
        intro hnone
        by_contra hne
        exact hlink ⟨hne, by simp [hnone]⟩
  · rintro ⟨hr, hk, hset, hwrite, ho⟩
    have hlink : ¬ (real ≠ p ∧ (!allowSymlink) = true) := by
      rintro ⟨hne, hnone⟩
      exact hne (hr.unlinked (by simpa using hnone))
    simp only [hr.canonical, hr.node, if_neg hlink, hkind, howner]
    rw [if_neg (not_not.mpr hk), if_neg (by simp [hset]), if_neg (by simp [hwrite]),
      if_neg (not_not.mpr ho)]

/-- Directories pass if there are not too many of them and each one passes. -/
theorem checkEach_eq_ok_iff {left : Nat} {ps : List Path} :
    checkEach h allowSymlink left ps = .ok () ↔
      ps.length ≤ left ∧ ∀ p ∈ ps, ∃ real n, checkNode h p true allowSymlink = .ok (real, n) := by
  induction ps generalizing left with
  | nil => simp [checkEach_nil]
  | cons p ps ih =>
    cases left with
    | zero => simp [checkEach]
    | succ left =>
      rw [checkEach, bind_eq_ok]
      constructor
      · rintro ⟨⟨real, n⟩, hp, hps⟩
        obtain ⟨hlength, heach⟩ := ih.mp hps
        refine ⟨by simpa using hlength, fun q hq => ?_⟩
        rcases List.mem_cons.mp hq with rfl | hq
        · exact ⟨real, n, hp⟩
        · exact heach q hq
      · rintro ⟨hlength, heach⟩
        obtain ⟨real, n, hp⟩ := heach p List.mem_cons_self
        refine ⟨(real, n), hp, ih.mpr ⟨by simpa using hlength, fun q hq => ?_⟩⟩
        exact heach q (List.mem_cons_of_mem p hq)

theorem checkAncestors_eq_ok_iff : checkAncestors h allowSymlink p = .ok () ↔
    p.length ≤ 99 ∧
      ∀ a ∈ p.ancestors, ∃ real n, checkNode h a true allowSymlink = .ok (real, n) := by
  rw [checkAncestors, checkEach_eq_ok_iff, Path.length_ancestors, maxDepth]

theorem checkLimit_eq_ok_iff {limit : Option Nat} :
    checkLimit limit = .ok () ↔ ∀ mb ∈ limit, mb ≤ 102400 := by
  cases limit with
  | none => simp [checkLimit]
  | some mb => simp [checkLimit, Policy.maxSizeLimit]

theorem checkSize_eq_ok_iff {limit : Option Nat} : checkSize limit real n = .ok () ↔
    (n.isFile = true → ∀ mb ∈ limit, n.size ≤ mb * (1024 * 1024)) := by
  cases limit with
  | none => simp [checkSize]
  | some mb => simp [checkSize, megabyte]

/-- A path is accepted by a success of each check. A path that leads to itself has one chain of
directories above it, any other has two. -/
theorem validate_eq_ok_iff {text : String} {policy : Policy} :
    validate h text policy = .ok real ↔ ∃ p n,
      checkLimit policy.sizeLimit = .ok () ∧ absolute h text = .ok p ∧
      checkNode h p policy.allowDirectory policy.allowSymlink = .ok (real, n) ∧
      checkSize policy.sizeLimit real n = .ok () ∧
      (policy.checkParents = true → ∀ q, q = p ∨ q = real →
        checkAncestors h policy.allowSymlink q = .ok ()) := by
  unfold validate
  constructor
  · intro hv
    obtain ⟨⟨⟩, hlimit, hv⟩ := bind_eq_ok.mp hv
    obtain ⟨p, hp, hv⟩ := bind_eq_ok.mp hv
    obtain ⟨⟨found, n⟩, hnode, hv⟩ := bind_eq_ok.mp hv
    obtain ⟨⟨⟩, hsize, hv⟩ := bind_eq_ok.mp hv
    by_cases hparents : policy.checkParents = true
    · simp only [hparents, if_true] at hv
      obtain ⟨⟨⟩, hnamed, hv⟩ := bind_eq_ok.mp hv
      by_cases he : found = p
      · simp only [he, ne_eq, not_true, if_false] at hv
        cases hv
        refine ⟨_, n, hlimit, hp, he ▸ hnode, he ▸ hsize, ?_⟩
        rintro - q (rfl | rfl) <;> exact hnamed
      · simp only [ne_eq, he, not_false_eq_true, if_true] at hv
        obtain ⟨⟨⟩, hfound, hv⟩ := bind_eq_ok.mp hv
        cases hv
        refine ⟨p, n, hlimit, hp, hnode, hsize, ?_⟩
        rintro - q (rfl | rfl)
        · exact hnamed
        · exact hfound
    · simp only [hparents] at hv
      cases hv
      exact ⟨p, n, hlimit, hp, hnode, hsize, fun h => absurd h hparents⟩
  · rintro ⟨p, n, hlimit, hp, hnode, hsize, hparents⟩
    refine bind_eq_ok.mpr ⟨(), hlimit, bind_eq_ok.mpr ⟨p, hp, ?_⟩⟩
    refine bind_eq_ok.mpr ⟨(real, n), hnode, ?_⟩
    refine bind_eq_ok.mpr ⟨(), hsize, ?_⟩
    by_cases hc : policy.checkParents = true
    · have hnamed := hparents hc p (.inl rfl)
      have hfound := hparents hc real (.inr rfl)
      simp only [hc, if_true]
      refine bind_eq_ok.mpr ⟨(), hnamed, ?_⟩
      by_cases he : real = p
      · simp only [he, ne_eq, not_true, if_false]
        rfl
      · simp only [ne_eq, he, not_false_eq_true, if_true]
        exact bind_eq_ok.mpr ⟨(), hfound, rfl⟩
    · simp only [hc]
      rfl

end NpuRuntime.Trust
