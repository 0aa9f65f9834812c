import Mathlib.Tactic.MkIffOfInductiveProp
import NpuRuntime.Proofs.Bundle.Growth

/-! # Access to added devices
Rules apply in the order in which they stand, and a later one overrides an earlier one. A device
that was added can be used unless its rule had been there before, ahead of one that denies it.
However many devices are offered, no path and no rule is written a second time. -/
namespace NpuRuntime.Bundle

/-- Full access to a device, for its kind and its numbers. -/
@[mk_iff] structure Rule.Allows (r : Rule) (d : Device) : Prop where
  allow : r.allow = true
  kind : r.kind = some d.kind
  major : r.major = d.major
  minor : r.minor = d.minor
  access : r.access = some "rwm"

/-- Takes a device away. A kind or a number that is left out stands for all, as does the kind of
any device. -/
@[mk_iff] structure Rule.Denies (r : Rule) (d : Device) : Prop where
  deny : r.allow = false
  kind : r.kind = none ∨ r.kind = some "a" ∨ r.kind = some d.kind
  major : r.major = none ∨ r.major = d.major
  minor : r.minor = none ∨ r.minor = d.minor

instance (r : Rule) (d : Device) : Decidable (r.Allows d) :=
  decidable_of_iff' _ (Rule.allows_iff r d)

instance (r : Rule) (d : Device) : Decidable (r.Denies d) :=
  decidable_of_iff' _ (Rule.denies_iff r d)

/-- Some rule allows the device, and none behind it takes the device away. -/
def Usable (rules : List Rule) (d : Device) : Prop :=
  ∃ before r after, rules = before ++ r :: after ∧ r.Allows d ∧ ∀ q ∈ after, ¬ q.Denies d

theorem usable_nil (d : Device) : ¬ Usable [] d := by
  rintro ⟨before, r, after, hrules, -⟩
  simp at hrules

theorem usable_cons {r : Rule} {rules : List Rule} {d : Device} : Usable (r :: rules) d ↔
    Usable rules d ∨ r.Allows d ∧ ∀ q ∈ rules, ¬ q.Denies d := by
  constructor
  · rintro ⟨before, q, after, hrules, hq, hafter⟩
    cases before with
    | nil =>
      obtain ⟨rfl, rfl⟩ := List.cons.inj hrules
      exact .inr ⟨hq, hafter⟩
    | cons first before =>
      obtain ⟨-, rfl⟩ := List.cons.inj hrules
      exact .inl ⟨before, q, after, rfl, hq, hafter⟩
  · rintro (⟨before, q, after, rfl, hq, hafter⟩ | ⟨hr, hrules⟩)
    · exact ⟨r :: before, q, after, rfl, hq, hafter⟩
    · exact ⟨[], r, rules, rfl, hr, hrules⟩

theorem Device.allows_rule (d : Device) : d.rule.Allows d := ⟨rfl, rfl, rfl, rfl, rfl⟩

theorem usable_append_rule (rules : List Rule) (d : Device) : Usable (rules ++ [d.rule]) d :=
  ⟨rules, d.rule, [], rfl, d.allows_rule, by simp⟩

namespace Spec

variable {s : Spec} {d : Device}

theorem offer_eq_true_iff : (s.offer d).1 = true ↔ ∀ e ∈ s.devices, e.path ≠ d.path := by
  simp [offer, hasDevice]

theorem offer_of_refused (h : (s.offer d).1 = false) : (s.offer d).2 = s :=
  addDevice_of_hasDevice (by simpa [offer] using h)

theorem devices_offer (s : Spec) (d : Device) :
    (s.offer d).2.devices = s.devices ++ if (s.offer d).1 then [d] else [] := by
  change (s.addDevice d).devices = _
  rw [devices_addDevice, offer]
  cases s.hasDevice d.path <;> simp

theorem rules_offer (h : (s.offer d).1 = true) :
    (s.offer d).2.rules = if d.rule ∈ s.rules then s.rules else s.rules ++ [d.rule] := by
  have hfree : s.hasDevice d.path = false := by simpa [offer] using h
  change (s.addDevice d).rules = _
  rw [rules_addDevice, hfree]
  simp

theorem mem_rules_offer (h : (s.offer d).1 = true) : d.rule ∈ (s.offer d).2.rules := by
  rw [rules_offer h]
  split
  · assumption
  · simp

/-- A device that was added has a rule. It can be used if that rule came in with it; otherwise it
can be used exactly if the rules as they were let it be used. -/
theorem usable_offer_iff (h : (s.offer d).1 = true) :
    (∃ r ∈ (s.offer d).2.rules, r.Allows d) ∧
      (Usable (s.offer d).2.rules d ↔ d.rule ∉ s.rules ∨ Usable s.rules d) := by
  refine ⟨⟨d.rule, mem_rules_offer h, d.allows_rule⟩, ?_⟩
  rw [rules_offer h]
  by_cases hr : d.rule ∈ s.rules
  · simp [hr]
  · have hlast := usable_append_rule s.rules d
    simp [hr, hlast]

def denial : Rule := { allow := false, access := some "rwm" }

/-- A document with rules of its own, ahead of one that denies everything. -/
def barred (rules : List Rule) : Spec where
  process := {}
  root := { path := "rootfs" }
  linux := some { resources := some { devices := some (rules ++ [denial]) } }

def davinci (number : Nat) : Device where
  path := "/dev/davinci" ++ toString number
  kind := "c"
  major := some 236
  minor := some number

/-- A rule that comes in with its device is the last one. -/
theorem usable_offer_iff_denied :
    ((barred []).offer (davinci 0)).1 = true ∧
      Usable ((barred []).offer (davinci 0)).2.rules (davinci 0) := by
  have hadded : ((barred []).offer (davinci 0)).1 = true := by decide
  have hfresh : (davinci 0).rule ∉ (barred []).rules := by decide
  exact ⟨hadded, (usable_offer_iff hadded).2.mpr (.inl hfresh)⟩

/-- A rule that was there before stays ahead of the denial, and the device cannot be used. -/
theorem not_usable_offer :
    ((barred [(davinci 0).rule]).offer (davinci 0)).1 = true ∧
      davinci 0 ∈ ((barred [(davinci 0).rule]).offer (davinci 0)).2.devices ∧
      ¬ Usable ((barred [(davinci 0).rule]).offer (davinci 0)).2.rules (davinci 0) := by
  have hrules : ((barred [(davinci 0).rule]).offer (davinci 0)).2.rules =
      [(davinci 0).rule, denial] := by
    decide
  refine ⟨by decide, by decide, ?_⟩
  rw [hrules, usable_cons, usable_cons]
  rintro ((hnil | ⟨hallows, -⟩) | ⟨-, hnone⟩)
  · exact usable_nil (davinci 0) hnil
  · exact absurd hallows (by decide)
  · exact hnone denial (List.mem_singleton_self denial) (by decide)

end Spec

/-- What was added stands behind the old entries, is none of them, and is there once. -/
def AddsNew {α : Type} (old now : List α) : Prop :=
  ∃ added, now = old ++ added ∧ added.Nodup ∧ ∀ a ∈ added, a ∉ old

namespace AddsNew

variable {α : Type} {old mid now : List α}

theorem refl (old : List α) : AddsNew old old := ⟨[], by simp⟩

theorem single {a : α} (h : a ∉ old) : AddsNew old (old ++ [a]) :=
  ⟨[a], rfl, by simp, by simpa using h⟩

theorem trans (hmid : AddsNew old mid) (hnow : AddsNew mid now) : AddsNew old now := by
  obtain ⟨first, rfl, hfirst, hnew⟩ := hmid
  obtain ⟨second, rfl, hsecond, hlater⟩ := hnow
  have hdisjoint : ∀ a ∈ first, ∀ b ∈ second, a ≠ b := by
    rintro a ha b hb rfl
    exact hlater a hb (List.mem_append_right old ha)
  refine ⟨first ++ second, List.append_assoc old first second,
    List.nodup_append.mpr ⟨hfirst, hsecond, hdisjoint⟩, fun a ha => ?_⟩
  rcases List.mem_append.mp ha with ha | ha
  · exact hnew a ha
  · exact fun hold => hlater a ha (List.mem_append_left first hold)

theorem mem (h : AddsNew old now) {a : α} (ha : a ∈ old) : a ∈ now := by
  obtain ⟨added, rfl, -⟩ := h
  exact List.mem_append_left added ha

theorem nodup (h : AddsNew old now) (ho : old.Nodup) : now.Nodup := by
  obtain ⟨added, rfl, hadded, hnew⟩ := h
  refine List.nodup_append.mpr ⟨ho, hadded, ?_⟩
  rintro a ha b hb rfl
  exact hnew a hb ha

end AddsNew

namespace Spec

theorem addsNew_paths_offer (s : Spec) (d : Device) :
    AddsNew (s.devices.map Device.path) ((s.offer d).2.devices.map Device.path) := by
  rw [devices_offer]
  cases h : (s.offer d).1 with
  | false => simpa using AddsNew.refl (s.devices.map Device.path)
  | true =>
    have hfree : d.path ∉ s.devices.map Device.path := by
      simpa using offer_eq_true_iff.mp h
    simpa using AddsNew.single hfree

theorem addsNew_rules_offer (s : Spec) (d : Device) : AddsNew s.rules (s.offer d).2.rules := by
  cases h : (s.offer d).1 with
  | false =>
    rw [offer_of_refused h]
    exact AddsNew.refl s.rules
  | true =>
    rw [rules_offer h]
    split
    · exact AddsNew.refl s.rules
    · next hnew => exact AddsNew.single hnew

/-- The document after these devices were offered one by one. -/
def offerAll (s : Spec) (ds : List Device) : Spec := ds.foldl (fun w d => (w.offer d).2) s

/-- Those of them that were added. -/
def added (s : Spec) : List Device → List Device
  | [] => []
  | d :: ds =>
    if (s.offer d).1 then d :: (s.offer d).2.added ds else (s.offer d).2.added ds

theorem offerAll_cons (s : Spec) (d : Device) (ds : List Device) :
    s.offerAll (d :: ds) = (s.offer d).2.offerAll ds := rfl

theorem devices_offerAll (s : Spec) (ds : List Device) :
    (s.offerAll ds).devices = s.devices ++ s.added ds := by
  induction ds generalizing s with
  | nil => simp [offerAll, added]
  | cons d ds ih =>
    rw [offerAll_cons, ih, devices_offer, added]
    cases (s.offer d).1 <;> simp

theorem addsNew_paths_offerAll (s : Spec) (ds : List Device) :
    AddsNew (s.devices.map Device.path) ((s.offerAll ds).devices.map Device.path) := by
  induction ds generalizing s with
  | nil => exact AddsNew.refl _
  | cons d ds ih => exact (addsNew_paths_offer s d).trans (ih (s.offer d).2)

theorem addsNew_rules_offerAll (s : Spec) (ds : List Device) :
    AddsNew s.rules (s.offerAll ds).rules := by
  induction ds generalizing s with
  | nil => exact AddsNew.refl _
  | cons d ds ih => exact (addsNew_rules_offer s d).trans (ih (s.offer d).2)

/-- The rule that a device came with, or met, is not taken away by those that are offered later. -/
theorem mem_rules_offerAll {s : Spec} {d : Device} {ds : List Device} (hd : d ∈ s.added ds) :
    d.rule ∈ (s.offerAll ds).rules := by
  induction ds generalizing s with
  | nil => cases hd
  | cons first ds ih =>
    rw [added] at hd
    rw [offerAll_cons]
    split at hd
    · next h =>
      rcases List.mem_cons.mp hd with rfl | hd
      · exact (addsNew_rules_offerAll _ ds).mem (mem_rules_offer h)
      · exact ih hd
    · exact ih hd

/-- What a document is after any devices were offered to it one by one, and how it answers to the
next one. -/
structure Takes (s : Spec) (ds : List Device) : Prop where
  devices : (s.offerAll ds).devices = s.devices ++ s.added ds
  distinct : (s.devices.map Device.path).Nodup → ((s.offerAll ds).devices.map Device.path).Nodup
  answer : ∀ d, ((s.offerAll ds).offer d).1 = true ↔ ∀ e ∈ s.devices ++ s.added ds, e.path ≠ d.path
  refused : ∀ d, ((s.offerAll ds).offer d).1 = false → ((s.offerAll ds).offer d).2 = s.offerAll ds
  allowed : ∀ d ∈ s.added ds, ∃ r ∈ (s.offerAll ds).rules, r.Allows d
  rules : AddsNew s.rules (s.offerAll ds).rules

/-- Whatever is offered, a path is taken once, each device that was added is allowed, and no rule
is written twice. -/
theorem takes_offerAll (s : Spec) (ds : List Device) : Takes s ds where
  devices := devices_offerAll s ds
  distinct := (addsNew_paths_offerAll s ds).nodup
  answer d := by rw [offer_eq_true_iff, devices_offerAll]
  refused _ h := offer_of_refused h
  allowed d hd := ⟨d.rule, mem_rules_offerAll hd, d.allows_rule⟩
  rules := addsNew_rules_offerAll s ds

/-- Two devices of one node share its rule. -/
example : ((barred []).offerAll [davinci 0, { davinci 0 with path := "/dev/other" }]).rules =
    [denial, (davinci 0).rule] := by
  decide

end Spec

end NpuRuntime.Bundle
