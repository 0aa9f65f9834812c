/-! # The first of a list
What a search from the front of a list comes to. -/
namespace NpuRuntime

variable {α β : Type}

/-- What `R` has for the first element that it has anything for. -/
def First (xs : List α) (R : α → β → Prop) (y : β) : Prop :=
  ∃ before x after, xs = before ++ x :: after ∧ R x y ∧ ∀ z ∈ before, ∀ b, ¬R z b

variable {xs : List α} {g : α → Option β} {R : α → β → Prop}

theorem findSome?_eq_none_iff_none (hg : ∀ x ∈ xs, ∀ y, g x = some y ↔ R x y) :
    xs.findSome? g = none ↔ ∀ x ∈ xs, ∀ y, ¬R x y := by
  rw [List.findSome?_eq_none_iff]
  refine forall₂_congr fun x hx => ?_
  rw [Option.eq_none_iff_forall_ne_some]
  exact forall_congr' fun y => not_congr (hg x hx y)

theorem findSome?_eq_some_iff_first (hg : ∀ x ∈ xs, ∀ y, g x = some y ↔ R x y) {y : β} :
    xs.findSome? g = some y ↔ First xs R y := by
  rw [List.findSome?_eq_some_iff, First]
  refine exists_congr fun before => exists_congr fun x => exists_congr fun after => ?_
  refine and_congr_right fun hxs => ?_
  subst hxs
  refine and_congr (hg x (by simp) y) ?_
  rw [← List.findSome?_eq_none_iff]
  exact findSome?_eq_none_iff_none fun z hz => hg z (List.mem_append_left _ hz)

end NpuRuntime
