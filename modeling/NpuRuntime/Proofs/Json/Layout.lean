import Mathlib.Data.List.Forall2
import NpuRuntime.Json.Reader

/-! # Layouts
Two values are the same for a layout if they differ only in the order of the members that it names,
and in optional ones that are null in the first and left out in the second. All that a layout does
not name is equal, and in the same order. -/
namespace NpuRuntime.Json

/-- What stands where in a value: anything, items of one layout, or members with names. -/
inductive Layout where
  | value
  | list (item : Layout)
  | record (shape : Raw.Shape) (inner : String → Layout)

/-- What becomes of one named member. -/
inductive Kept (optional : Bool) (same : Json → Json → Prop) : Option Json → Option Json → Prop
  | absent : Kept optional same none none
  | dropped (h : optional = true) : Kept optional same (some .null) none
  | kept {v w : Json} (h : same v w) : Kept optional same (some v) (some w)

/-- The members that a shape does not name. -/
def Raw.Shape.rest (shape : Raw.Shape) (ms : Members) : Members :=
  ms.filter fun m => !shape.knows m.1

/-- Equal but for the order of named members and for nulls of optional ones. -/
def Same : Layout → Json → Json → Prop
  | .value, v, w => v = w
  | .list item, v, w => ∃ vs ws, v = .array vs ∧ w = .array ws ∧ List.Forall₂ (Same item) vs ws
  | .record shape inner, v, w => ∃ ms ns, v = .object ms ∧ w = .object ns ∧
      (ms.map Prod.fst).Nodup ∧ (ns.map Prod.fst).Nodup ∧ shape.rest ms = shape.rest ns ∧
      ∀ name, shape.knows name = true →
        Kept (shape.optional.contains name) (Same (inner name)) (get? ms name) (get? ns name)

end NpuRuntime.Json
