import NpuRuntime.Host.Basic
import NpuRuntime.Proofs.Fallible

/-! # Stored files
Storing gives one file new content. Its mode and its owner stay, and so does every other node. -/
namespace NpuRuntime

namespace Files

variable {fs : Files} {p q : Path} {n : Node}

theorem node?_cons (e : Path × Node) (es : List (Path × Node)) (p : Path) :
    Files.node? ⟨e :: es⟩ p = if e.1 = p then some e.2 else Files.node? ⟨es⟩ p := by
  by_cases he : e.1 = p <;> simp [node?, he]

theorem node?_append_singleton (es : List (Path × Node)) (e : Path × Node) (q : Path) :
    Files.node? ⟨es ++ [e]⟩ q =
      (Files.node? ⟨es⟩ q).or (if e.1 = q then some e.2 else none) := by
  induction es with
  | nil => by_cases he : e.1 = q <;> simp [node?, he]
  | cons d es ih =>
    rw [List.cons_append, node?_cons, node?_cons, ih]
    split <;> rfl

theorem node?_map_put (es : List (Path × Node)) (p q : Path) (n : Node) :
    Files.node? ⟨es.map fun e => if e.1 == p then (p, n) else e⟩ q =
      if q = p then (Files.node? ⟨es⟩ p).map fun _ => n else Files.node? ⟨es⟩ q := by
  induction es with
  | nil => simp [node?]
  | cons e es ih =>
    rw [List.map_cons, node?_cons, ih, node?_cons, node?_cons]
    by_cases hq : q = p
    · subst hq
      by_cases he : e.1 = q <;> simp [he]
    · by_cases he : e.1 = p
      · simp [he, hq, Ne.symm hq]
      · simp [he, hq]

theorem any_eq_isSome_node? (fs : Files) (p : Path) :
    fs.entries.any (·.1 == p) = (fs.node? p).isSome := by
  rw [node?, Option.isSome_map, List.isSome_find?]

/-- A node that is put at a path is found there, and every other path keeps its node. -/
theorem node?_put (fs : Files) (p q : Path) (n : Node) :
    (fs.put p n).node? q = if q = p then some n else fs.node? q := by
  rw [put, any_eq_isSome_node?]
  cases hp : fs.node? p with
  | some old =>
    rw [Option.isSome_some, if_pos rfl, node?_map_put, hp]
    rfl
  | none =>
    rw [Option.isSome_none, if_neg Bool.false_ne_true, node?_append_singleton]
    by_cases hq : q = p
    · rw [hq, hp]
      simp
    · have hne : ¬ p = q := Ne.symm hq
      rw [if_neg hq, if_neg hne, Option.or_none]

end Files

theorem Content.toList_stored (bytes : List UInt8) : (Content.mk bytes 0).toList = bytes :=
  List.append_nil bytes

namespace Host

variable {h : Host}

theorem read_eq_ok {r : Route} {content : Content} (hr : h.read r = .ok content) :
    ∃ n, h.node r = .ok n ∧
      (n.kind = .file content ∨ n.kind = .reporter ∧ content = ⟨[], 0⟩) := by
  obtain ⟨n, hn, hc⟩ := bind_eq_ok.mp hr
  refine ⟨n, hn, ?_⟩
  cases hp : n.permits h.effective .read <;> cases hk : n.kind <;>
    simp_all [throw, throwThe, MonadExceptOf.throw, bind, Except.bind, pure, Except.pure]

theorem writable_eq_ok {r : Route} {p : Path} (hw : h.writable r = .ok p) :
    h.canonical r = .ok p := by
  obtain ⟨found, hfound, hw⟩ := bind_eq_ok.mp hw
  obtain ⟨n, -, hw⟩ := bind_eq_ok.mp hw
  cases hd : n.isDirectory <;> cases hp : n.permits h.effective .write <;>
    simp_all [throw, throwThe, MonadExceptOf.throw, bind, Except.bind, pure, Except.pure]

/-- One file has got new content. Its mode, its owner and all else on the host are as before. -/
structure Rewrites (before after : Host) (file : Path) (old : Content) (new : List UInt8) :
    Prop where
  rewritten : ∃ n, before.files.node? file = some n ∧ n.kind = .file old ∧
    after.files.node? file = some { n with kind := .file ⟨new, 0⟩ }
  others : ∀ p, p ≠ file → after.files.node? p = before.files.node? p
  process : after = { before with files := after.files }

theorem rewrites_store {file : Path} {n : Node} {old : Content}
    (hn : h.files.node? file = some n) (hk : n.kind = .file old) (new : List UInt8) :
    Rewrites h (h.store file new) file old new := by
  have hs : h.store file new =
      { h with files := h.files.put file { n with kind := .file ⟨new, 0⟩ } } := by
    rw [store, hn]
  rw [hs]
  refine ⟨⟨n, hn, hk, ?_⟩, fun p hp => ?_, rfl⟩
  · rw [Files.node?_put, if_pos rfl]
  · rw [Files.node?_put, if_neg hp]

end Host

end NpuRuntime
