import NpuRuntime.Proofs.Host.Leading
import NpuRuntime.Proofs.Host.Passing

/-! # Walks without dots
A dot is looked up where it stands and leads nowhere else. So a walk goes on in the same way when
dots are left out of its names; what is lost is that a last dot asks for a directory. -/
namespace NpuRuntime.Files

/-- The same names without some of the dots among them. -/
inductive DropsDots : List String → List String → Prop
  | nil : DropsDots [] []
  | keep (name : String) {names kept : List String} :
    DropsDots names kept → DropsDots (name :: names) (name :: kept)
  | drop {names kept : List String} : DropsDots names kept → DropsDots ("." :: names) kept

namespace DropsDots

theorem filter (names : List String) : DropsDots names (names.filter (· ≠ ".")) := by
  induction names with
  | nil => exact .nil
  | cons name names ih =>
    by_cases hdot : name = "."
    · subst hdot
      exact .drop ih
    · rw [List.filter_cons, if_pos (decide_eq_true hdot)]
      exact .keep name ih

variable {names kept : List String}

theorem append_left (first : List String) (hd : DropsDots names kept) :
    DropsDots (first ++ names) (first ++ kept) := by
  induction first with
  | nil => exact hd
  | cons name _ ih => exact .keep name ih

/-- Names that are all left out end in a dot. -/
theorem getLast?_of_nil (hd : DropsDots names []) (hne : names ≠ []) :
    names.getLast? = some "." := by
  induction names with
  | nil => exact absurd rfl hne
  | cons name names ih =>
    cases hd with
    | drop hd =>
      cases names with
      | nil => rfl
      | cons next rest => exact ih hd (List.cons_ne_nil next rest)

end DropsDots

variable {fs : Files} {who : Identity} {here : Path} {names kept rest : List String} {name : String}
  {slash slash' : Bool} {searched : List Path} {w : Walk}

/-- Only a directory will do at the end of these names. -/
def EndsInDirectory (names : List String) (slash : Bool) : Prop :=
  slash = true ∨ names.getLast? = some "."

theorem EndsInDirectory.tail (h : EndsInDirectory (name :: rest) slash)
    (hne : name ≠ "." ∨ rest ≠ []) : EndsInDirectory rest slash := by
  refine h.imp_right fun hlast => ?_
  cases rest with
  | nil =>
    have hdot : name = "." := Option.some.inj hlast
    exact (hne.elim (absurd hdot) (absurd rfl))
  | cons next rest => exact hlast

/-- Behind a link only a directory will do if that was so before, or if the link asks for one. -/
theorem EndsInDirectory.behind_link {first : List String} {asks : Bool}
    (hd : DropsDots rest kept) (hslash : slash' = true → EndsInDirectory rest slash)
    (h : (if kept.isEmpty then slash' || asks else slash') = true) :
    EndsInDirectory (first ++ rest) (if rest.isEmpty then slash || asks else slash) := by
  have hend : EndsInDirectory rest slash →
      EndsInDirectory (first ++ rest) (if rest.isEmpty then slash || asks else slash) := by
    rintro (rfl | hlast)
    · exact .inl (by simp)
    · exact .inr (by rw [List.getLast?_append, hlast]; rfl)
  cases slash' with
  | true => exact hend (hslash rfl)
  | false =>
    -- The link itself asks for a directory, so no name is kept behind it.
    cases kept with
    | cons next kept => cases h
    | nil =>
      cases rest with
      | nil =>
        have hasks : asks = true := h
        exact .inl (by simp [hasks])
      | cons next rest => exact hend (.inr (hd.getLast?_of_nil (List.cons_ne_nil next rest)))

/-- Names lead to the same end when dots are left out, and only a directory is good enough there
where that was so before. -/
def Onward.IgnoresDots (onward : Onward) : Prop :=
  ∀ here names kept slash slash' searched w, DropsDots names kept →
    (slash' = true → EndsInDirectory names slash) →
    onward here names slash searched = .ok w → onward here kept slash' searched = .ok w

theorem arrive_of_directory {dir : Node} (hdir : fs.node? here = some dir)
    (hd : dir.isDirectory = true) : fs.arrive here slash searched = .ok ⟨here, searched⟩ := by
  simp [arrive, hdir, hd]

theorem arrive_weaken (hslash : slash' = true → slash = true)
    (h : fs.arrive here slash searched = .ok w) : fs.arrive here slash' searched = .ok w := by
  cases slash' with
  | true => rwa [hslash rfl] at h
  | false =>
    obtain rfl := eq_of_arrive h
    unfold arrive at h ⊢
    cases hnode : fs.node? here with
    | none => simp [hnode] at h
    | some n => simp

/-- Behind a dot the walk goes on from a directory, so a dot at the end may be left out. -/
theorem stretch_behind_dot {follow : Option Onward} {dir : Node} (hdir : fs.node? here = some dir)
    (hdirectory : dir.isDirectory = true) (hd : DropsDots names kept)
    (hslash : slash' = true → EndsInDirectory ("." :: names) slash)
    (h : fs.stretch who follow here names slash searched = .ok w)
    (hrest : (slash' = true → EndsInDirectory names slash) →
      fs.stretch who follow here kept slash' searched = .ok w) :
    fs.stretch who follow here kept slash' searched = .ok w := by
  cases names with
  | nil =>
    cases hd
    obtain rfl := eq_of_arrive h
    exact arrive_of_directory hdir hdirectory
  | cons name names => exact hrest fun hs => (hslash hs).tail (.inr (List.cons_ne_nil name names))

theorem stretch_dropsDots {follow : Option Onward}
    (hfollow : ∀ onward ∈ follow, onward.IgnoresDots) (hd : DropsDots names kept)
    (hslash : slash' = true → EndsInDirectory names slash)
    (h : fs.stretch who follow here names slash searched = .ok w) :
    fs.stretch who follow here kept slash' searched = .ok w := by
  induction hd generalizing here searched with
  | nil =>
    refine arrive_weaken (fun hs => ?_) h
    exact (hslash hs).resolve_right (by simp)
  | @drop names kept hd ih =>
    obtain ⟨dir, hdir, hdirectory, hpermits⟩ := directory_of_stretch_cons h
    unfold stretch at h
    simp only [hdir, hdirectory, hpermits, Bool.not_true, Bool.false_eq_true, if_false,
      if_true] at h
    exact stretch_behind_dot hdir hdirectory hd hslash h fun hs => ih hs h
  | @keep name names kept hd ih =>
    obtain ⟨dir, hdir, hdirectory, hpermits⟩ := directory_of_stretch_cons h
    unfold stretch at h ⊢
    simp only [hdir, hdirectory, hpermits, Bool.not_true, Bool.false_eq_true, if_false] at h ⊢
    by_cases hdot : name = "."
    · subst hdot
      simp only [if_true] at h ⊢
      exact stretch_behind_dot hdir hdirectory hd hslash h fun hs => ih hs h
    have hrest : slash' = true → EndsInDirectory names slash :=
      fun hs => (hslash hs).tail (.inl hdot)
    rw [if_neg hdot] at h ⊢
    by_cases hup : name = ".."
    · rw [if_pos hup] at h ⊢
      exact ih hrest h
    rw [if_neg hup] at h ⊢
    by_cases hsize : name.utf8ByteSize > maxComponent
    · rw [if_pos hsize] at h
      cases h
    rw [if_neg hsize] at h ⊢
    cases hnode : fs.node? (here ++ [name]) with
    | none => simp [hnode] at h
    | some node =>
      simp only [hnode] at h ⊢
      cases hkind : node.kind with
      | link target =>
        simp only [hkind] at h ⊢
        cases hf : follow with
        | none => simp [hf] at h
        | some onward =>
          simp only [hf] at h ⊢
          by_cases hempty : (Route.read target).size = 0
          · rw [if_pos hempty] at h
            cases h
          · rw [if_neg hempty] at h ⊢
            exact hfollow onward hf _ _ _ _ _ _ _ (hd.append_left _)
              (EndsInDirectory.behind_link hd hrest) h
      | _ =>
        simp only [hkind] at h ⊢
        exact ih hrest h

/-- No walk needs the dots among its names. -/
theorem walk_ignoresDots (fs : Files) (who : Identity) (links : Nat) :
    (fs.walk who links).IgnoresDots := by
  induction links with
  | zero =>
    intro here names kept slash slash' searched w hd hslash h
    rw [walk] at h ⊢
    exact stretch_dropsDots (by simp) hd hslash h
  | succ links ih =>
    intro here names kept slash slash' searched w hd hslash h
    rw [walk] at h ⊢
    refine stretch_dropsDots (fun onward honward => ?_) hd hslash h
    cases honward
    exact ih

end NpuRuntime.Files
