import NpuRuntime.Host.Walk

/-! # Directories on the way
A walk looks names up in directories only. So what the first of its names lead to, taken alone, is
a directory whenever the walk goes on from there. -/
namespace NpuRuntime.Files

variable {fs : Files} {who : Identity} {here : Path} {names rest : List String} {name : String}
  {slash slash' : Bool} {searched searched' : List Path} {w mid : Walk}

/-- A name is looked up in a directory that the user may search. -/
theorem directory_of_stretch_cons {follow : Option Onward}
    (hw : fs.stretch who follow here (name :: rest) slash searched = .ok w) :
    ∃ dir, fs.node? here = some dir ∧ dir.isDirectory = true ∧
      dir.permits who .execute = true := by
  unfold stretch at hw
  cases hdir : fs.node? here with
  | none => simp [hdir] at hw
  | some dir =>
    simp only [hdir] at hw
    split at hw
    · cases hw
    next hd =>
    split at hw
    · cases hw
    next hp => exact ⟨dir, rfl, by simpa using hd, by simpa using hp⟩

theorem eq_of_stretch_nil {follow : Option Onward}
    (hw : fs.stretch who follow here [] slash searched = .ok w) : w.reached = here := by
  unfold stretch arrive at hw
  split at hw
  · cases hw
  · split at hw
    · cases hw
    · cases hw
      rfl

/-- Whether the walks over some names and over more of them follow the same links makes no
difference: what `follow` and `follow'` do behind the first link is all that has to agree. -/
theorem directory_of_stretch {follow follow' : Option Onward}
    (hfollow : ∀ onward ∈ follow, ∀ onward' ∈ follow', ∀ here names slash slash' searched searched'
      w mid, onward here (names ++ name :: rest) slash searched = .ok w →
      onward' here names slash' searched' = .ok mid →
      ∃ dir, fs.node? mid.reached = some dir ∧ dir.isDirectory = true)
    (hw : fs.stretch who follow here (names ++ name :: rest) slash searched = .ok w)
    (hmid : fs.stretch who follow' here names slash' searched' = .ok mid) :
    ∃ dir, fs.node? mid.reached = some dir ∧ dir.isDirectory = true := by
  induction names generalizing here searched searched' with
  | nil =>
    obtain ⟨dir, hdir, hd, -⟩ := directory_of_stretch_cons hw
    rw [eq_of_stretch_nil hmid]
    exact ⟨dir, hdir, hd⟩
  | cons x names ih =>
    obtain ⟨dir, hdir, hd, hp⟩ := directory_of_stretch_cons hw
    rw [List.cons_append] at hw
    unfold stretch at hw hmid
    simp only [hdir, hd, hp, Bool.not_true, Bool.false_eq_true, if_false] at hw hmid
    by_cases hdot : x = "."
    · rw [if_pos hdot] at hw hmid
      exact ih hw hmid
    rw [if_neg hdot] at hw hmid
    by_cases hup : x = ".."
    · rw [if_pos hup] at hw hmid
      exact ih hw hmid
    rw [if_neg hup] at hw hmid
    by_cases hsize : x.utf8ByteSize > maxComponent
    · rw [if_pos hsize] at hw
      cases hw
    rw [if_neg hsize] at hw hmid
    cases hnode : fs.node? (here ++ [x]) with
    | none => simp [hnode] at hw
    | some node =>
      simp only [hnode] at hw hmid
      cases hkind : node.kind with
      | link target =>
        simp only [hkind] at hw hmid
        cases hf : follow with
        | none => simp [hf] at hw
        | some onward =>
          cases hf' : follow' with
          | none => simp [hf'] at hmid
          | some onward' =>
            simp only [hf, hf'] at hw hmid
            by_cases hempty : (Route.read target).size = 0
            · rw [if_pos hempty] at hw
              cases hw
            · rw [if_neg hempty] at hw hmid
              rw [← List.append_assoc] at hw
              exact hfollow onward hf onward' hf' _ _ _ _ _ _ _ _ hw hmid
      | _ =>
        simp only [hkind] at hw hmid
        exact ih hw hmid

/-- A walk is a stretch, and behind its first link a walk over one link less. -/
theorem exists_stretch_of_walk (fs : Files) (who : Identity) (links : Nat) :
    ∃ follow, fs.walk who links = fs.stretch who follow ∧
      ∀ onward ∈ follow, ∃ left, links = left + 1 ∧ onward = fs.walk who left := by
  cases links with
  | zero => exact ⟨none, by rw [walk], by simp⟩
  | succ left =>
    refine ⟨some (fs.walk who left), by rw [walk], ?_⟩
    intro onward honward
    cases honward
    exact ⟨left, rfl, rfl⟩

/-- The number of links that either walk may follow is of no account. -/
theorem directory_of_walk {links links' : Nat}
    (hw : fs.walk who links here (names ++ name :: rest) slash searched = .ok w)
    (hmid : fs.walk who links' here names slash' searched' = .ok mid) :
    ∃ dir, fs.node? mid.reached = some dir ∧ dir.isDirectory = true := by
  induction links using Nat.strongRecOn generalizing links' here names slash slash' searched
    searched' w mid with
  | ind links ih =>
    obtain ⟨follow, hfollow, hleft⟩ := exists_stretch_of_walk fs who links
    obtain ⟨follow', hfollow', hleft'⟩ := exists_stretch_of_walk fs who links'
    rw [hfollow] at hw
    rw [hfollow'] at hmid
    refine directory_of_stretch ?_ hw hmid
    intro onward honward onward' honward' here names slash slash' searched searched' w mid hw hmid
    obtain ⟨left, hlinks, rfl⟩ := hleft onward honward
    obtain ⟨left', -, rfl⟩ := hleft' onward' honward'
    exact ih left (by omega) hw hmid

end NpuRuntime.Files
