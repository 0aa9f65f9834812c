import NpuRuntime.Host.Walk

/-! # Where names lead
A relation that follows the kernel name by name, and what every walk has in common: it ends on a
path without links, and it has searched each directory above its end. -/
namespace NpuRuntime.Files

/-- Names looked up from a directory lead to an end, and at most `links` links are followed. -/
inductive Leads (fs : Files) : Nat → Path → List String → List Path → Walk → Prop
  | arrive (links : Nat) (here : Path) (searched : List Path) :
    Leads fs links here [] searched ⟨here, searched⟩
  | dot {links : Nat} {here : Path} {rest : List String} {searched : List Path} {w : Walk} :
    Leads fs links here rest searched w → Leads fs links here ("." :: rest) searched w
  | up {links : Nat} {here : Path} {rest : List String} {searched : List Path} {w : Walk} :
    Leads fs links here.dropLast rest searched w → Leads fs links here (".." :: rest) searched w
  | down {links : Nat} {here : Path} {name : String} {rest : List String} {searched : List Path}
      {w : Walk} {node : Node} (hdot : name ≠ ".") (hup : name ≠ "..")
      (hnode : fs.node? (here ++ [name]) = some node) (hkind : ∀ target, node.kind ≠ .link target) :
    Leads fs links (here ++ [name]) rest (searched ++ [here]) w →
    Leads fs links here (name :: rest) searched w
  | follow {links : Nat} {here : Path} {name : String} {rest : List String} {searched : List Path}
      {w : Walk} {node : Node} {target : String} (hdot : name ≠ ".") (hup : name ≠ "..")
      (hnode : fs.node? (here ++ [name]) = some node) (hkind : node.kind = .link target) :
    Leads fs links (if (Route.read target).absolute then [] else here)
      ((Route.read target).names ++ rest) (searched ++ [here]) w →
    Leads fs (links + 1) here (name :: rest) searched w

variable {fs : Files} {who : Identity} {links : Nat} {here : Path} {names rest : List String}
  {slash : Bool} {searched : List Path} {w : Walk}

theorem eq_of_arrive (h : fs.arrive here slash searched = .ok w) : w = ⟨here, searched⟩ := by
  unfold arrive at h
  split at h
  · cases h
  · split at h
    · cases h
    · cases h
      rfl

/-- What the look-up of one name comes to: the rest of the names from here, from the directory above
or from the one below, or else what comes behind a link. -/
theorem stretch_cons_cases {follow : Option Onward} {name : String}
    (h : fs.stretch who follow here (name :: rest) slash searched = .ok w) :
    name = "." ∧ fs.stretch who follow here rest slash searched = .ok w ∨
    name = ".." ∧ fs.stretch who follow here.dropLast rest slash searched = .ok w ∨
    (name ≠ "." ∧ name ≠ ".." ∧ name.utf8ByteSize ≤ maxComponent ∧
      ∃ node, fs.node? (here ++ [name]) = some node ∧
        ((∀ target, node.kind ≠ .link target) ∧
            fs.stretch who follow (here ++ [name]) rest slash (searched ++ [here]) = .ok w ∨
          ∃ target onward slash', node.kind = .link target ∧ follow = some onward ∧
            onward (if (Route.read target).absolute then [] else here)
              ((Route.read target).names ++ rest) slash' (searched ++ [here]) = .ok w)) := by
  unfold stretch at h
  cases hdir : fs.node? here with
  | none => simp [hdir] at h
  | some dir =>
    simp only [hdir] at h
    split at h
    · cases h
    split at h
    · cases h
    split at h
    · next hdot => exact .inl ⟨hdot, h⟩
    next hdot =>
    split at h
    · next hup => exact .inr (.inl ⟨hup, h⟩)
    next hup =>
    split at h
    · cases h
    next hsize =>
    refine .inr (.inr ⟨hdot, hup, Nat.not_lt.mp hsize, ?_⟩)
    cases hnode : fs.node? (here ++ [name]) with
    | none => simp [hnode] at h
    | some node =>
      simp only [hnode] at h
      refine ⟨node, rfl, ?_⟩
      split at h
      · next target hkind =>
        cases follow with
        | none => cases h
        | some onward =>
          dsimp only at h
          split at h
          · cases h
          · exact .inr ⟨target, onward, _, hkind, rfl, h⟩
      · next hkind => exact .inl ⟨hkind, h⟩

/-- A stretch leads on if whatever comes behind its first link does. -/
theorem leads_of_stretch {follow : Option Onward}
    (hfollow : ∀ onward ∈ follow, ∃ left, links = left + 1 ∧ ∀ here names slash searched w,
      onward here names slash searched = .ok w → Leads fs left here names searched w)
    (h : fs.stretch who follow here names slash searched = .ok w) :
    Leads fs links here names searched w := by
  induction names generalizing here searched with
  | nil =>
    rw [eq_of_arrive h]
    exact .arrive ..
  | cons name rest ih =>
    obtain ⟨rfl, hrest⟩ | ⟨rfl, hrest⟩ | ⟨hdot, hup, -, node, hnode, hlook⟩ := stretch_cons_cases h
    · exact .dot (ih hrest)
    · exact .up (ih hrest)
    · obtain ⟨hkind, hrest⟩ | ⟨target, onward, slash', hkind, hf, hrest⟩ := hlook
      · exact .down hdot hup hnode hkind (ih hrest)
      · obtain ⟨left, rfl, hleft⟩ := hfollow onward hf
        exact .follow hdot hup hnode hkind (hleft _ _ _ _ _ hrest)

theorem leads_of_walk (h : fs.walk who links here names slash searched = .ok w) :
    Leads fs links here names searched w := by
  induction links generalizing here names slash searched w with
  | zero =>
    rw [walk] at h
    exact leads_of_stretch (by simp) h
  | succ links ih =>
    rw [walk] at h
    refine leads_of_stretch ?_ h
    intro onward honward
    cases honward
    exact ⟨links, rfl, fun _ _ _ _ _ => ih⟩

/-- Each name is looked up here, or handed on to what comes behind a link. -/
theorem size_le_of_stretch {follow : Option Onward}
    (hfollow : ∀ onward ∈ follow, ∀ here names slash searched w,
      onward here names slash searched = .ok w → ∀ name ∈ names, name.utf8ByteSize ≤ maxComponent)
    (h : fs.stretch who follow here names slash searched = .ok w) :
    ∀ name ∈ names, name.utf8ByteSize ≤ maxComponent := by
  induction names generalizing here searched with
  | nil => simp
  | cons name rest ih =>
    refine List.forall_mem_cons.mpr ?_
    obtain ⟨rfl, hrest⟩ | ⟨rfl, hrest⟩ | ⟨-, -, hsize, node, -, hlook⟩ := stretch_cons_cases h
    · exact ⟨by decide, ih hrest⟩
    · exact ⟨by decide, ih hrest⟩
    · obtain ⟨-, hrest⟩ | ⟨target, onward, slash', -, hf, hrest⟩ := hlook
      · exact ⟨hsize, ih hrest⟩
      · have hbehind := hfollow onward hf _ _ _ _ _ hrest
        exact ⟨hsize, fun x hx => hbehind x (List.mem_append_right _ hx)⟩

/-- No walk gets past a name that is too long. -/
theorem size_le_of_walk (h : fs.walk who links here names slash searched = .ok w) :
    ∀ name ∈ names, name.utf8ByteSize ≤ maxComponent := by
  induction links generalizing here names slash searched w with
  | zero =>
    rw [walk] at h
    exact size_le_of_stretch (by simp) h
  | succ links ih =>
    rw [walk] at h
    refine size_le_of_stretch ?_ h
    intro onward honward here names slash searched w h
    cases honward
    exact ih h

theorem mem_ancestors {a p : Path} : a ∈ p.ancestors ↔ ∃ name below, p = a ++ name :: below := by
  simp only [Path.ancestors, List.mem_reverse, List.mem_map, List.mem_range]
  constructor
  · rintro ⟨n, hn, rfl⟩
    exact ⟨p[n], p.drop (n + 1), by rw [← List.drop_eq_getElem_cons hn, List.take_append_drop]⟩
  · rintro ⟨name, below, rfl⟩
    exact ⟨a.length, by simp, by simp⟩

theorem mem_ancestors_append {a p : Path} {name : String} :
    a ∈ Path.ancestors (p ++ [name]) ↔ a = p ∨ a ∈ p.ancestors := by
  rw [mem_ancestors, mem_ancestors]
  constructor
  · rintro ⟨x, below, h⟩
    rcases List.eq_nil_or_concat below with rfl | ⟨front, last, rfl⟩
    · exact .inl (List.append_inj' h rfl).1.symm
    · rw [List.concat_eq_append, ← List.cons_append, ← List.append_assoc] at h
      exact .inr ⟨x, front, (List.append_inj' h rfl).1⟩
  · rintro (rfl | ⟨x, below, rfl⟩)
    · exact ⟨name, [], rfl⟩
    · exact ⟨x, below ++ [name], by simp⟩

theorem mem_ancestors_of_dropLast {a p : Path} (h : a ∈ Path.ancestors p.dropLast) :
    a ∈ p.ancestors := by
  rcases List.eq_nil_or_concat p with rfl | ⟨front, last, rfl⟩
  · exact h
  · rw [List.concat_eq_append] at h ⊢
    rw [List.dropLast_concat] at h
    exact mem_ancestors_append.mpr (.inr h)

/-- A walk that searched what is above its start has searched what is above its end. -/
theorem Leads.ancestors_searched (h : Leads fs links here names searched w)
    (hs : ∀ a ∈ here.ancestors, a ∈ searched) : ∀ a ∈ w.reached.ancestors, a ∈ w.searched := by
  induction h with
  | arrive links here searched => exact hs
  | dot _ ih => exact ih hs
  | up _ ih => exact ih fun a ha => hs a (mem_ancestors_of_dropLast ha)
  | down _ _ _ _ _ ih =>
    refine ih fun a ha => ?_
    rcases mem_ancestors_append.mp ha with rfl | ha
    · simp
    · exact List.mem_append_left _ (hs a ha)
  | follow _ _ _ _ _ ih =>
    refine ih fun a ha => ?_
    split at ha
    · simp [Path.ancestors] at ha
    · exact List.mem_append_left _ (hs a ha)

/-- Each name on the way down is a plain one, and none is a link. -/
def Direct (fs : Files) (p : Path) : Prop :=
  ∀ above name below, p = above ++ name :: below → name ≠ "." ∧ name ≠ ".." ∧
    ∀ node, fs.node? (above ++ [name]) = some node → ∀ target, node.kind ≠ .link target

theorem direct_root : fs.Direct [] := by
  intro above name below h
  simp at h

theorem Direct.of_append {p q : Path} (h : fs.Direct (p ++ q)) : fs.Direct p :=
  fun above name below hp => h above name (below ++ q) (by simp [hp])

theorem Direct.of_ancestor {a p : Path} (h : fs.Direct p) (ha : a ∈ p.ancestors) :
    fs.Direct a := by
  obtain ⟨name, below, rfl⟩ := mem_ancestors.mp ha
  exact h.of_append

theorem Direct.dropLast {p : Path} (h : fs.Direct p) : fs.Direct p.dropLast := by
  rcases List.eq_nil_or_concat p with rfl | ⟨front, last, rfl⟩
  · exact h
  · rw [List.concat_eq_append] at h ⊢
    rw [List.dropLast_concat]
    exact h.of_append

theorem Direct.append {p : Path} {name : String} {node : Node} (h : fs.Direct p)
    (hdot : name ≠ ".") (hup : name ≠ "..") (hnode : fs.node? (p ++ [name]) = some node)
    (hkind : ∀ target, node.kind ≠ .link target) : fs.Direct (p ++ [name]) := by
  intro above x below hp
  rcases List.eq_nil_or_concat below with rfl | ⟨front, last, rfl⟩
  · obtain ⟨rfl, hx⟩ := List.append_inj' hp rfl
    cases hx
    refine ⟨hdot, hup, fun n hn => ?_⟩
    rw [hnode] at hn
    cases hn
    exact hkind
  · rw [List.concat_eq_append, ← List.cons_append, ← List.append_assoc] at hp
    exact h above x front (List.append_inj' hp rfl).1

/-- A walk ends on a path without links. -/
theorem Leads.direct (h : Leads fs links here names searched w) (hd : fs.Direct here) :
    fs.Direct w.reached := by
  induction h with
  | arrive => exact hd
  | dot _ ih => exact ih hd
  | up _ ih => exact ih hd.dropLast
  | down hdot hup hnode hkind _ ih => exact ih (hd.append hdot hup hnode hkind)
  | follow _ _ _ _ _ ih =>
    refine ih ?_
    split
    · exact direct_root
    · exact hd

/-- A path without links leads to itself. -/
theorem Leads.reached_eq (h : Leads fs links here names searched w)
    (hd : fs.Direct (here ++ names)) : w.reached = here ++ names := by
  induction h with
  | arrive => simp
  | dot => exact absurd rfl (hd _ _ _ rfl).1
  | up => exact absurd rfl (hd _ _ _ rfl).2.1
  | down _ _ _ _ _ ih =>
    rw [ih (by simpa using hd)]
    simp
  | follow _ _ hnode hkind => exact absurd hkind ((hd _ _ _ rfl).2.2 _ hnode _)

/-- A link with an upward step in its target. -/
def pointsUp : Kind → Bool
  | .link target => (Route.read target).names.contains ".."
  | _ => false

def LinksGoDown (fs : Files) : Prop := ∀ e ∈ fs.entries, pointsUp e.2.kind = false

theorem LinksGoDown.not_mem {p : Path} {node : Node} {target : String} (hl : fs.LinksGoDown)
    (hnode : fs.node? p = some node) (hkind : node.kind = .link target) :
    ".." ∉ (Route.read target).names := by
  obtain ⟨e, he, hn⟩ := Option.map_eq_some_iff.mp hnode
  have hup := hl e (List.mem_of_find?_eq_some he)
  rw [hn, hkind] at hup
  simpa [pointsUp] using hup

/-- Without links and upward steps a walk searches what lies above its end, and nothing else. -/
theorem Leads.searched_of_none (h : Leads fs 0 here names searched w) (hup : ".." ∉ names) :
    (∃ below, w.reached = here ++ below) ∧
      ∀ d ∈ w.searched, d ∈ searched ∨ d ∈ w.reached.ancestors := by
  generalize hl : 0 = left at h
  induction h with
  | arrive => exact ⟨⟨[], by simp⟩, fun d hd => .inl hd⟩
  | dot _ ih => exact ih (fun hm => hup (List.mem_cons_of_mem _ hm)) hl
  | up => exact absurd List.mem_cons_self hup
  | @down _ here name _ _ _ _ _ _ _ _ _ ih =>
    obtain ⟨⟨below, hbelow⟩, hsearched⟩ := ih (fun hm => hup (List.mem_cons_of_mem _ hm)) hl
    refine ⟨⟨name :: below, by simpa using hbelow⟩, fun d hd => ?_⟩
    rcases hsearched d hd with hs | ha
    · rcases List.mem_append.mp hs with hs | hs
      · exact .inl hs
      · obtain rfl := List.mem_singleton.mp hs
        exact .inr (mem_ancestors.mpr ⟨name, below, by simpa using hbelow⟩)
    · exact .inr ha
  | follow => cases hl

/-- Over one link that does not point upwards a walk searches, besides what lies above its end,
only directories that are named before the link. -/
theorem Leads.searched_of_one (h : Leads fs 1 here names searched w) (hd : fs.Direct here)
    (hup : ".." ∉ names) (hdot : "." ∉ names) (hlinks : fs.LinksGoDown) :
    ∀ d ∈ w.searched, d ∈ searched ∨ d ∈ w.reached.ancestors ∨
      fs.Direct d ∧ ∃ above name below, names = above ++ name :: below ∧ d = here ++ above := by
  generalize hl : 1 = left at h
  induction h with
  | arrive => exact fun d hs => .inl hs
  | dot => exact absurd List.mem_cons_self hdot
  | up => exact absurd List.mem_cons_self hup
  | @down _ here name rest _ _ _ hname hname' hnode hkind _ ih =>
    intro d hs
    rcases ih (hd.append hname hname' hnode hkind) (fun hm => hup (List.mem_cons_of_mem _ hm))
        (fun hm => hdot (List.mem_cons_of_mem _ hm)) hl d hs with
      hs | ha | ⟨hdirect, above, x, below, rfl, rfl⟩
    · rcases List.mem_append.mp hs with hs | hs
      · exact .inl hs
      · obtain rfl := List.mem_singleton.mp hs
        exact .inr (.inr ⟨hd, [], name, rest, rfl, by simp⟩)
    · exact .inr (.inl ha)
    · exact .inr (.inr ⟨hdirect, name :: above, x, below, rfl, by simp⟩)
  | @follow _ here name rest _ _ _ target _ _ hnode hkind hrest _ =>
    obtain rfl := Nat.succ.inj hl
    have hnone : ".." ∉ (Route.read target).names ++ rest := by
      intro hm
      rcases List.mem_append.mp hm with hm | hm
      · exact hlinks.not_mem hnode hkind hm
      · exact hup (List.mem_cons_of_mem _ hm)
    intro d hs
    rcases (hrest.searched_of_none hnone).2 d hs with hs | ha
    · rcases List.mem_append.mp hs with hs | hs
      · exact .inl hs
      · obtain rfl := List.mem_singleton.mp hs
        exact .inr (.inr ⟨hd, [], name, rest, rfl, by simp⟩)
    · exact .inr (.inl ha)

end NpuRuntime.Files
