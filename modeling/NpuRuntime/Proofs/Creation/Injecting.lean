import NpuRuntime.Proofs.Creation.Taking
import NpuRuntime.Proofs.Query.Agreeing

/-! # Which devices are added
The selection, the options and two answers of the driver decide at which places of the host devices
are looked for. Some of them must be there. All that are there are added, in order, but for those
whose path in the container is taken. -/
namespace NpuRuntime.Creation

open Query NpuRuntime.Bundle

variable {σ : Type} {h : Host} {s : Settings} {svc : Service σ}

/-- A node of this kind is a device of the type and with the numbers that a document gives. -/
inductive IsDevice : Kind → String → Nat → Nat → Prop
  | char (major minor : Nat) : IsDevice (.charDevice major minor) "c" major minor
  | block (major minor : Nat) : IsDevice (.blockDevice major minor) "b" major minor
  | fifo : IsDevice .fifo "p" 0 0

/-- The entry that stands for a node in a document, under a name of its own. -/
structure Mirrors (n : Node) (name : String) (d : Device) : Prop where
  path : d.path = "/dev/" ++ name
  numbers : ∃ major minor : Nat, IsDevice n.kind d.kind major minor ∧ d.major = some major ∧
    d.minor = some minor
  fileMode : d.fileMode = some (n.mode &&& 0o7777)
  uid : d.uid = some n.uid
  gid : d.gid = some n.gid
  other : d.other = []

theorem named_eq (name : String) (d : Device) :
    named name d = { d with path := "/dev/" ++ name } := by
  have hdirectory : containerDirectory ++ "/" = "/dev/" := by decide
  rw [named, hdirectory]

theorem mirrors_iff (path : String) {name : String} {n : Node} {d : Device} :
    Mirrors n name d ↔ ∃ found, Device.ofNode path n = .ok found ∧ d = named name found := by
  constructor
  · intro hm
    obtain ⟨major, minor, hkind, hmajor, hminor⟩ := hm.numbers
    obtain ⟨dpath, dkind, dmajor, dminor, dmode, duid, dgid, dother⟩ := d
    obtain ⟨kind, mode, uid, gid⟩ := n
    obtain rfl : dpath = "/dev/" ++ name := hm.path
    obtain rfl : dmajor = some (major : Int) := hmajor
    obtain rfl : dminor = some (minor : Int) := hminor
    obtain rfl : dmode = some (mode &&& 0o7777) := hm.fileMode
    obtain rfl : duid = some uid := hm.uid
    obtain rfl : dgid = some gid := hm.gid
    obtain rfl : dother = [] := hm.other
    cases hkind <;> refine ⟨_, rfl, ?_⟩ <;> rw [named_eq]
  · rintro ⟨found, hfound, rfl⟩
    obtain ⟨kind, mode, uid, gid⟩ := n
    have hpath : (named name found).path = "/dev/" ++ name := by rw [named_eq]
    cases kind with
    | charDevice major minor =>
      cases hfound
      exact ⟨hpath, ⟨major, minor, .char major minor, rfl, rfl⟩, rfl, rfl, rfl, rfl⟩
    | blockDevice major minor =>
      cases hfound
      exact ⟨hpath, ⟨major, minor, .block major minor, rfl, rfl⟩, rfl, rfl, rfl, rfl⟩
    | fifo =>
      cases hfound
      exact ⟨hpath, ⟨0, 0, .fifo, rfl, rfl⟩, rfl, rfl, rfl, rfl⟩
    | _ => cases hfound

/-- A place where a device is looked for: its path on the host, its name in the container, and
whether the container can do without it. -/
structure Place where
  host : String
  name : String
  required : Bool := true

/-- The device of a place, as it stands in the container. -/
def Place.device? (h : Host) (p : Place) : Option Device :=
  (Device.ofHost h p.host).toOption.map (named p.name)

theorem Place.device?_of_ok {host : String} {d : Device} (hd : Device.ofHost h host = .ok d)
    (name : String) (required : Bool) :
    (Place.mk host name required).device? h = some (named name d) := by
  rw [Place.device?, hd]
  rfl

theorem Place.device?_of_error {host : String} {f : Fault} (hf : Device.ofHost h host = .error f)
    (name : String) (required : Bool) : (Place.mk host name required).device? h = none := by
  rw [Place.device?, hf]
  rfl

theorem Place.device?_eq_some_iff {p : Place} {d : Device} : p.device? h = some d ↔
    Char.ofNat 0 ∉ p.host.toList ∧
      ∃ n, h.node (Route.read p.host) = .ok n ∧ Mirrors n p.name d := by
  unfold Place.device? Device.ofHost
  by_cases hzero : Char.ofNat 0 ∈ p.host.toList
  · have hcontains : p.host.toList.contains (Char.ofNat 0) = true := by simpa using hzero
    rw [hcontains, if_pos rfl]
    exact iff_of_false (by simp [Except.toOption]) fun hd => hd.1 hzero
  · have hcontains : p.host.toList.contains (Char.ofNat 0) = false := by simpa using hzero
    rw [hcontains, if_neg Bool.false_ne_true]
    cases h.node (Route.read p.host) with
    | error e => simp [Except.toOption]
    | ok n =>
      simp only [hzero, not_false_eq_true, true_and, Except.ok.injEq, exists_eq_left',
        mirrors_iff p.host]
      cases Device.ofNode p.host n <;> simp [Except.toOption, eq_comm]

/-- Every place that the container cannot do without has a device. -/
def Complete (h : Host) (ps : List Place) : Prop :=
  ∀ p ∈ ps, p.required = true → (p.device? h).isSome = true

def found (h : Host) (ps : List Place) : List Device := ps.filterMap (Place.device? h)

/-- A document with the devices of these places. -/
def put (h : Host) (ps : List Place) (w : Spec) : Spec := (found h ps).foldl Spec.addDevice w

theorem found_append (h : Host) (ps qs : List Place) :
    found h (ps ++ qs) = found h ps ++ found h qs := List.filterMap_append

theorem put_append (h : Host) (ps qs : List Place) (w : Spec) :
    put h (ps ++ qs) w = put h qs (put h ps w) := by
  rw [put, found_append, List.foldl_append, put, put]

theorem put_of_some {p : Place} {d : Device} (hd : p.device? h = some d) (w : Spec) :
    put h [p] w = w.addDevice d := by
  rw [put, found, List.filterMap_cons_some hd]
  rfl

theorem put_of_none {p : Place} (hd : p.device? h = none) (w : Spec) : put h [p] w = w := by
  rw [put, found, List.filterMap_cons_none hd]
  rfl

theorem complete_append {ps qs : List Place} :
    Complete h (ps ++ qs) ↔ Complete h ps ∧ Complete h qs := List.forall_mem_append

theorem complete_singleton {p : Place} :
    Complete h [p] ↔ (p.required = true → (p.device? h).isSome = true) := List.forall_mem_singleton

/-- Devices with paths of their own do not stand in each other's way. -/
theorem devices_foldl {ds : List Device} (hpaths : (ds.map Device.path).Nodup) (w : Spec) :
    (ds.foldl Spec.addDevice w).devices =
      w.devices ++ ds.filter fun d => !w.hasDevice d.path := by
  induction ds generalizing w with
  | nil => exact (List.append_nil _).symm
  | cons d ds ih =>
    obtain ⟨hnew, hrest⟩ := List.nodup_cons.mp hpaths
    -- The first device takes none of the paths of the others.
    have hlater : (ds.filter fun e => !(w.addDevice d).hasDevice e.path) =
        ds.filter fun e => !w.hasDevice e.path := by
      refine List.filter_congr fun e he => ?_
      have hne : d.path ≠ e.path := fun hp => hnew (hp ▸ List.mem_map_of_mem he)
      rw [hasDevice_addDevice_of_ne hne]
    rw [List.foldl_cons, ih hrest, hlater, Spec.devices_addDevice]
    cases hd : w.hasDevice d.path with
    | true => simp [hd]
    | false => simp [hd]

/-- The steps add the devices of these places and do nothing else, if the places are complete. -/
structure Adds (h : Host) (ps : List Place) (a : Edit σ Unit) : Prop where
  success : Complete h ps → ∀ r, ∃ ls,
    outcome a r = (.ok (), (r.working (put h ps r.work)).noted ls)
  failure : ¬ Complete h ps → ∀ r, ∃ f t, outcome a r = (.error f, t)

/-- The same from one run on. Calls may have been made. -/
structure Injects (h : Host) (ps : List Place) (a : Edit σ Unit) (r : Run σ Spec) : Prop where
  success : Complete h ps → ∃ t, outcome a r = (.ok (), t) ∧ t.work = put h ps r.work
  failure : ¬ Complete h ps → ∃ f t, outcome a r = (.error f, t)

variable {ps qs : List Place} {a b : Edit σ Unit} {r : Run σ Spec}

theorem Adds.injects (ha : Adds h ps a) (r : Run σ Spec) : Injects h ps a r where
  success hc := by
    obtain ⟨ls, hls⟩ := ha.success hc r
    exact ⟨_, hls, rfl⟩
  failure hc := ha.failure hc r

/-- The second part meets the document that the first one leaves. -/
theorem Adds.then_injects (ha : Adds h ps a)
    (hb : ∀ ls, Injects h qs b ((r.working (put h ps r.work)).noted ls)) :
    Injects h (ps ++ qs) (a >>= fun _ => b) r where
  success hc := by
    obtain ⟨hps, hqs⟩ := complete_append.mp hc
    obtain ⟨ls, hls⟩ := ha.success hps r
    obtain ⟨t, ht, hwork⟩ := (hb ls).success hqs
    rw [outcome_bind, hls, put_append]
    exact ⟨t, ht, hwork⟩
  failure hc := by
    by_cases hps : Complete h ps
    · obtain ⟨ls, hls⟩ := ha.success hps r
      rw [outcome_bind, hls]
      exact (hb ls).failure fun hqs => hc (complete_append.mpr ⟨hps, hqs⟩)
    · obtain ⟨f, t, hf⟩ := ha.failure hps r
      rw [outcome_bind, hf]
      exact ⟨f, t, rfl⟩

theorem Adds.append (ha : Adds h ps a) (hb : Adds h qs b) :
    Adds h (ps ++ qs) (a >>= fun _ => b) where
  success hc r := by
    obtain ⟨hps, hqs⟩ := complete_append.mp hc
    obtain ⟨ls, hls⟩ := ha.success hps r
    obtain ⟨ks, hks⟩ := hb.success hqs ((r.working (put h ps r.work)).noted ls)
    rw [outcome_bind, hls, put_append]
    exact ⟨ls ++ ks, by simpa [Run.noted, Run.working] using hks⟩
  failure hc r := (ha.then_injects fun ls => hb.injects _).failure hc

theorem adds_nil : Adds h [] (pure () : Edit σ Unit) where
  success _ r := ⟨[], by simp [Run.noted, Run.working, put, found]⟩
  failure hc := absurd (fun _ hp => absurd hp List.not_mem_nil) hc

theorem Adds.forM {α : Type} {place : α → Place} {step : α → Edit σ Unit}
    (hstep : ∀ x, Adds h [place x] (step x)) (xs : List α) :
    Adds h (xs.map place) (xs.forM step) := by
  induction xs with
  | nil => exact adds_nil
  | cons x xs ih => exact (hstep x).append ih

/-- A node that is added takes the path of its device. -/
theorem put_addNode {host name : String} {d : Device} (hd : Device.ofHost h host = .ok d)
    (required : Bool) (r : Run σ Spec) : ∃ ls, outcome (addNode h host name) r =
      (.ok (), (r.working (put h [⟨host, name, required⟩] r.work)).noted ls) := by
  rw [put_of_some (Place.device?_of_ok hd name required)]
  exact addNode_of_ok name hd r

theorem adds_addNode (h : Host) (host name : String) :
    Adds h [⟨host, name, true⟩]
      (mapFailure Failure.ofFault (addNode h host name) : Edit σ Unit) where
  success hc r := by
    have hsome := complete_singleton.mp hc rfl
    cases hd : Device.ofHost h host with
    | error f =>
      rw [Place.device?_of_error hd] at hsome
      cases hsome
    | ok d =>
      obtain ⟨ls, hls⟩ := put_addNode hd true r
      exact ⟨ls, outcome_mapFailure_eq_ok.mpr hls⟩
  failure hc r := by
    cases hd : Device.ofHost h host with
    | error f => exact ⟨_, r, by rw [outcome_mapFailure, addNode_of_error hd]; rfl⟩
    | ok d =>
      refine absurd (complete_singleton.mpr fun _ => ?_) hc
      rw [Place.device?_of_ok hd, Option.isSome_some]

theorem adds_tryNamed (h : Host) (s : Settings) (name : String) :
    Adds h [⟨s.device name, name, false⟩] (tryNamed h s name : Edit σ Unit) where
  success _ r := by
    cases hd : Device.ofHost h (s.device name) with
    | error f =>
      have hsame : r.working r.work = r := rfl
      rw [put_of_none (Place.device?_of_error hd name false), hsame]
      exact ⟨_, tryNamed_of_error hd r⟩
    | ok d =>
      obtain ⟨ls, hls⟩ := put_addNode hd false r
      exact ⟨ls, tryNamed_of_ok hls⟩
  failure hc := absurd (complete_singleton.mpr fun hr => absurd hr Bool.false_ne_true) hc

/-- What the driver's container of nodes is called on the host. -/
def managerHost (h : Host) (s : Settings) : String :=
  if h.exists? (Route.read (s.device dockerManagerName)) then s.device dockerManagerName
  else s.device managerName

/-- What is read before nodes are added: the selection and the options of the document, and what
the driver says of its chips. -/
structure Answers where
  ids : List Nat
  options : RuntimeOptions
  chip : String
  product : String

/-- One node for each number. -/
def numberedPlaces (s : Settings) (ids : List Nat) (options : RuntimeOptions) : List Place :=
  ids.map fun id => ⟨s.device (stemOf options ++ toString id), deviceName ++ toString id, true⟩

/-- The nodes that go with the chips. -/
def Answers.chipPlaces (h : Host) (s : Settings) (a : Answers) : List Place :=
  if Text.holds a.chip "310B" then
    boardNames.map (fun name => ⟨s.device name, name, false⟩) ++
      [⟨managerHost h s, managerName, true⟩]
  else [⟨s.device managerName, managerName, true⟩] ++
    if productsWithoutCommon.contains a.product then []
    else commonNames.map fun name => ⟨s.device name, name, true⟩

def Answers.places (h : Host) (s : Settings) (a : Answers) : List Place :=
  numberedPlaces s a.ids a.options ++ a.chipPlaces h s

/-- Asked from this run on, the driver says this of its chips. The product is of account only where
the chip is not one of a board. -/
structure Tells (svc : Service σ) (r : Run σ Spec) (chip product : String) : Prop where
  names : (outcome (chipName svc) r).1 = .ok chip
  reports : Text.holds chip "310B" = false →
    (outcome (Query.product svc) (outcome (chipName svc) r).2).1 = .ok product

/-- All that is read from a document and asked of the driver gets an answer. -/
structure Reads (svc : Service σ) (r : Run σ Spec) (a : Answers) : Prop where
  selection : Devices.parse (Invocation.valueOf r.work.env Environment.visibleDevices) = .ok ⟨a.ids⟩
  options : optionsOf r.work = .ok a.options
  starts : (svc.respond .start r.memory).1.result = .ok ()
  tells : Tells svc (r.answered svc .start) a.chip a.product

theorem ofName_eq_ascend310B {chip : String} :
    ChipFamily.ofName chip = .ascend310B ↔ Text.holds chip "310B" = true := by
  unfold ChipFamily.ofName
  constructor
  · intro hf
    by_contra hn
    rw [if_neg hn] at hf
    split at hf
    · cases hf
    · split at hf
      · cases hf
      · split at hf <;> cases hf
  · intro hb
    exact if_pos hb

theorem exists?_eq_false {path : String} (hp : ¬ h.exists? (Route.read path) = true)
    (name : String) (required : Bool) : (Place.mk path name required).device? h = none := by
  cases hd : (Place.mk path name required).device? h with
  | none => rfl
  | some d =>
    obtain ⟨-, n, hn, -⟩ := Place.device?_eq_some_iff.mp hd
    rw [Host.exists?, hn] at hp
    exact absurd rfl hp

theorem findManager_eq (h : Host) (s : Settings) : findManager h s =
    if h.exists? (Route.read (managerHost h s)) then .ok (managerHost h s)
    else .error (.of (.noManager managerName)) := by
  unfold findManager managerHost
  rw [List.map_cons, List.map_cons, List.map_nil, List.find?_cons, List.find?_cons, List.find?_nil]
  cases hdocker : h.exists? (Route.read (s.device dockerManagerName)) with
  | true => simp [hdocker]
  | false => cases hown : h.exists? (Route.read (s.device managerName)) <;> simp [hown]

/-- Where neither manager is found, there is no device for the one that is left. -/
theorem adds_manager (h : Host) (s : Settings) : Adds h [⟨managerHost h s, managerName, true⟩]
    (do
      let manager ← MonadExcept.ofExcept (findManager h s)
      mapFailure Failure.ofFault (addNode h manager managerName) : Edit σ Unit) := by
  have hnode := adds_addNode (σ := σ) h (managerHost h s) managerName
  have hfind := findManager_eq h s
  by_cases hexists : h.exists? (Route.read (managerHost h s)) = true
  · rw [if_pos hexists] at hfind
    rw [hfind]
    exact hnode
  · rw [if_neg hexists] at hfind
    rw [hfind]
    have hnone : ¬ Complete h [⟨managerHost h s, managerName, true⟩] := by
      rw [complete_singleton, exists?_eq_false hexists]
      simp
    exact ⟨fun hc => absurd hc hnone, fun _ r => ⟨_, r, rfl⟩⟩

theorem adds_addBoardNodes (h : Host) (s : Settings) :
    Adds h (boardNames.map (fun name => ⟨s.device name, name, false⟩) ++
      [⟨managerHost h s, managerName, true⟩]) (addBoardNodes h s : Edit σ Unit) :=
  (Adds.forM (adds_tryNamed h s) boardNames).append (adds_manager h s)

theorem Injects.note {l : Record} (hb : Injects h ps b (r.noted [l])) :
    Injects h ps (Query.note l >>= fun _ => b) r := ⟨hb.success, hb.failure⟩

/-- Between steps that add nodes the driver is asked. The document stays as it is. -/
theorem Injects.told {α : Type} {ask : Act σ Spec Fault α} {f : α → Edit σ Unit} {x : α}
    (hask : Asks svc ask) (hx : (outcome ask r).1 = .ok x)
    (hf : Injects h ps (f x) (outcome ask r).2) :
    Injects h ps (mapFailure Failure.ofFault ask >>= f) r := by
  have hwork : r.work = (outcome ask r).2.work :=
    hask.within (F := Frame.still) (fun c _ => Frame.admits_work svc c) r
  have hfirst : outcome (mapFailure Failure.ofFault ask) r = (.ok x, (outcome ask r).2) :=
    outcome_mapFailure_eq_ok.mpr (outcome_eq_of_result hx)
  refine ⟨fun hc => ?_, fun hc => ?_⟩
  · obtain ⟨q, hq, hput⟩ := hf.success hc
    rw [outcome_bind, hfirst]
    exact ⟨q, hq, hwork ▸ hput⟩
  · rw [outcome_bind, hfirst]
    exact hf.failure hc

/-- Two runs that the driver cannot tell apart: the document may be another one. -/
abbrev Unseen (r q : Run σ Spec) : Prop := Together (fun _ _ => True) r q

theorem Unseen.refl (r : Run σ Spec) : Unseen r r := ⟨rfl, rfl, trivial⟩

theorem Unseen.noted {q : Run σ Spec} (hrq : Unseen r q) (ls : List Record) :
    Unseen r (q.noted ls) := ⟨hrq.memory, hrq.trace, trivial⟩

theorem Unseen.working {q : Run σ Spec} (hrq : Unseen r q) (w : Spec) :
    Unseen r (q.working w) := ⟨hrq.memory, hrq.trace, trivial⟩

theorem Unseen.told {ε α : Type} {ask : Act σ Spec ε α} {q : Run σ Spec} {x : Except ε α}
    (hrq : Unseen r q) (hask : Asks svc ask) (hx : (outcome ask r).1 = x) :
    (outcome ask q).1 = x := by
  rw [← hx]
  exact (hask.agrees r q hrq).1.symm

theorem injects_addCommonNodes {product : String}
    (hproduct : (outcome (Query.product svc) r).1 = .ok product) :
    Injects h ([⟨s.device managerName, managerName, true⟩] ++
      if productsWithoutCommon.contains product then []
      else commonNames.map fun name => ⟨s.device name, name, true⟩) (addCommonNodes h s svc) r := by
  refine (adds_addNode h (s.device managerName) managerName).then_injects fun ls => ?_
  have hsame :=
    ((Unseen.refl r).working (put h [⟨s.device managerName, managerName, true⟩] r.work)).noted ls
  refine .told .product (hsame.told .product hproduct) (.note ?_)
  split
  · exact adds_nil.injects _
  · exact (Adds.forM (fun name => adds_addNode h (s.device name) name) commonNames).injects _

theorem injects_addChipNodes {a : Answers} (ha : Tells svc r a.chip a.product) :
    Injects h (a.chipPlaces h s) (addChipNodes h s svc) r := by
  refine .told .chipName ha.names (.note ?_)
  unfold Answers.chipPlaces
  by_cases hboard : Text.holds a.chip "310B" = true
  · rw [if_pos hboard, if_pos (ofName_eq_ascend310B.mpr hboard)]
    exact (adds_addBoardNodes h s).injects _
  · rw [if_neg hboard, if_neg (mt ofName_eq_ascend310B.mp hboard)]
    have hproduct := ha.reports (Bool.eq_false_iff.mpr hboard)
    exact injects_addCommonNodes (((Unseen.refl _).noted _).told .product hproduct)

/-- Whatever happens to the document, the driver says the same. -/
theorem Tells.again {chip product : String} {q : Run σ Spec} (hr : Tells svc r chip product)
    (hrq : Unseen r q) : Tells svc q chip product where
  names := hrq.told .chipName hr.names
  reports hother := by
    have hnamed : Unseen (outcome (chipName svc) r).2 (outcome (chipName svc) q).2 :=
      (Asks.chipName.agrees r q hrq).2
    exact hnamed.told .product (hr.reports hother)

theorem Injects.withSession (hstart : (svc.respond .start r.memory).1.result = .ok ())
    (hb : Injects h ps b ((r.answered svc .start).noted [openedNote])) :
    Injects h ps (withSession svc Failure.ofFault b) r where
  success hc := by
    obtain ⟨t, ht, hput⟩ := hb.success hc
    rw [outcome_withSession, hstart]
    dsimp only
    rw [ht]
    exact ⟨_, rfl, hput⟩
  failure hc := by
    obtain ⟨f, t, ht⟩ := hb.failure hc
    rw [outcome_withSession, hstart]
    dsimp only
    rw [ht]
    exact ⟨f, _, rfl⟩

theorem adds_numbered (h : Host) (s : Settings) (ids : List Nat) (options : RuntimeOptions) :
    Adds h (numberedPlaces s ids options)
      (ids.forM (addNumbered h fun id => s.device (stemOf options ++ toString id)) :
        Edit σ Unit) :=
  Adds.forM (fun _ => adds_addNode h _ _) ids

theorem injects_addDevices {a : Answers}
    (hvisible : Invocation.valueOf r.work.env Environment.visibleDevices ≠ "")
    (ha : Reads svc r a) : Injects h (a.places h s) (addDevices h s svc) r := by
  have hselected : selected r.work = .ok (some (⟨a.ids⟩, a.options)) := by
    unfold selected
    simp only [if_neg hvisible, ha.selection, ha.options, Except.map]
  have hsame : outcome (addDevices h s svc) r =
      outcome (addSelected h s svc ⟨a.ids⟩ a.options) r := by
    rw [outcome_addDevices, hselected]
  have hinjects : Injects h (a.places h s) (addSelected h s svc ⟨a.ids⟩ a.options) r := by
    refine .note ((adds_numbered h s a.ids a.options).then_injects fun ls => ?_)
    refine .withSession ha.starts ?_
    exact injects_addChipNodes (ha.tells.again ⟨rfl, rfl, trivial⟩)
  refine ⟨fun hc => ?_, fun hc => ?_⟩
  · rw [hsame]
    exact hinjects.success hc
  · rw [hsame]
    exact hinjects.failure hc

theorem Adds.unseen {t : Run σ Spec} (ha : Adds h ps a) (hr : outcome a r = (.ok (), t)) :
    Unseen r t := by
  by_cases hc : Complete h ps
  · obtain ⟨ls, hls⟩ := ha.success hc r
    cases hls.symm.trans hr
    exact ((Unseen.refl r).working _).noted ls
  · obtain ⟨f, q, hf⟩ := ha.failure hc r
    cases hf.symm.trans hr

/-- Nodes that were added with success went by what the driver said. -/
theorem exists_tells {t : Run σ Spec} (hr : outcome (addChipNodes h s svc) r = (.ok (), t)) :
    ∃ chip product, Tells svc r chip product := by
  obtain ⟨chip, q, hchip, hr⟩ := outcome_bind_eq_ok.mp hr
  obtain ⟨⟨⟩, q', hnote, hr⟩ := outcome_bind_eq_ok.mp hr
  rw [outcome_mapFailure_eq_ok] at hchip
  by_cases hboard : Text.holds chip "310B" = true
  · exact ⟨chip, "", by rw [hchip], fun hother => by rw [hboard] at hother; cases hother⟩
  · rw [if_neg (mt ofName_eq_ascend310B.mp hboard)] at hr
    obtain ⟨⟨⟩, u, hmanager, hr⟩ := outcome_bind_eq_ok.mp hr
    obtain ⟨product, v, hproduct, -⟩ := outcome_bind_eq_ok.mp hr
    cases hnote
    have hsame : Unseen u q := by
      have hadded : Unseen (q.noted _) u := (adds_addNode h _ _).unseen hmanager
      exact ⟨hadded.memory.symm, hadded.trace.symm, trivial⟩
    refine ⟨chip, product, by rw [hchip], fun _ => ?_⟩
    rw [hchip]
    rw [outcome_mapFailure_eq_ok] at hproduct
    exact hsame.told .product (by rw [hproduct])

/-- A step that succeeds has had an answer to everything. -/
theorem exists_reads {r' : Run σ Spec}
    (hvisible : Invocation.valueOf r.work.env Environment.visibleDevices ≠ "")
    (hr : outcome (addDevices h s svc) r = (.ok (), r')) : ∃ a, Reads svc r a := by
  obtain ⟨⟨ids⟩, options, hd, ho, hadded⟩ := exists_of_addDevices hvisible hr
  obtain ⟨⟨⟩, q, hnote, hadded⟩ := outcome_bind_eq_ok.mp hadded
  obtain ⟨⟨⟩, t, hids, hmanager⟩ := outcome_bind_eq_ok.mp hadded
  cases hnote
  have hsession : outcome (withSession svc Failure.ofFault (addChipNodes h s svc)) t =
      (.ok (), r') := hmanager
  -- The numbered nodes are added without a question, so the driver is still where it was.
  have hsame : Unseen t r := by
    have hnumbered := (adds_numbered h s ids options).unseen hids
    exact ⟨hnumbered.memory.symm, hnumbered.trace.symm, trivial⟩
  rw [outcome_withSession] at hsession
  cases hstart : (svc.respond .start t.memory).1.result with
  | error f =>
    rw [hstart] at hsession
    cases hsession
  | ok x =>
    rw [hstart] at hsession
    obtain ⟨chip, product, htells⟩ :=
      exists_tells (outcome_eq_of_result (congrArg Prod.fst hsession))
    refine ⟨⟨ids, options, chip, product⟩, hd, ho, hsame.memory ▸ hstart, htells.again ?_⟩
    have hanswered := hsame.answered svc .start
    exact ⟨hanswered.memory, hanswered.trace, trivial⟩

/-- A number follows the stem of a device's name, and none of these names. -/
theorem numbered_ne {name : String} (hname : (name.toList.drop 7).head?.any Char.isDigit = false)
    (id : Nat) : deviceName ++ toString id ≠ name := by
  rintro rfl
  have hstem : deviceName.toList.length = 7 := by decide
  have hdrop : (deviceName ++ toString id).toList.drop 7 = (toString id).toList := by
    rw [String.toList_append, ← hstem, List.drop_left]
  rw [hdrop] at hname
  cases hdigits : (toString id).toList with
  | nil => exact Text.toString_ne_empty id (String.toList_injective hdigits)
  | cons c cs =>
    have hdigit : c.isDigit = true :=
      Text.isDigit_of_mem_toString (n := id) (hdigits ▸ List.mem_cons_self)
    rw [hdigits, List.head?_cons, Option.any_some, hdigit] at hname
    cases hname

theorem names_chipPlaces (h : Host) (s : Settings) (a : Answers) :
    (a.chipPlaces h s).map Place.name =
      if Text.holds a.chip "310B" then boardNames ++ [managerName]
      else [managerName] ++
        if productsWithoutCommon.contains a.product then [] else commonNames := by
  unfold Answers.chipPlaces
  split
  · simp [List.map_map, Function.comp_def]
  · split <;> simp [List.map_map, Function.comp_def]

/-- No two places have one name. -/
theorem nodup_names {a : Answers} (hids : a.ids.Nodup) :
    ((a.places h s).map Place.name).Nodup := by
  have hchip : ((a.chipPlaces h s).map Place.name).Nodup ∧
      ∀ name ∈ (a.chipPlaces h s).map Place.name,
        (name.toList.drop 7).head?.any Char.isDigit = false := by
    rw [names_chipPlaces]
    split
    · decide
    · split <;> decide
  have hnumbered : ((numberedPlaces s a.ids a.options).map Place.name).Nodup := by
    rw [numberedPlaces, List.map_map]
    refine List.pairwise_map.mpr (hids.imp fun hne hij => hne ?_)
    exact devicePath_injective (congrArg (containerDirectory ++ "/" ++ ·) hij)
  rw [Answers.places, List.map_append, List.nodup_append]
  refine ⟨hnumbered, hchip.1, fun name hname other hother => ?_⟩
  obtain ⟨p, hp, rfl⟩ := List.mem_map.mp hname
  obtain ⟨id, -, rfl⟩ := List.mem_map.mp hp
  exact numbered_ne (hchip.2 other hother) id

theorem exists_of_mem_found {d : Device} (hd : d ∈ found h ps) :
    ∃ p ∈ ps, d.path = "/dev/" ++ p.name := by
  obtain ⟨p, hp, hdevice⟩ := List.mem_filterMap.mp hd
  obtain ⟨-, n, -, hmirrors⟩ := Place.device?_eq_some_iff.mp hdevice
  exact ⟨p, hp, hmirrors.path⟩

theorem nodup_found (hnames : (ps.map Place.name).Nodup) :
    ((found h ps).map Device.path).Nodup := by
  induction ps with
  | nil => exact List.nodup_nil
  | cons p ps ih =>
    obtain ⟨hnew, hrest⟩ := List.nodup_cons.mp hnames
    cases hp : p.device? h with
    | none =>
      rw [found, List.filterMap_cons_none hp]
      exact ih hrest
    | some d =>
      obtain ⟨-, n, -, hmirrors⟩ := Place.device?_eq_some_iff.mp hp
      rw [found, List.filterMap_cons_some hp, List.map_cons]
      refine List.nodup_cons.mpr ⟨fun hmem => hnew ?_, ih hrest⟩
      obtain ⟨e, he, hpath⟩ := List.mem_map.mp hmem
      obtain ⟨q, hq, heq⟩ := exists_of_mem_found he
      rw [hmirrors.path, heq, String.append_right_inj] at hpath
      exact List.mem_map.mpr ⟨q, hq, hpath⟩

/-- How the device step goes, given all the answers that it goes by. -/
structure Injection (h : Host) (s : Settings) (svc : Service σ) (r : Run σ Spec) (a : Answers) :
    Prop where
  /-- Every required place must have a device, and nothing else can go wrong. -/
  ok_iff : (outcome (addDevices h s svc) r).1 = .ok () ↔ Complete h (a.places h s)
  rising : a.ids.Pairwise (· < ·)
  /-- The devices that were found are added in order, but for those whose path was taken. -/
  devices : (outcome (addDevices h s svc) r).1 = .ok () →
    (outcome (addDevices h s svc) r).2.work.devices = r.work.devices ++
      (found h (a.places h s)).filter fun d => !r.work.hasDevice d.path
  /-- A place has a device if a character or block device or a pipe is reached from there. -/
  mirrored : ∀ p ∈ a.places h s, ∀ d, p.device? h = some d ↔ Char.ofNat 0 ∉ p.host.toList ∧
    ∃ n, h.node (Route.read p.host) = .ok n ∧ Mirrors n p.name d

/-- Where a device is visible, the step succeeds only with an answer to all that it asks. The
answers then decide whether it does, and exactly which devices it adds. -/
theorem addDevices_injects (h : Host) (s : Settings) (svc : Service σ) (r : Run σ Spec)
    (hvisible : Invocation.valueOf r.work.env Environment.visibleDevices ≠ "") :
    ((outcome (addDevices h s svc) r).1 = .ok () → ∃ a, Reads svc r a) ∧
    ∀ a, Reads svc r a → Injection h s svc r a := by
  refine ⟨fun hok => exists_reads hvisible (outcome_eq_of_result hok), fun a ha => ?_⟩
  have hinjects := injects_addDevices (h := h) (s := s) hvisible ha
  have hrising := Devices.pairwise_ids_of_parse ha.selection
  have hiff : (outcome (addDevices h s svc) r).1 = .ok () ↔ Complete h (a.places h s) := by
    constructor
    · intro hok
      by_contra hc
      obtain ⟨f, t, hf⟩ := hinjects.failure hc
      rw [hf] at hok
      cases hok
    · intro hc
      obtain ⟨t, ht, -⟩ := hinjects.success hc
      rw [ht]
  refine ⟨hiff, hrising, fun hok => ?_, fun p _ d => Place.device?_eq_some_iff⟩
  obtain ⟨t, ht, hput⟩ := hinjects.success (hiff.mp hok)
  rw [ht, hput]
  exact devices_foldl (nodup_found (nodup_names (hrising.imp Nat.ne_of_lt))) r.work

/-- The container of a slice that has one of the nodes already. -/
def holding : Spec where
  process := { env := some ["ASCEND_VISIBLE_DEVICES=100", "ASCEND_RUNTIME_OPTIONS=VIRTUAL"] }
  root := { path := "rootfs" }
  linux := some { devices := some [{ path := "/dev/devmm_svm", kind := "c" }] }

/-- On the board it gets the three others, in order. -/
theorem addDevices_injects_holding :
    Invocation.valueOf holding.env Environment.visibleDevices ≠ "" ∧
    (outcome (addDevices board places Scripted.standard) { memory := [], work := holding }).1 =
      .ok () ∧
    (outcome (addDevices board places Scripted.standard)
        { memory := [], work := holding }).2.work.devices.map Device.path =
      ["/dev/devmm_svm", "/dev/davinci100", "/dev/davinci_manager", "/dev/hisi_hdc"] ∧
    ∃ a, Reads Scripted.standard { memory := [], work := holding } a ∧
      Injection board places Scripted.standard { memory := [], work := holding } a := by
  have hvisible : Invocation.valueOf holding.env Environment.visibleDevices ≠ "" := by
    decide +kernel
  have hrun : (outcome (addDevices board places Scripted.standard)
        { memory := [], work := holding }).1 = .ok () ∧
      (outcome (addDevices board places Scripted.standard)
          { memory := [], work := holding }).2.work.devices.map Device.path =
        ["/dev/devmm_svm", "/dev/davinci100", "/dev/davinci_manager", "/dev/hisi_hdc"] := by
    decide +kernel
  obtain ⟨hreads, hall⟩ := addDevices_injects board places Scripted.standard
    { memory := [], work := holding } hvisible
  obtain ⟨a, ha⟩ := hreads hrun.1
  exact ⟨hvisible, hrun.1, hrun.2, a, ha, hall a ha⟩

end NpuRuntime.Creation
