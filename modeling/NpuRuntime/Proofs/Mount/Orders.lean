import NpuRuntime.Proofs.Environment.Setting
import NpuRuntime.Proofs.First
import NpuRuntime.Proofs.Mount.Flags

/-! # What the mount helper is told
The arguments of the mount helper, read from the left in pairs of a flag and its value, give back
all that the hook has found out: for which process, on which root, what to mount and with which
options. There are such arguments exactly if every step on the way to them succeeds. -/
namespace NpuRuntime

namespace Text

/-- A decimal number; a minus sign may lead it. -/
def integer? (s : String) : Option Int :=
  match s.toList with
  | '-' :: rest => (digits? rest).map fun n : Nat => -(n : Int)
  | cs => (digits? cs).map Int.ofNat

theorem integer?_toString (i : Int) : integer? (toString i) = some i := by
  cases i with
  | ofNat n =>
    have htext : toString (Int.ofNat n) = toString n := rfl
    have hread := natural?_toString n
    rw [natural?] at hread
    rw [htext, integer?]
    split
    · next rest hminus =>
      -- A minus sign is no digit.
      have hdigit : '-'.isDigit = true :=
        isDigit_of_mem_toString (n := n) (hminus ▸ List.mem_cons_self)
      exact absurd hdigit (by decide)
    · rw [hread]
      rfl
  | negSucc n =>
    have hchars : (toString (Int.negSucc n)).toList = '-' :: (toString (n + 1)).toList := by
      have htext : toString (Int.negSucc n) = "-" ++ toString (n + 1) := rfl
      rw [htext, String.toList_append]
      rfl
    have hread := natural?_toString (n + 1)
    rw [natural?] at hread
    rw [integer?, hchars]
    change (digits? (toString (n + 1)).toList).map _ = _
    rw [hread]
    rfl

end Text

/-- What the mount helper has been told so far. -/
structure Order where
  pid : Option Int := none
  rootfs : Option String := none
  mounts : Mounts := Mounts.empty
  options : List RuntimeOption := []
  deriving DecidableEq, Repr

namespace Order

/-- Takes in one flag with its value. -/
def take (o : Order) (flag value : String) : Option Order :=
  match flag with
  | "--pid" => (Text.integer? value).map fun pid => { o with pid := some pid }
  | "--rootfs" => some { o with rootfs := some value }
  | "--mount-file" => some { o with mounts := o.mounts.append ⟨[value], []⟩ }
  | "--mount-dir" => some { o with mounts := o.mounts.append ⟨[], [value]⟩ }
  | "--options" =>
    ((Text.pieces ',' value).mapM RuntimeOption.ofName).toOption.map fun options =>
      { o with options }
  | _ => none

/-- Reads arguments from the left. A flag without a value is no order. -/
def read (o : Order) : List String → Option Order
  | [] => some o
  | [_] => none
  | flag :: value :: rest => (o.take flag value).bind fun o => o.read rest

theorem read_pair {o o' : Order} {flag value : String} (ht : o.take flag value = some o')
    (rest : List String) : o.read (flag :: value :: rest) = o'.read rest := by
  rw [read, ht, Option.bind_some]

/-- A flag that comes again and again adds one path each time, in order. -/
theorem read_flatMap {flag : String} {wrap : List String → Mounts} (hnil : wrap [] = Mounts.empty)
    (hcons : ∀ v values, wrap (v :: values) = (wrap [v]).append (wrap values))
    (htake : ∀ (o : Order) v, o.take flag v = some { o with mounts := o.mounts.append (wrap [v]) })
    (o : Order) (values rest : List String) :
    o.read (values.flatMap (fun v => [flag, v]) ++ rest) =
      read { o with mounts := o.mounts.append (wrap values) } rest := by
  induction values generalizing o with
  | nil =>
    rw [hnil, Mounts.append_empty]
    rfl
  | cons v values ih =>
    have hassoc : (o.mounts.append (wrap [v])).append (wrap values) =
        o.mounts.append (wrap (v :: values)) := by
      rw [hcons v values]
      simp [Mounts.append]
    rw [List.flatMap_cons, List.append_assoc, List.cons_append, List.cons_append, List.nil_append,
      read_pair (htake o v), ih]
    dsimp only
    rw [hassoc]

theorem read_files (o : Order) (files rest : List String) :
    o.read (files.flatMap (fun f => ["--mount-file", f]) ++ rest) =
      read { o with mounts := o.mounts.append ⟨files, []⟩ } rest :=
  @read_flatMap "--mount-file" (fun files => ⟨files, []⟩) rfl (fun _ _ => rfl) (fun _ _ => rfl)
    o files rest

theorem read_directories (o : Order) (directories rest : List String) :
    o.read (directories.flatMap (fun d => ["--mount-dir", d]) ++ rest) =
      read { o with mounts := o.mounts.append ⟨[], directories⟩ } rest :=
  @read_flatMap "--mount-dir" (fun directories => ⟨[], directories⟩) rfl (fun _ _ => rfl)
    (fun _ _ => rfl) o directories rest

theorem take_options {o : RuntimeOptions} (ho : o.isEmpty = false) (order : Order) :
    order.take "--options" o.text = some { order with options := o.list } := by
  have hnames : (Text.pieces ',' o.text).mapM RuntimeOption.ofName = .ok o.list :=
    RuntimeOptions.mapM_ofName_eq_ok.mpr (RuntimeOptions.pieces_text ho)
  change ((Text.pieces ',' o.text).mapM RuntimeOption.ofName).toOption.map _ = _
  rw [hnames]
  rfl

/-- Nothing that is mounted, and no root, can be taken for a flag. -/
theorem read_mountArguments (c : Container) (m : Mounts) (o : RuntimeOptions) :
    read {} (Invocation.mountArguments c m o) =
      some ⟨some c.pid, some c.rootfs, m, o.list⟩ := by
  have hpid : take {} "--pid" (toString c.pid) = some { pid := some c.pid } := by
    change (Text.integer? (toString c.pid)).map _ = _
    rw [Text.integer?_toString]
    rfl
  have hmounts : (Mounts.empty.append ⟨m.files, []⟩).append ⟨[], m.directories⟩ = m := by
    simp [Mounts.append, Mounts.empty]
  have hrootfs : take { pid := some c.pid } "--rootfs" c.rootfs =
      some { pid := some c.pid, rootfs := some c.rootfs } := rfl
  simp only [Invocation.mountArguments, List.append_assoc, List.cons_append, List.nil_append]
  rw [read_pair hpid, read_pair hrootfs, read_files, read_directories]
  dsimp only
  rw [hmounts]
  cases ho : o.isEmpty with
  | true =>
    have hnone : o.list = [] := List.isEmpty_iff.mp ho
    rw [if_pos rfl, hnone]
    rfl
  | false => exact (read_pair (take_options ho _) []).trans rfl

end Order

namespace Environment

variable {env : Lines} {name : String}

/-- The first line with the key says nothing, or there is none. -/
def IsUnset (env : Lines) (name : String) : Prop :=
  (∀ l ∈ env, ¬ HasKey l name) ∨ First env (fun l value => Reads l name value) ""

theorem valueOf_eq_empty_iff : Invocation.valueOf env name = "" ↔ IsUnset env name := by
  have hread : ∀ l ∈ env, ∀ value, valueIn? name l = some value ↔ Reads l name value :=
    fun l _ value => valueIn?_eq_some_iff
  have hnone : get? env name = none ↔ ∀ l ∈ env, ¬ HasKey l name := by
    rw [get?, findSome?_eq_none_iff_none hread]
    simp only [HasKey, not_exists]
  rw [IsUnset, ← hnone, ← findSome?_eq_some_iff_first hread, Invocation.valueOf]
  change _ ↔ get? env name = none ∨ get? env name = some ""
  cases get? env name <;> simp

end Environment

namespace Container

variable {h : Host} {state : Bundle.State} {c : Container}

/-- The document in the bundle of a container, behind a trusted path and with no more lines than an
environment may have. -/
def HasDocument (h : Host) (state : Bundle.State) (spec : Bundle.Spec) : Prop :=
  (∃ real, Trust.validate h (PathText.join state.bundle Bundle.State.documentName)
    Policy.file.withSymlinks = .ok real ∧ Bundle.Spec.load h real = .ok spec) ∧
  spec.env.length ≤ maxItems

/-- The root as the document names it, which lies in the bundle unless it is absolute. -/
def rootOf (state : Bundle.State) (spec : Bundle.Spec) : String :=
  if spec.root.path.toList.head? = some '/' then spec.root.path
  else PathText.join state.bundle spec.root.path

theorem rootOf_eq (state : Bundle.State) (spec : Bundle.Spec) :
    rootOf state spec = PathText.join state.bundle spec.root.path := by
  unfold rootOf PathText.join
  split <;> rfl

theorem ofState_eq_ok_iff : ofState h state = .ok c ↔
    ∃ spec, HasDocument h state spec ∧ c = ⟨state.pid, rootOf state spec, spec.env⟩ := by
  unfold ofState
  dsimp only
  rw [bind_eq_ok]
  constructor
  · rintro ⟨real, hreal, hload⟩
    obtain ⟨spec, hspec, hc⟩ := bind_eq_ok.mp hload
    unfold ofSpec at hc
    split at hc
    · cases hc
    · next hcount =>
      refine ⟨spec, ⟨⟨real, mapError_eq_ok.mp hreal, hspec⟩, Nat.not_lt.mp hcount⟩, ?_⟩
      rw [rootOf_eq]
      exact (Except.ok.inj hc).symm
  · rintro ⟨spec, ⟨⟨real, hreal, hspec⟩, hcount⟩, rfl⟩
    refine ⟨real, mapError_eq_ok.mpr hreal, bind_eq_ok.mpr ⟨spec, hspec, ?_⟩⟩
    rw [ofSpec, if_neg (Nat.not_lt.mpr hcount), rootOf_eq]

end Container

namespace Invocation

open Query

variable {σ ω : Type} {h : Host} {s : Settings} {state : Bundle.State} {c : Container}
  {mounts : Mounts} {options : RuntimeOptions} {i : Invocation}

/-- Every step for a container with devices succeeds, and this is what they come to. -/
structure Prepared (h : Host) (s : Settings) (c : Container) (r : Run σ ω) (mounts : Mounts)
    (options : RuntimeOptions) : Prop where
  mounts : ∃ names, MountNames.parse (valueOf c.env Environment.runtimeMounts) = .ok names ∧
    (outcome (Mounts.readLists h s.lists names) r).1 = .ok mounts
  options : RuntimeOptions.parse (valueOf c.env Environment.runtimeOptions) = .ok options
  helper : ∃ real, Trust.realFile h s.mountHelper = .ok real

theorem result_ofContainer (r : Run σ ω) : (outcome (ofContainer h s c) r).1 = .ok i ↔
    ∃ mounts options, Prepared h s c r mounts options ∧
      i = ⟨s.mountHelper, mountArguments c mounts options⟩ := by
  unfold ofContainer
  rw [result_ofExcept_bind]
  constructor
  · rintro ⟨names, hnames, hi⟩
    obtain ⟨mounts, r', hmounts, hi⟩ := outcome_bind_eq_ok.mp (outcome_eq_of_result hi)
    have hlists := congrArg Prod.fst (outcome_mapFailure_eq_ok.mp hmounts)
    obtain ⟨options, hoptions, hi⟩ := result_ofExcept_bind.mp (congrArg Prod.fst hi)
    obtain ⟨real, hreal, hi⟩ := result_ofExcept_bind.mp hi
    exact ⟨mounts, options, ⟨⟨names, mapError_eq_ok.mp hnames, hlists⟩,
      mapError_eq_ok.mp hoptions, real, mapError_eq_ok.mp hreal⟩, (Except.ok.inj hi).symm⟩
  · rintro ⟨mounts, options, ⟨⟨names, hnames, hmounts⟩, hoptions, real, hreal⟩, rfl⟩
    refine ⟨names, mapError_eq_ok.mpr hnames, ?_⟩
    rw [outcome_bind, outcome_mapFailure, hmounts]
    refine result_ofExcept_bind.mpr ⟨options, mapError_eq_ok.mpr hoptions, ?_⟩
    exact result_ofExcept_bind.mpr ⟨real, mapError_eq_ok.mpr hreal, rfl⟩

/-- Without visible devices nothing else is looked at. -/
theorem result_prepare_none (r : Run σ ω) : (outcome (prepare h s state) r).1 = .ok none ↔
    ∃ c, Container.ofState h state = .ok c ∧
      Environment.IsUnset c.env Environment.visibleDevices := by
  unfold prepare
  rw [result_ofExcept_bind]
  refine exists_congr fun c => and_congr mapError_eq_ok ?_
  rw [← Environment.valueOf_eq_empty_iff]
  split
  · next hunset => exact iff_of_true rfl hunset
  · next hset =>
    rw [result_bind_pure]
    refine iff_of_false ?_ hset
    cases (outcome (ofContainer h s c) r).1 <;> nofun

theorem result_prepare_some (r : Run σ ω) : (outcome (prepare h s state) r).1 = .ok (some i) ↔
    ∃ c, Container.ofState h state = .ok c ∧
      ¬ Environment.IsUnset c.env Environment.visibleDevices ∧
      (outcome (ofContainer h s c) r).1 = .ok i := by
  unfold prepare
  rw [result_ofExcept_bind]
  refine exists_congr fun c => and_congr mapError_eq_ok ?_
  rw [← Environment.valueOf_eq_empty_iff]
  split
  · next hunset => exact iff_of_false nofun fun hi => hi.1 hunset
  · next hset =>
    rw [result_bind_pure, map_eq_ok]
    simp [hset]

/-- The command line tells the helper all of this and nothing else. Options come up exactly if there
are some. -/
structure Tells (i : Invocation) (pid : Int) (rootfs : String) (mounts : Mounts)
    (options : RuntimeOptions) : Prop where
  order : Order.read {} i.args = some ⟨some pid, some rootfs, mounts, options.list⟩
  silent : (∀ value, ("--options", value) ∉ flagged i.args) ↔ options.list = []

theorem tells_mountArguments (program : String) (c : Container) (mounts : Mounts)
    (options : RuntimeOptions) :
    Tells ⟨program, mountArguments c mounts options⟩ c.pid c.rootfs mounts options where
  order := Order.read_mountArguments c mounts options
  silent := by
    simp only [options_mem_iff, RuntimeOptions.isEmpty]
    rw [← List.isEmpty_iff]
    cases options.list.isEmpty <;> simp

/-- A container whose first line of visible devices is missing or empty needs no command line. Any
other gets one exactly if its lists, its options and the helper are all in order. From left to
right that tells the process, the root, what to mount, and the options. -/
theorem prepare_tells (h : Host) (s : Settings) (state : Bundle.State) (r : Run σ ω) :
    ((outcome (prepare h s state) r).1 = .ok none ↔ ∃ c, Container.ofState h state = .ok c ∧
      Environment.IsUnset c.env Environment.visibleDevices) ∧
    ((∃ i, (outcome (prepare h s state) r).1 = .ok (some i)) ↔
      ∃ c, Container.ofState h state = .ok c ∧
        ¬ Environment.IsUnset c.env Environment.visibleDevices ∧
        ∃ mounts options, Prepared h s c r mounts options) ∧
    ∀ i, (outcome (prepare h s state) r).1 = .ok (some i) → i.program = s.mountHelper ∧
      ∃ c spec mounts options, Container.HasDocument h state spec ∧
        c = ⟨state.pid, Container.rootOf state spec, spec.env⟩ ∧
        Prepared h s c r mounts options ∧
        Tells i state.pid (Container.rootOf state spec) mounts options := by
  refine ⟨result_prepare_none r, ?_, fun i hi => ?_⟩
  · simp only [result_prepare_some, result_ofContainer]
    constructor
    · rintro ⟨i, c, hc, hset, mounts, options, hprepared, -⟩
      exact ⟨c, hc, hset, mounts, options, hprepared⟩
    · rintro ⟨c, hc, hset, mounts, options, hprepared⟩
      exact ⟨_, c, hc, hset, mounts, options, hprepared, rfl⟩
  · obtain ⟨c, hc, -, hi⟩ := (result_prepare_some r).mp hi
    obtain ⟨mounts, options, hprepared, rfl⟩ := (result_ofContainer r).mp hi
    obtain ⟨spec, hspec, rfl⟩ := Container.ofState_eq_ok_iff.mp hc
    exact ⟨rfl, _, spec, mounts, options, hspec, rfl, hprepared, tells_mountArguments _ _ _ _⟩

-- Roots and paths that look like flags are read as what they are.
example :
    Order.read {} (mountArguments ⟨-1, "--options", []⟩ ⟨["--mount-dir"], ["--pid"]⟩ ⟨[.virtual]⟩) =
      some ⟨some (-1), some "--options", ⟨["--mount-dir"], ["--pid"]⟩, [.virtual]⟩ := by
  decide

end Invocation

end NpuRuntime
