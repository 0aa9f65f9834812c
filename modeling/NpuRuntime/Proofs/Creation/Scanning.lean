import NpuRuntime.Proofs.Creation.Spelling
import NpuRuntime.Proofs.First

/-! # The parts of a command line
Read from the left, a command line falls into parts: a bundle flag and the argument behind it, or
one argument alone. The scan is told by the parts: the last bundle that any of them gives, and
whether `create` stands alone somewhere. It fails exactly at a part that gives no bundle where it
should. -/
namespace NpuRuntime.Creation.Arguments

/-- An argument whose value is the next one. -/
def IsFlag (arg : String) : Prop := arg = "--bundle" ∨ arg = "-b"

instance (arg : String) : Decidable (IsFlag arg) := inferInstanceAs (Decidable (_ ∨ _))

inductive Part where
  /-- A flag and the argument behind it, which is its value whatever it looks like. -/
  | valued (flag value : String)
  /-- A flag behind which there is nothing. -/
  | bare (flag : String)
  | single (arg : String)
  deriving DecidableEq, Repr

/-- The parts of some arguments, from the left. -/
def parts : List String → List Part
  | [] => []
  | arg :: rest =>
    if IsFlag arg then
      match rest with
      | [] => [.bare arg]
      | value :: rest => .valued arg value :: parts rest
    else .single arg :: parts rest

namespace Part

def arguments : Part → List String
  | valued flag value => [flag, value]
  | bare flag => [flag]
  | single arg => [arg]

/-- The argument that is named when the part is at fault. -/
def lead : Part → String
  | valued flag _ => flag
  | bare flag => flag
  | single arg => arg

/-- The part gives this bundle: as the value of a flag, or behind an equals sign. -/
def Gives : Part → String → Prop
  | valued _ value, bundle => value = bundle
  | bare _, _ => False
  | single arg, bundle => arg = "--bundle=" ++ bundle ∨ arg = "-b=" ++ bundle

/-- The part gives no bundle where it should. -/
def IsBroken (p : Part) : Prop := (∃ flag, p = bare flag) ∨ p.Gives ""

/-- The part with another value behind its flag. -/
def revalue (f : String → String) : Part → Part
  | valued flag value => valued flag (f value)
  | bare flag => bare flag
  | single arg => single arg

def given? : Part → Option String
  | valued _ value => some value
  | bare _ => none
  | single arg => inlineBundle? arg

end Part

theorem parts_flag {flag : String} (hflag : IsFlag flag) (value : String) (rest : List String) :
    parts (flag :: value :: rest) = .valued flag value :: parts rest := by
  rw [parts.eq_def]
  exact if_pos hflag

theorem parts_bare {flag : String} (hflag : IsFlag flag) : parts [flag] = [.bare flag] := by
  rw [parts.eq_def]
  exact if_pos hflag

theorem parts_single {arg : String} (harg : ¬ IsFlag arg) (rest : List String) :
    parts (arg :: rest) = .single arg :: parts rest := by
  rw [parts.eq_def]
  exact if_neg harg

/-- No argument is lost, and each belongs to one part. -/
theorem arguments_parts (args : List String) : (parts args).flatMap Part.arguments = args := by
  induction args using parts.induct with
  | case1 => rfl
  | case2 arg hflag =>
    rw [parts_bare hflag]
    rfl
  | case3 arg hflag value rest ih =>
    rw [parts_flag hflag, List.flatMap_cons, ih]
    rfl
  | case4 arg rest hflag ih =>
    rw [parts_single hflag, List.flatMap_cons, ih]
    rfl

/-- The arguments with other values behind the flags. -/
def revalued (f : String → String) (args : List String) : List String :=
  ((parts args).map (Part.revalue f)).flatMap Part.arguments

/-- Whatever the values are, the other parts are the same. -/
theorem parts_revalued (f : String → String) (args : List String) :
    parts (revalued f args) = (parts args).map (Part.revalue f) := by
  induction args using parts.induct with
  | case1 => rfl
  | case2 arg hflag =>
    rw [revalued, parts_bare hflag]
    exact parts_bare hflag
  | case3 arg hflag value rest ih =>
    have hargs : revalued f (arg :: value :: rest) = arg :: f value :: revalued f rest := by
      rw [revalued, parts_flag hflag]
      rfl
    rw [hargs, parts_flag hflag, parts_flag hflag, ih]
    rfl
  | case4 arg rest hflag ih =>
    have hargs : revalued f (arg :: rest) = arg :: revalued f rest := by
      rw [revalued, parts_single hflag]
      rfl
    rw [hargs, parts_single hflag, parts_single hflag, ih]
    rfl

theorem Part.given?_eq_some_iff {p : Part} {bundle : String} :
    p.given? = some bundle ↔ p.Gives bundle := by
  cases p with
  | valued flag value => exact Option.some_inj
  | bare flag => exact iff_of_false nofun id
  | single arg => exact inlineBundle?_eq_some_iff

/-- What one more part tells. -/
def tell (a : Arguments) (p : Part) : Arguments :=
  ⟨p.given?.or a.bundle, a.create || decide (p = .single "create")⟩

/-- The scan ends at this part. -/
def stops : Part → Bool
  | .bare _ => true
  | p => p.given? == some ""

theorem stops_iff {p : Part} : stops p = true ↔ p.IsBroken := by
  unfold Part.IsBroken
  rw [← Part.given?_eq_some_iff]
  cases p with
  | bare flag => exact iff_of_true rfl (.inl ⟨flag, rfl⟩)
  | valued flag value => simp [stops]
  | single arg => simp [stops]

theorem scan_valued {flag : String} (hflag : IsFlag flag) (a : Arguments) (value : String)
    (rest : List String) : scan a (flag :: value :: rest) =
      if stops (.valued flag value) then .error (.of (.emptyBundle flag))
      else scan (tell a (.valued flag value)) rest := by
  rw [scan_flag hflag, withBundle]
  by_cases hvalue : value = ""
  · subst hvalue
    rfl
  · have hgoes : stops (.valued flag value) = false := by simp [stops, Part.given?, hvalue]
    have htell : tell a (.valued flag value) = { a with bundle := some value } := by
      simp [tell, Part.given?]
    rw [if_neg hvalue, hgoes, htell]
    rfl

theorem scan_single {arg : String} (harg : ¬ IsFlag arg) (a : Arguments) (rest : List String) :
    scan a (arg :: rest) =
      if stops (.single arg) then .error (.of (.emptyBundle arg))
      else scan (tell a (.single arg)) rest := by
  rw [scan_other harg]
  by_cases hcreate : arg = "create"
  · -- The command is no bundle.
    subst hcreate
    have htell : tell a (.single "create") = { a with create := true } := by
      have hnone : inlineBundle? "create" = none := by decide
      simp [tell, Part.given?, hnone]
    have hgoes : stops (.single "create") = false := by decide
    rw [if_pos rfl, hgoes, htell]
    rfl
  · have htell : tell a (.single arg) = { a with bundle := (inlineBundle? arg).or a.bundle } := by
      simp [tell, Part.given?, hcreate]
    rw [if_neg hcreate, htell]
    cases hgiven : inlineBundle? arg with
    | none =>
      have hgoes : stops (.single arg) = false := by simp [stops, Part.given?, hgiven]
      rw [hgoes]
      rfl
    | some value =>
      by_cases hvalue : value = ""
      · have hstops : stops (.single arg) = true := by simp [stops, Part.given?, hgiven, hvalue]
        rw [hstops]
        dsimp only
        rw [withBundle, if_pos hvalue]
        rfl
      · have hgoes : stops (.single arg) = false := by simp [stops, Part.given?, hgiven, hvalue]
        rw [hgoes]
        dsimp only
        rw [withBundle, if_neg hvalue]
        rfl

/-- The first broken part ends the scan. If there is none, all parts tell what they have. -/
theorem scan_eq (a : Arguments) (args : List String) :
    scan a args = match (parts args).find? stops with
      | some p => .error (.of (.emptyBundle p.lead))
      | none => .ok ((parts args).foldl tell a) := by
  induction args using parts.induct generalizing a with
  | case1 => rfl
  | case2 arg hflag =>
    rw [parts_bare hflag, scan.eq_def]
    exact if_pos hflag
  | case3 arg hflag value rest ih =>
    rw [parts_flag hflag, scan_valued hflag, List.find?_cons, List.foldl_cons]
    cases stops (.valued arg value) with
    | true => rfl
    | false => exact ih _
  | case4 arg rest hflag ih =>
    rw [parts_single hflag, scan_single hflag, List.find?_cons, List.foldl_cons]
    cases stops (.single arg) with
    | true => rfl
    | false => exact ih _

/-- Later parts outdo earlier ones. -/
theorem bundle_foldl_tell (a : Arguments) (ps : List Part) :
    (ps.foldl tell a).bundle = (ps.reverse.findSome? Part.given?).or a.bundle := by
  induction ps generalizing a with
  | nil => rfl
  | cons p ps ih =>
    rw [List.foldl_cons, ih, List.reverse_cons, List.findSome?_append, Option.or_assoc]
    congr 1
    cases hgiven : p.given? <;> simp [tell, hgiven]

theorem create_foldl_tell (a : Arguments) (ps : List Part) :
    (ps.foldl tell a).create = true ↔ a.create = true ∨ .single "create" ∈ ps := by
  induction ps generalizing a with
  | nil => simp
  | cons p ps ih =>
    rw [List.foldl_cons, ih, List.mem_cons, tell, Bool.or_eq_true, decide_eq_true_iff, or_assoc,
      @eq_comm _ p]

/-- What some parts tell together: the last bundle that is given, and whether `create` stands
alone. -/
structure Told (ps : List Part) (a : Arguments) : Prop where
  last : ∀ bundle, a.bundle = some bundle ↔ First ps.reverse Part.Gives bundle
  absent : a.bundle = none ↔ ∀ p ∈ ps, ∀ bundle, ¬ p.Gives bundle
  create : a.create = true ↔ .single "create" ∈ ps

theorem told_foldl (ps : List Part) : Told ps (ps.foldl tell {}) := by
  have hbundle : (ps.foldl tell {}).bundle = ps.reverse.findSome? Part.given? := by
    rw [bundle_foldl_tell, Option.or_none]
  have hgiven : ∀ p ∈ ps.reverse, ∀ bundle, p.given? = some bundle ↔ p.Gives bundle :=
    fun p _ bundle => Part.given?_eq_some_iff
  refine ⟨fun bundle => ?_, ?_, ?_⟩
  · rw [hbundle]
    exact findSome?_eq_some_iff_first hgiven
  · rw [hbundle, findSome?_eq_none_iff_none hgiven]
    simp only [List.mem_reverse]
  · rw [create_foldl_tell]
    exact or_iff_right Bool.false_ne_true

theorem parse_eq_error_iff {argv : List String} : (∃ f, parse argv = .error f) ↔
    ∃ p ∈ parts (argv.drop 1), p.IsBroken := by
  rw [parse, scan_eq]
  cases hfind : (parts (argv.drop 1)).find? stops with
  | some p =>
    have hbroken : p.IsBroken := stops_iff.mp (List.find?_some hfind)
    exact iff_of_true ⟨_, rfl⟩ ⟨p, List.mem_of_find?_eq_some hfind, hbroken⟩
  | none =>
    have hwhole := List.find?_eq_none.mp hfind
    constructor
    · rintro ⟨f, hf⟩
      cases hf
    · rintro ⟨p, hp, hbroken⟩
      have hstops := stops_iff.mpr hbroken
      exact absurd hstops (hwhole p hp)

theorem told_of_parse {argv : List String} {a : Arguments} (ha : parse argv = .ok a) :
    Told (parts (argv.drop 1)) a := by
  rw [parse, scan_eq] at ha
  split at ha
  · cases ha
  · obtain rfl := Except.ok.inj ha
    exact told_foldl (parts (argv.drop 1))

/-- A command line is the sequence of its parts, program name aside. It is refused exactly if a
flag stands last or some bundle is empty, and is otherwise what its parts tell. What stands behind
a flag is its value and nothing else: with any other text there, all parts would be the same. -/
theorem parse_parts (argv : List String) :
    (parts (argv.drop 1)).flatMap Part.arguments = argv.drop 1 ∧
    ((∃ f, parse argv = .error f) ↔ ∃ p ∈ parts (argv.drop 1), p.IsBroken) ∧
    (∀ a, parse argv = .ok a → Told (parts (argv.drop 1)) a) ∧
    ∀ f : String → String, parts (revalued f (argv.drop 1)) =
      (parts (argv.drop 1)).map (Part.revalue f) :=
  ⟨arguments_parts _, parse_eq_error_iff, fun _ => told_of_parse, fun f => parts_revalued f _⟩

example : parse ["runc", "-b", "create", "--bundle=/b", "--bundle", "-b"] =
    .ok ⟨some "-b", false⟩ := by
  decide

end NpuRuntime.Creation.Arguments
