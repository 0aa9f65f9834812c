import NpuRuntime.Creation.Prepare
import NpuRuntime.Proofs.Trust.Named

/-! # Two spellings of a bundle
A bundle follows its flag as an argument of its own, or behind an equals sign. The scan takes both
for the same. The check of the whole command line knows only the first, since an equals sign is
none of its characters. -/
namespace NpuRuntime

namespace Text

theorem after?_append (lead s : String) : after? lead (lead ++ s) = some s := by
  have hdrop : (lead.toList ++ s.toList).drop lead.length = s.toList :=
    List.drop_left' String.length_toList
  rw [after?, String.toList_append, if_pos (by simp), hdrop, String.ofList_toList]

theorem after?_eq_some_iff {lead s rest : String} :
    after? lead s = some rest ↔ s = lead ++ rest := by
  constructor
  · intro hs
    unfold after? at hs
    split at hs
    · next hlead =>
      obtain ⟨tail, htail⟩ := List.isPrefixOf_iff_prefix.mp hlead
      have hrest := Option.some.inj hs
      rw [← htail, List.drop_left' String.length_toList] at hrest
      apply String.toList_injective
      rw [String.toList_append, ← hrest, String.toList_ofList, htail]
    · cases hs
  · rintro rfl
    exact after?_append lead rest

theorem mem_intercalate {c : Char} {part : String} {parts : List String} (hp : part ∈ parts)
    (hc : c ∈ part.toList) (sep : String) : c ∈ (String.intercalate sep parts).toList := by
  rw [String.toList_intercalate]
  induction parts with
  | nil => cases hp
  | cons first parts ih =>
    cases parts with
    | nil =>
      rw [List.mem_singleton.mp hp] at hc
      simpa using hc
    | cons second parts =>
      rw [List.map_cons, List.map_cons, List.intercalate_cons_cons, List.mem_append,
        List.mem_append]
      rcases List.mem_cons.mp hp with rfl | hp
      · exact .inl (.inl hc)
      · exact .inr (ih hp)

end Text

namespace Creation

open Query

variable {σ : Type} {s : Settings} {svc : Service σ}

namespace Arguments

/-- Behind these arguments no flag waits for its bundle, so the next one may be a flag. -/
def settled : List String → Bool
  | [] => true
  | arg :: rest =>
    if arg = "--bundle" ∨ arg = "-b" then
      match rest with
      | [] => false
      | _ :: rest => settled rest
    else settled rest

theorem scan_flag {flag : String} (hflag : flag = "--bundle" ∨ flag = "-b") (a : Arguments)
    (value : String) (rest : List String) :
    scan a (flag :: value :: rest) = a.withBundle flag value >>= (scan · rest) := by
  rw [scan.eq_def]
  exact if_pos hflag

theorem scan_other {arg : String} (hflag : ¬ (arg = "--bundle" ∨ arg = "-b")) (a : Arguments)
    (rest : List String) : scan a (arg :: rest) =
      if arg = "create" then scan { a with create := true } rest
      else match inlineBundle? arg with
        | some value => a.withBundle arg value >>= (scan · rest)
        | none => scan a rest := by
  rw [scan.eq_def]
  exact if_neg hflag

/-- The scan of settled arguments is gone on from with those behind them. -/
theorem scan_append {first : List String} (hs : settled first = true) (a : Arguments)
    (rest : List String) : scan a (first ++ rest) = scan a first >>= (scan · rest) := by
  induction first using settled.induct generalizing a with
  | case1 => rfl
  | case2 arg hflag => simp [settled, hflag] at hs
  | case3 arg hflag value others ih =>
    simp only [settled, hflag, if_true] at hs
    rw [List.cons_append, List.cons_append, scan_flag hflag, scan_flag hflag]
    cases a.withBundle arg value with
    | error f => rfl
    | ok b => exact ih hs b
  | case4 arg others hflag ih =>
    unfold settled at hs
    rw [if_neg hflag] at hs
    rw [List.cons_append, scan_other hflag, scan_other hflag]
    split
    · exact ih hs _
    · cases inlineBundle? arg with
      | none => exact ih hs a
      | some value =>
        dsimp only
        cases a.withBundle arg value with
        | error f => rfl
        | ok b => exact ih hs b

/-- A flag and the bundle behind it in one argument. -/
def joined (flag value : String) : String := flag ++ "=" ++ value

theorem mem_joined (flag value : String) : '=' ∈ (joined flag value).toList := by
  simp [joined]

theorem joined_ne {arg : String} (ha : '=' ∉ arg.toList) (flag value : String) :
    joined flag value ≠ arg := by
  intro he
  exact ha (he ▸ mem_joined flag value)

theorem inlineBundle?_eq_some_iff {arg bundle : String} :
    inlineBundle? arg = some bundle ↔ arg = "--bundle=" ++ bundle ∨ arg = "-b=" ++ bundle := by
  rw [inlineBundle?]
  cases hlong : Text.after? "--bundle=" arg with
  | some found =>
    obtain rfl := Text.after?_eq_some_iff.mp hlong
    -- The two spellings differ in the second character.
    have hshort : "--bundle=" ++ found ≠ "-b=" ++ bundle := by
      intro he
      have hsecond := congrArg (·.toList[1]?) he
      simp at hsecond
    simp [hshort]
  | none =>
    have hnot : arg ≠ "--bundle=" ++ bundle := by
      intro he
      rw [Text.after?_eq_some_iff.mpr he] at hlong
      cases hlong
    simp [hnot, Text.after?_eq_some_iff]

theorem inlineBundle?_joined {flag : String} (hflag : flag = "--bundle" ∨ flag = "-b")
    (value : String) : inlineBundle? (joined flag value) = some value := by
  rw [inlineBundle?_eq_some_iff]
  rcases hflag with rfl | rfl
  · exact .inl rfl
  · exact .inr rfl

/-- In the place of a flag both spellings are read alike, unless there is no bundle at all. -/
theorem scan_joined {flag value : String} (hflag : flag = "--bundle" ∨ flag = "-b")
    (hvalue : value ≠ "") (a : Arguments) (rest : List String) :
    scan a (joined flag value :: rest) = scan a (flag :: value :: rest) := by
  have hother : ¬ (joined flag value = "--bundle" ∨ joined flag value = "-b") := by
    rintro (he | he)
    · exact joined_ne (by decide) flag value he
    · exact joined_ne (by decide) flag value he
  have hcreate : joined flag value ≠ "create" := joined_ne (by decide) flag value
  rw [scan_flag hflag, scan_other hother, if_neg hcreate, inlineBundle?_joined hflag]
  dsimp only
  rw [withBundle, withBundle, if_neg hvalue, if_neg hvalue]

/-- A command line with a bundle behind its flag, in two arguments or in one. -/
def apart (program flag value : String) (before after : List String) : List String :=
  program :: (before ++ flag :: value :: after)

def together (program flag value : String) (before after : List String) : List String :=
  program :: (before ++ joined flag value :: after)

theorem parse_together {program flag value : String} {before after : List String}
    (hflag : flag = "--bundle" ∨ flag = "-b") (hvalue : value ≠ "")
    (hbefore : settled before = true) :
    parse (together program flag value before after) =
      parse (apart program flag value before after) := by
  rw [parse, parse, together, apart, List.drop_succ_cons, List.drop_succ_cons, List.drop_zero,
    List.drop_zero, scan_append hbefore, scan_append hbefore]
  congr 1
  funext a
  exact scan_joined hflag hvalue a after

end Arguments

/-- Preparing a container is the same in both spellings: on every host, whatever the driver
answers. -/
theorem prepare_together {program flag value : String} {before after : List String}
    (hflag : flag = "--bundle" ∨ flag = "-b") (hvalue : value ≠ "")
    (hbefore : Arguments.settled before = true) :
    prepare s svc (Arguments.together program flag value before after) =
      prepare s svc (Arguments.apart program flag value before after) := by
  unfold prepare
  rw [Arguments.parse_together hflag hvalue hbefore]

theorem checkArguments_nil : checkArguments [] = .error (.of .badCommandLine) := rfl

/-- Each character of a command line that is let through is plain. -/
theorem plain_of_checkArguments {argv : List String} (hcheck : checkArguments argv = .ok ())
    {arg : String} (harg : arg ∈ argv) : ∀ c ∈ arg.toList,
      c.isAlphanum = true ∨ c ∈ (PathText.whiteList ++ " ").toList := by
  intro c hc
  unfold checkArguments at hcheck
  split at hcheck
  · next hplain =>
    obtain ⟨-, -, hall⟩ := Text.isPlain_iff.mp hplain
    exact hall c (Text.mem_intercalate harg hc " ")
  · cases hcheck

theorem checkArguments_of_equals {argv : List String} {arg : String} (harg : arg ∈ argv)
    (hequals : '=' ∈ arg.toList) : checkArguments argv = .error (.of .badCommandLine) := by
  cases hcheck : checkArguments argv with
  | error f =>
    unfold checkArguments at hcheck
    split at hcheck
    · cases hcheck
    · exact hcheck.symm
  | ok _ =>
    have hnot : ¬ ('='.isAlphanum = true ∨ '=' ∈ (PathText.whiteList ++ " ").toList) := by decide
    exact absurd (plain_of_checkArguments hcheck harg '=' hequals) hnot

theorem checkArguments_together (program flag value : String) (before after : List String) :
    checkArguments (Arguments.together program flag value before after) =
      .error (.of .badCommandLine) :=
  checkArguments_of_equals (by simp [Arguments.together]) (Arguments.mem_joined flag value)

end Creation

end NpuRuntime
