import NpuRuntime.Proofs.Bundle.Growth
import NpuRuntime.Proofs.Creation.Settling
import NpuRuntime.Proofs.Selection.Devices
import NpuRuntime.Proofs.Selection.Options
import NpuRuntime.Proofs.Slice.Made

/-! # The hook and the slice
The two steps after which a document is looked at differently: it has the hook, and it asks for a
slice no more. -/
namespace NpuRuntime.Creation

open Query NpuRuntime.Bundle

variable {σ : Type} {h : Host} {s : Settings} {svc : Service σ}

/-- A hook before the container's start bears the name that is looked for. -/
def hooked (spec : Spec) : Bool :=
  spec.prestart.any fun hook => Text.holds hook.path Settings.hookName

theorem holds_append (base name : String) : Text.holds (base ++ name) name = true := by
  have ho : ∀ a b : List Char, Text.occurs b (a ++ b) = true := by
    intro a b
    induction a with
    | nil => cases b <;> simp [Text.occurs]
    | cons c a ih => simp [Text.occurs, ih]
  rw [Text.holds, String.toList_append]
  exact ho _ _

theorem holds_hook (s : Settings) : Text.holds s.hook Settings.hookName = true := by
  have hn : ¬ Settings.hookName.toList.head? = some '/' := by decide
  rw [Settings.hook, Settings.program, PathText.join, if_neg hn]
  split <;> exact holds_append _ _

theorem outcome_checkCount (what : Counted) (count : Nat) (r : Run σ Spec) :
    outcome (checkCount what count) r = (if count > maxItems
      then .error (.ofFault (.tooMany what count maxItems)) else .ok (), r) := by
  unfold checkCount
  split <;> rfl

theorem outcome_addHook (h : Host) (s : Settings) (r : Run σ Spec) : outcome (addHook h s) r =
    match Trust.realFile h s.hook with
    | .error e => (.error ((Failure.ofRejection e).within (.hook s.hook)), r)
    | .ok _ =>
      if r.work.prestart.length > maxItems then
        (.error (.ofFault (.tooMany .prestartHooks r.work.prestart.length maxItems)), r)
      else if hooked r.work then
        (.ok (), r.noted [⟨.debug, .mutation, "prestart hook already present"⟩])
      else (.ok (), r.working (r.work.addPrestart (Hook.start s.hook []))) := by
  unfold addHook
  rw [outcome_bind, outcome_ofExcept]
  cases Trust.realFile h s.hook with
  | error e => rfl
  | ok real =>
    dsimp only [mapError_ok, mapError_error]
    rw [outcome_bind, outcome_current]
    dsimp only
    rw [outcome_bind, outcome_checkCount]
    by_cases hc : r.work.prestart.length > maxItems
    · rw [if_pos hc, if_pos hc]
    · rw [if_neg hc, if_neg hc]
      by_cases hh : hooked r.work = true
      · rw [if_pos hh]
        exact congrArg (outcome · r) (if_pos hh)
      · rw [if_neg hh]
        exact congrArg (outcome · r) (if_neg hh)

/-- A document with the hook, which is added if no hook bears its name. -/
def withHook (s : Settings) (spec : Spec) : Spec :=
  if hooked spec then spec else spec.addPrestart (Hook.start s.hook [])

theorem env_withHook (s : Settings) (spec : Spec) : (withHook s spec).env = spec.env := by
  unfold withHook
  split
  · rfl
  · exact Spec.env_addPrestart spec _

theorem hooked_withHook (s : Settings) (spec : Spec) : hooked (withHook s spec) = true := by
  unfold withHook
  split
  · assumption
  · simp [hooked, Hook.start, holds_hook]

theorem prestart_withHook (s : Settings) (spec : Spec) :
    spec.prestart <+: (withHook s spec).prestart ∧
      (withHook s spec).prestart.length ≤ spec.prestart.length + 1 := by
  unfold withHook
  split
  · exact ⟨List.prefix_rfl, Nat.le_succ _⟩
  · rw [Spec.prestart_addPrestart]
    exact ⟨List.prefix_append _ _, by simp⟩

theorem devices_withHook (s : Settings) (spec : Spec) :
    (withHook s spec).devices = spec.devices := by
  unfold withHook
  split <;> rfl

theorem rules_withHook (s : Settings) (spec : Spec) : (withHook s spec).rules = spec.rules := by
  unfold withHook
  split <;> rfl

theorem rest_withHook (s : Settings) (spec : Spec) : (withHook s spec).rest = spec.rest := by
  unfold withHook
  split
  · rfl
  · exact Spec.rest_addPrestart spec _

theorem poststop_withHook (s : Settings) (spec : Spec) :
    (withHook s spec).poststop = spec.poststop := by
  unfold withHook
  split
  · rfl
  · exact Spec.poststop_addPrestart spec _

/-- The hook is refused with nothing changed, or it is there afterwards. -/
theorem addHook_cases (h : Host) (s : Settings) (r : Run σ Spec) :
    (∃ f, outcome (addHook h s) r = (.error f, r)) ∨
    ∃ real ls, Trust.realFile h s.hook = .ok real ∧
      outcome (addHook h s) r = (.ok (), (r.working (withHook s r.work)).noted ls) := by
  rw [outcome_addHook]
  cases Trust.realFile h s.hook with
  | error e => exact .inl ⟨_, rfl⟩
  | ok real =>
    dsimp only
    split
    · exact .inl ⟨_, rfl⟩
    · right
      by_cases hh : hooked r.work = true
      · have hw : withHook s r.work = r.work := if_pos hh
        refine ⟨real, [⟨.debug, .mutation, "prestart hook already present"⟩], rfl, ?_⟩
        rw [if_pos hh, hw]
        rfl
      · have hw : withHook s r.work = r.work.addPrestart (Hook.start s.hook []) := if_neg hh
        refine ⟨real, [], rfl, ?_⟩
        rw [if_neg hh, hw]
        simp [Run.noted, Run.working]

theorem work_addHook {r t : Run σ Spec} (hr : outcome (addHook h s) r = (.ok (), t)) :
    t.work = withHook s r.work := by
  obtain ⟨f, hf⟩ | ⟨-, ls, -, hls⟩ := addHook_cases h s r
  · simp [hf] at hr
  · rw [hls] at hr
    cases hr
    rfl

theorem addHook_of_count {real : Path} (hreal : Trust.realFile h s.hook = .ok real)
    {r : Run σ Spec} (hcount : r.work.prestart.length ≤ maxItems) : ∃ ls,
    outcome (addHook h s) r = (.ok (), (r.working (withHook s r.work)).noted ls) := by
  obtain ⟨f, hf⟩ | ⟨-, ls, -, hls⟩ := addHook_cases h s r
  · rw [outcome_addHook, hreal] at hf
    dsimp only at hf
    rw [if_neg (Nat.not_lt.mpr hcount)] at hf
    split at hf <;> cases hf
  · exact ⟨ls, hls⟩

theorem addHook_of_hooked {r : Run σ Spec} {real : Path}
    (hreal : Trust.realFile h s.hook = .ok real) (hcount : r.work.prestart.length ≤ maxItems)
    (hhook : hooked r.work = true) : ∃ ls, outcome (addHook h s) r = (.ok (), r.noted ls) := by
  have hsame : withHook s r.work = r.work := if_pos hhook
  obtain ⟨ls, hls⟩ := addHook_of_count hreal hcount
  rw [hsame] at hls
  exact ⟨ls, hls⟩

/-- The slice that a document still asks for. -/
def wanted (h : Host) (s : Settings) (spec : Spec) : Except Failure (Option Slice.Request) :=
  match optionsOf spec with
  | .error f => .error f
  | .ok options =>
    if options.isVirtual then .ok none
    else match Slice.Request.ofEnv spec.env with
      | .error f => .error (.ofFault f)
      | .ok none => .ok none
      | .ok (some request) => match Trust.realFile h s.destroyHelper with
        | .error r => .error ((Failure.ofRejection r).within (.destroyHelper s.destroyHelper))
        | .ok _ => .ok (some request)

/-- A document whose only visible device is a slice, with the hook that frees it. -/
def sliced (s : Settings) (slice : Slice) (spec : Spec) : Spec :=
  let env := Environment.set spec.env Environment.visibleDevices (toString slice.slice)
  (spec.withEnv (Environment.addToken env Environment.runtimeOptions
    RuntimeOption.virtual.name).1).addPoststop (Hook.start s.destroyHelper slice.arguments)

theorem outcome_addSliceTo (slice : Slice) (r : Run σ Spec) : ∃ ls,
    outcome (addSliceTo s slice) r = (.ok (), (r.working (sliced s slice r.work)).noted ls) := by
  have hn : ∀ (q : Run σ Spec) (a b : List Record), (q.noted a).noted b = q.noted (a ++ b) :=
    fun q a b => by simp [Run.noted]
  unfold addSliceTo
  simp only [outcome_bind, outcome_current, outcome_note, outcome_noteAll, outcome_update, hn]
  exact ⟨_, rfl⟩

theorem outcome_addSlice (h : Host) (s : Settings) (svc : Service σ) (r : Run σ Spec) :
    outcome (addSlice h s svc) r = match wanted h s r.work with
      | .error f => (.error f, r)
      | .ok none => (.ok (), r)
      | .ok (some request) => outcome (do
          addSliceTo s (← mapFailure Failure.ofFault (Slice.create svc request))) r := by
  unfold addSlice wanted
  rw [outcome_bind, outcome_current]
  dsimp only
  rw [outcome_bind, outcome_ofExcept]
  cases optionsOf r.work with
  | error f => rfl
  | ok options =>
    dsimp only
    cases options.isVirtual with
    | true => rfl
    | false =>
      simp only [Bool.false_eq_true, if_false]
      rw [outcome_bind, outcome_ofExcept]
      rcases Slice.Request.ofEnv r.work.env with f | _ | request
      · rfl
      · rfl
      · dsimp only [mapError_ok, mapError_error]
        rw [outcome_bind, outcome_ofExcept]
        cases Trust.realFile h s.destroyHelper <;> rfl

theorem wanted_of_isVirtual {spec : Spec} {options : RuntimeOptions}
    (ho : optionsOf spec = .ok options) (hv : options.isVirtual = true) :
    wanted h s spec = .ok none := by
  rw [wanted, ho]
  exact if_pos hv

theorem exists_of_wanted {spec : Spec} {request : Slice.Request}
    (hw : wanted h s spec = .ok (some request)) :
    ∃ options, optionsOf spec = .ok options ∧ options.isVirtual = false := by
  unfold wanted at hw
  cases ho : optionsOf spec with
  | error f => simp [ho] at hw
  | ok options =>
    cases hv : options.isVirtual with
    | true => simp [ho, hv] at hw
    | false => exact ⟨options, rfl, hv⟩

theorem Keeps.wanted_eq {u w : Spec} (huw : Keeps u w) : wanted h s w = wanted h s u := by
  rw [wanted, wanted, huw.optionsOf_eq, huw.request_eq]

/-- Nothing is made, nothing is asked for, or one slice is made and written down. -/
theorem addSlice_cases (h : Host) (s : Settings) (svc : Service σ) (r : Run σ Spec) :
    (∃ f q, outcome (addSlice h s svc) r = (.error f, q) ∧ q.slices = r.slices) ∨
    (wanted h s r.work = .ok none ∧ outcome (addSlice h s svc) r = (.ok (), r)) ∨
    ∃ slice options q, optionsOf r.work = .ok options ∧ options.isVirtual = false ∧
      q.work = sliced s slice r.work ∧ q.slices = r.slices ++ [slice] ∧
      outcome (addSlice h s svc) r = (.ok (), q) := by
  rw [outcome_addSlice]
  rcases hw : wanted h s r.work with f | _ | request
  · exact .inl ⟨f, r, rfl, rfl⟩
  · exact .inr (.inl ⟨rfl, rfl⟩)
  · obtain ⟨options, ho, hv⟩ := exists_of_wanted hw
    have hs := Slice.slices_create svc request r
    have hwork := Slice.work_create svc request r
    dsimp only
    rw [outcome_bind, outcome_mapFailure]
    generalize outcome (Slice.create svc request) r = o at hs hwork ⊢
    rcases o with ⟨f | slice, q⟩
    · exact .inl ⟨_, q, rfl, by simpa [Except.toOption] using hs⟩
    · obtain ⟨ls, hq⟩ := outcome_addSliceTo (s := s) slice q
      refine .inr (.inr ⟨slice, options, _, ho, hv, ?_, ?_, hq⟩)
      · exact congrArg (sliced s slice) hwork
      · exact hs

/-- A step that succeeds found nothing to do, or wrote down the slice that it made. -/
theorem addSlice_eq_ok {r t : Run σ Spec} (hr : outcome (addSlice h s svc) r = (.ok (), t)) :
    (wanted h s r.work = .ok none ∧ t = r) ∨
    ∃ request slice options, wanted h s r.work = .ok (some request) ∧
      optionsOf r.work = .ok options ∧ options.isVirtual = false ∧
      t.work = sliced s slice r.work := by
  obtain ⟨f, q, hf, -⟩ | ⟨hw, hsame⟩ | ⟨slice, options, q, ho, hv, hwork, -, hq⟩ :=
    addSlice_cases h s svc r
  · simp [hf] at hr
  · rw [hsame] at hr
    cases hr
    exact .inl ⟨hw, rfl⟩
  · rcases hw : wanted h s r.work with f | _ | request
    · simp [outcome_addSlice, hw] at hr
    · rw [outcome_addSlice, hw] at hr
      cases hr
      exact .inl ⟨rfl, rfl⟩
    · rw [hq] at hr
      cases hr
      exact .inr ⟨request, slice, options, rfl, ho, hv, hwork⟩

theorem prestart_sliced (slice : Slice) (spec : Spec) :
    (sliced s slice spec).prestart = spec.prestart := Spec.prestart_addPoststop _ _

theorem prestart_addSlice {r t : Run σ Spec}
    (hr : outcome (addSlice h s svc) r = (.ok (), t)) : t.work.prestart = r.work.prestart := by
  obtain ⟨-, rfl⟩ | ⟨request, slice, options, -, -, -, hwork⟩ := addSlice_eq_ok hr
  · rfl
  · rw [hwork, prestart_sliced]

theorem get?_visible_sliced (slice : Slice) (spec : Spec) :
    Environment.get? (sliced s slice spec).env Environment.visibleDevices =
      some (toString slice.slice) := by
  have hne : Environment.runtimeOptions ≠ Environment.visibleDevices := by decide
  unfold sliced
  rw [Spec.env_addPoststop, Spec.env_withEnv,
    Environment.get?_addToken_of_ne Environment.isName_runtimeOptions hne,
    Environment.get?_set Environment.isName_visibleDevices]

theorem visible_sliced (slice : Slice) (spec : Spec) :
    Invocation.valueOf (sliced s slice spec).env Environment.visibleDevices =
      toString slice.slice := by
  rw [Invocation.valueOf, get?_visible_sliced, Option.getD_some]

theorem optionsOf_eq_ok {spec : Spec} {options : RuntimeOptions} :
    optionsOf spec = .ok options ↔ RuntimeOptions.parse
      (Invocation.valueOf spec.env Environment.runtimeOptions) = .ok options := by
  unfold optionsOf
  cases RuntimeOptions.parse (Invocation.valueOf spec.env Environment.runtimeOptions) <;>
    simp

/-- The options of a document with a slice are read from the old text and one more name. -/
theorem optionsOf_sliced {spec : Spec} {options : RuntimeOptions}
    (ho : optionsOf spec = .ok options) (hv : options.isVirtual = false) (slice : Slice) :
    optionsOf (sliced s slice spec) = (RuntimeOptions.parse (RuntimeOptions.extended
      (Invocation.valueOf spec.env Environment.runtimeOptions) .virtual)).mapError
        Failure.ofFault := by
  have hne : Environment.visibleDevices ≠ Environment.runtimeOptions := by decide
  have hn := RuntimeOptions.isVirtual_eq_false.mp hv
  have hp := optionsOf_eq_ok.mp ho
  unfold optionsOf sliced
  rw [Spec.env_addPoststop, Spec.env_withEnv]
  unfold Invocation.valueOf at hp ⊢
  rw [Environment.get?_addToken Environment.isName_runtimeOptions,
    Environment.get?_set_of_ne Environment.isName_visibleDevices hne, Option.getD_some]
  cases hg : Environment.get? spec.env Environment.runtimeOptions with
  | none => rfl
  | some text =>
    rw [hg, Option.getD_some] at hp
    rw [Option.elim_some, RuntimeOptions.withToken_of_parse hp hn, Option.getD_some,
      Option.getD_some]

/-- If the longer text can be read at all, it holds one option more. -/
theorem eq_add_of_sliced {spec : Spec} {options new : RuntimeOptions} {slice : Slice}
    (ho : optionsOf spec = .ok options) (hv : options.isVirtual = false)
    (hn : optionsOf (sliced s slice spec) = .ok new) : new = options.add .virtual := by
  rw [optionsOf_sliced ho hv] at hn
  by_cases hl : (RuntimeOptions.extended (Invocation.valueOf spec.env Environment.runtimeOptions)
      .virtual).utf8ByteSize ≤ Selection.maxInput
  · rw [RuntimeOptions.parse_extended (optionsOf_eq_ok.mp ho) hl] at hn
    cases hn
    rfl
  · rw [RuntimeOptions.parse_of_long (Nat.not_le.mp hl)] at hn
    cases hn

end NpuRuntime.Creation
