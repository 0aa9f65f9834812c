import Mathlib.Data.List.Induction
import NpuRuntime.Query.Library

/-! # Handles of the driver library
Calls reach the driver library in any order, and each may meet another host and another library.
After each of them the loader has been asked to let go of every handle it gave out but the one that
is held. None of the library's code runs before its file is trusted, and none but its start runs
unless it has started. -/
namespace NpuRuntime.Query.Library

/-- One call, with the host and the library that it meets. -/
structure Step where
  host : Host
  script : Script
  call : Call

namespace Step

def next (x : Step) (m : Memory) : Memory := (respond x.host x.script m x.call).2

/-- What the loader and the library are made to do by one call. -/
def made (x : Step) (m : Memory) : List Action := (x.next m).actions.drop m.actions.length

/-- The loader has the library, and its file is trusted: one of at most ten megabytes, below trusted
directories and behind no link. -/
def Trusted (x : Step) : Prop := ∃ file real, x.script.file = some file ∧
  Trust.validate x.host file
    { allowDirectory := false, checkParents := true, allowSymlink := false, sizeLimit := some 10 } =
      .ok real

/-- A call by which a trusted library starts. -/
structure Starts (x : Step) : Prop where
  call : x.call = .start
  symbol : hasSymbol x.script .start = true
  located : x.script.located = true
  trusted : x.Trusted
  status : signed x.script.startStatus = 0

end Step

/-- A function of the library other than its start. -/
def Action.isFunction : Action → Bool
  | .load | .unload | .start => false
  | _ => true

theorem Action.ne_of_isFunction {a : Action} (ha : a.isFunction = true) :
    a ≠ .load ∧ a ≠ .unload ∧ a ≠ .start := by
  refine ⟨?_, ?_, ?_⟩ <;> rintro rfl <;> cases ha

/-- What one call does: the actions it makes, and whether the library is held afterwards. -/
inductive Turn (x : Step) (held : Bool) : List Action → Bool → Prop
  | absent (call : x.call = .start) (file : x.script.file = none) : Turn x held [.load] held
  | refused (call : x.call = .start) (file : x.script.file.isSome = true)
      (unstarted : ¬ x.Starts) : Turn x held [.load, .unload] held
  | failed (call : x.call = .start) (trusted : x.Trusted)
      (status : signed x.script.startStatus ≠ 0) : Turn x held [.load, .start, .unload] held
  | started (starts : x.Starts) :
      Turn x held ([.load, .start] ++ if held then [.unload] else []) true
  | stopped (call : x.call = .shutdown) : Turn x held (if held then [.unload] else []) false
  | idle (start : x.call ≠ .start) (shutdown : x.call ≠ .shutdown) : Turn x held [] held
  | called {a : Action} (start : x.call ≠ .start) (shutdown : x.call ≠ .shutdown)
      (started : held = true) (function : a.isFunction = true) : Turn x held [a] held

/-- A call takes this turn from one memory to the next. -/
structure Taken (x : Step) (m : Memory) : Prop where
  turn : Turn x m.held (x.made m) (x.next m).held
  actions : (x.next m).actions = m.actions ++ x.made m

theorem taken_of_next {x : Step} {m : Memory} {made : List Action} {held : Bool}
    (hn : x.next m = ⟨held, m.actions ++ made⟩) (ht : Turn x m.held made held) : Taken x m := by
  have hmade : x.made m = made := by
    rw [Step.made, hn]
    exact List.drop_left
  constructor
  · rw [hmade, hn]
    exact ht
  · rw [hmade, hn]

theorem taken_start {x : Step} (hc : x.call = .start) (m : Memory) : Taken x m := by
  obtain ⟨h, script, c⟩ := x
  obtain rfl : c = .start := hc
  have hnext : (Step.mk h script .start).next m = (start h script m).2 := rfl
  rw [start] at hnext
  cases hfile : script.file with
  | none =>
    simp only [hfile] at hnext
    exact taken_of_next hnext (.absent rfl hfile)
  | some file =>
    have hgone (hn : ¬ (Step.mk h script .start).Starts)
        (hu : (Step.mk h script .start).next m = (m.act .load).act .unload) :
        Taken (Step.mk h script .start) m := by
      refine taken_of_next (hu.trans ?_) (.refused rfl (by simp [hfile]) hn)
      simp [Memory.act]
    simp only [hfile] at hnext
    by_cases hsymbol : hasSymbol script .start = true
    · by_cases hlocated : script.located = true
      · simp only [hsymbol, hlocated, Bool.not_true, Bool.false_eq_true, if_false] at hnext
        cases hvalid : Trust.validate h file (Policy.file.withSizeLimit sizeLimit) with
        | error e =>
          rw [hvalid] at hnext
          refine hgone (fun hs => ?_) hnext
          obtain ⟨other, real, hother, hreal⟩ := hs.trusted
          obtain rfl : file = other := Option.some.inj (hfile.symm.trans hother)
          exact absurd (hvalid.symm.trans hreal) (by simp)
        | ok real =>
          have htrusted : (Step.mk h script .start).Trusted := ⟨file, real, hfile, hvalid⟩
          rw [hvalid] at hnext
          by_cases hstatus : signed script.startStatus = 0
          · simp only [status, hstatus, if_true] at hnext
            refine taken_of_next (hnext.trans ?_)
              (.started ⟨rfl, hsymbol, hlocated, htrusted, hstatus⟩)
            cases hheld : m.held <;> simp [Memory.act, hheld]
          · simp only [status, hstatus, if_false] at hnext
            refine taken_of_next (hnext.trans ?_) (.failed rfl htrusted hstatus)
            simp [Memory.act]
      · exact hgone (fun hs => hlocated hs.located) (by simpa [hsymbol, hlocated] using hnext)
    · exact hgone (fun hs => hsymbol hs.symbol) (by simpa [hsymbol] using hnext)

theorem taken_stop {x : Step} (hc : x.call = .shutdown) (m : Memory) : Taken x m := by
  obtain ⟨h, script, c⟩ := x
  obtain rfl : c = .shutdown := hc
  refine taken_of_next ?_ (.stopped rfl)
  obtain ⟨held, actions⟩ := m
  change stop ⟨held, actions⟩ = _
  cases held with
  | true => rfl
  | false => simp [stop]

theorem taken_idle {x : Step} {m : Memory} (hs : x.call ≠ .start) (hd : x.call ≠ .shutdown)
    (hn : x.next m = m) : Taken x m :=
  taken_of_next (by simpa using hn) (.idle hs hd)

theorem taken_callInto {x : Step} {m : Memory} {c : Call} {e : Entry} {a : Action}
    {result : Unit → Response c} (hs : x.call ≠ .start) (hd : x.call ≠ .shutdown)
    (ha : a.isFunction = true) (hn : x.next m = (callInto x.script e a m result).2) :
    Taken x m := by
  rw [callInto] at hn
  by_cases hheld : m.held = true
  · by_cases hsymbol : hasSymbol x.script e = true
    · simp only [hheld, hsymbol, Bool.not_true, Bool.false_eq_true, if_false] at hn
      exact taken_of_next hn (.called hs hd hheld ha)
    · exact taken_idle hs hd (by simpa [hheld, hsymbol] using hn)
  · exact taken_idle hs hd (by simpa [hheld] using hn)

/-- Every call takes one of the turns. -/
theorem taken (x : Step) (m : Memory) : Taken x m := by
  obtain ⟨h, script, c⟩ := x
  cases c with
  | start => exact taken_start rfl m
  | shutdown => exact taken_stop rfl m
  | create c d t =>
    by_cases hlong : t.utf8ByteSize ≥ templateLength
    · exact taken_idle (by simp) (by simp) (congrArg Prod.snd (if_pos hlong))
    · exact taken_callInto (by simp) (by simp) rfl (congrArg Prod.snd (if_neg hlong))
  | chipInfo c d =>
    by_cases hout : c < 0 ∨ d < 0 ∨ d ≥ maxDevicesPerCard
    · exact taken_idle (by simp) (by simp) (congrArg Prod.snd (if_pos hout))
    · exact taken_callInto (by simp) (by simp) rfl (congrArg Prod.snd (if_neg hout))
  | _ => exact taken_callInto (by simp) (by simp) rfl rfl

/-- The memory after some calls, one behind the other. -/
def after (m : Memory) (steps : List Step) : Memory := steps.foldl (fun m x => x.next m) m

/-- All actions of some calls, each with the call that made it. -/
def history : Memory → List Step → List (Step × Action)
  | _, [] => []
  | m, x :: xs => (x.made m).map (x, ·) ++ history (x.next m) xs

theorem actions_after (m : Memory) (steps : List Step) :
    (after m steps).actions = m.actions ++ (history m steps).map Prod.snd := by
  induction steps generalizing m with
  | nil => simp [after, history]
  | cons x xs ih =>
    have hrest : after m (x :: xs) = after (x.next m) xs := rfl
    rw [hrest, ih, (taken x m).actions, history]
    simp [Function.comp_def]

theorem after_snoc (m : Memory) (steps : List Step) (x : Step) :
    after m (steps ++ [x]) = x.next (after m steps) := by
  rw [after, List.foldl_append]
  rfl

/-- The loader gave out a handle. -/
def gained (e : Step × Action) : Bool := e.2 = .load && e.1.script.file.isSome

/-- A handle was given back. -/
def returned (e : Step × Action) : Bool := e.2 = .unload

theorem Step.Trusted.isSome {x : Step} (hx : x.Trusted) : x.script.file.isSome = true := by
  obtain ⟨file, real, hfile, -⟩ := hx
  simp [hfile]

theorem Turn.balanced {x : Step} {held held' : Bool} {made : List Action}
    (ht : Turn x held made held') :
    (made.map (x, ·)).countP gained + held.toNat =
      (made.map (x, ·)).countP returned + held'.toNat := by
  cases ht with
  | absent _ hfile => simp [gained, returned, hfile]
  | refused _ hfile => simp [gained, returned, hfile, Nat.add_comm]
  | failed _ htrusted => simp [gained, returned, htrusted.isSome, Nat.add_comm]
  | started hstarts =>
    cases held <;> simp [gained, returned, hstarts.trusted.isSome]
  | stopped => cases held <;> simp [gained, returned]
  | idle => rfl
  | called _ _ _ hfunction =>
    obtain ⟨hload, hunload, -⟩ := Action.ne_of_isFunction hfunction
    simp [gained, returned, hload, hunload]

/-- Every handle is given back but the one that is held. -/
theorem balanced (m : Memory) (steps : List Step) :
    (history m steps).countP gained + m.held.toNat =
      (history m steps).countP returned + (after m steps).held.toNat := by
  induction steps generalizing m with
  | nil => rfl
  | cons x xs ih =>
    have hx := (taken x m).turn.balanced
    have hxs := ih (x.next m)
    have hrest : after m (x :: xs) = after (x.next m) xs := rfl
    rw [hrest, history, List.countP_append, List.countP_append]
    omega

/-- The library was started by this call, and has not been shut down or replaced since. -/
def HeldBy (steps : List Step) (k : Step) : Prop := ∃ before between,
  steps = before ++ k :: between ∧ k.Starts ∧ ∀ y ∈ between, y.call ≠ .shutdown ∧ ¬ y.Starts

/-- After one more call, the library is held by that call or still by an earlier one. -/
theorem exists_heldBy_snoc {steps : List Step} {x : Step} : (∃ k, HeldBy (steps ++ [x]) k) ↔
    x.Starts ∨ x.call ≠ .shutdown ∧ ∃ k, HeldBy steps k := by
  constructor
  · rintro ⟨k, before, between, hsteps, hstarts, hbetween⟩
    rcases between.eq_nil_or_concat with rfl | ⟨between, y, rfl⟩
    · obtain ⟨-, hx⟩ := List.append_inj' hsteps rfl
      obtain rfl : x = k := by simpa using hx
      exact .inl hstarts
    · rw [List.concat_eq_append] at hsteps hbetween
      rw [← List.cons_append, ← List.append_assoc] at hsteps
      obtain ⟨rfl, hx⟩ := List.append_inj' hsteps rfl
      obtain rfl : x = y := by simpa using hx
      exact .inr ⟨(hbetween x (by simp)).1, k, before, between, rfl, hstarts,
        fun y hy => hbetween y (by simp [hy])⟩
  · intro h
    by_cases hs : x.Starts
    · exact ⟨x, steps, [], rfl, hs, by simp⟩
    · obtain ⟨hd, k, before, between, rfl, hstarts, hbetween⟩ := h.resolve_left hs
      refine ⟨k, before, between ++ [x], by simp, hstarts, fun y hy => ?_⟩
      rcases List.mem_append.mp hy with hy | hy
      · exact hbetween y hy
      · obtain rfl := List.mem_singleton.mp hy
        exact ⟨hd, hs⟩

theorem Turn.held_iff {x : Step} {held held' : Bool} {made : List Action}
    (ht : Turn x held made held') :
    held' = true ↔ x.Starts ∨ x.call ≠ .shutdown ∧ held = true := by
  have hcall (hc : x.call ≠ .start) : ¬ x.Starts := fun hs => hc hs.call
  cases ht with
  | absent hstart hfile =>
    have hs : ¬ x.Starts := fun hs => by simpa [hfile] using hs.trusted.isSome
    simp [hs, hstart]
  | refused hstart _ hs => simp [hs, hstart]
  | failed hstart _ hstatus =>
    have hs : ¬ x.Starts := fun hs => hstatus hs.status
    simp [hs, hstart]
  | started hs => simp [hs]
  | stopped hstop => simp [hstop, hcall]
  | idle hstart hstop => simp [hcall hstart, hstop]
  | called hstart hstop => simp [hcall hstart, hstop]

/-- A library is held exactly if a call started it and none since has given it back. -/
theorem held_iff (steps : List Step) :
    (after {} steps).held = true ↔ ∃ k, HeldBy steps k := by
  induction steps using List.reverseRecOn with
  | nil => simp [after, HeldBy]
  | append_singleton steps x ih =>
    rw [after_snoc, (taken x (after {} steps)).turn.held_iff, ih, exists_heldBy_snoc]

theorem Turn.start_mem {x : Step} {held held' : Bool} {made : List Action}
    (ht : Turn x held made held') (hm : .start ∈ made) :
    x.call = .start ∧ x.Trusted ∧ ∃ later, made = .load :: .start :: later := by
  cases ht with
  | failed hstart htrusted => exact ⟨hstart, htrusted, _, rfl⟩
  | started hs => exact ⟨hs.call, hs.trusted, _, rfl⟩
  | absent => simp at hm
  | refused => simp at hm
  | stopped => cases held <;> simp at hm
  | idle => simp at hm
  | called _ _ _ hfunction =>
    exact absurd (List.mem_singleton.mp hm).symm (Action.ne_of_isFunction hfunction).2.2

theorem Turn.held_of_function {x : Step} {held held' : Bool} {made : List Action}
    (ht : Turn x held made held') {a : Action} (hm : a ∈ made) (ha : a.isFunction = true) :
    held = true := by
  obtain ⟨hload, hunload, hstart⟩ := Action.ne_of_isFunction ha
  cases ht with
  | called _ _ hheld => exact hheld
  | started => cases held <;> simp_all
  | stopped => cases held <;> simp_all
  | _ => simp_all

/-- The library starts when its start is called and reports success. -/
theorem Turn.starts_iff {x : Step} {held held' : Bool} {made : List Action}
    (ht : Turn x held made held') :
    x.Starts ↔ .start ∈ made ∧ signed x.script.startStatus = 0 := by
  constructor
  · intro hs
    refine ⟨?_, hs.status⟩
    cases ht with
    | started => simp
    | absent _ hfile => simpa [hfile] using hs.trusted.isSome
    | refused _ _ hn => exact absurd hs hn
    | failed => simp
    | stopped hstop => simp [hs.call] at hstop
    | idle hstart => exact absurd hs.call hstart
    | called hstart => exact absurd hs.call hstart
  · rintro ⟨hm, hstatus⟩
    cases ht with
    | started hs => exact hs
    | failed _ _ hn => exact absurd hstatus hn
    | called _ _ _ hfunction =>
      exact absurd (List.mem_singleton.mp hm).symm (Action.ne_of_isFunction hfunction).2.2
    | stopped => cases held <;> simp at hm
    | _ => simp at hm

/-- After every sequence of calls as many handles were given back as the loader gave out, but for
the one that is held; one is held exactly if some call started the library and none since shut it
down. In whatever is asked for next, the library is started only once its file is trusted, and any
other function of it is called only while a library is held whose start reported success. -/
theorem handles_trusted (steps : List Step) :
    (after {} steps).actions = (history {} steps).map Prod.snd ∧
    ((history {} steps).countP gained : Int) - (history {} steps).countP returned =
      (if (after {} steps).held then 1 else 0) ∧
    ((after {} steps).held = true ↔ ∃ k, HeldBy steps k) ∧
    ∀ x : Step, (x.Starts ↔ .start ∈ x.made (after {} steps) ∧ signed x.script.startStatus = 0) ∧
      ∀ a ∈ x.made (after {} steps),
        (a = .start → x.call = .start ∧ x.Trusted ∧
          ∃ later, x.made (after {} steps) = .load :: .start :: later) ∧
        (a.isFunction = true → ∃ k, HeldBy steps k) := by
  refine ⟨by simpa using actions_after {} steps, ?_, held_iff steps, fun x => ?_⟩
  · have hb := balanced {} steps
    cases hh : (after {} steps).held <;> simp [hh] at hb ⊢ <;> omega
  · have ht := (taken x (after {} steps)).turn
    refine ⟨ht.starts_iff, fun a ha => ⟨?_, fun hf => ?_⟩⟩
    · rintro rfl
      exact ht.start_mem ha
    · exact (held_iff steps).mp (ht.held_of_function ha hf)

end NpuRuntime.Query.Library
