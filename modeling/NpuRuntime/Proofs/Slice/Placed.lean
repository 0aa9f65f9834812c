import NpuRuntime.Proofs.Query.Enumeration
import NpuRuntime.Slice.Basic

/-! # Where a slice is made
A session that splits a device asks for one slice, on the device that its search ended at, or it
fails before it asks. -/
namespace NpuRuntime.Slice

open Query

variable {σ ω : Type} {svc : Service σ}

/-- The calls that ask for a slice, with their answers. -/
def creations (made : List Event) : List Event := made.filter fun e => e.call.isCreate

theorem creations_eq_nil {made : List Event} :
    creations made = [] ↔ ∀ e ∈ made, e.call.isCreate = false := by
  simp [creations]

theorem creations_append (first second : List Event) :
    creations (first ++ second) = creations first ++ creations second :=
  List.filter_append first second

theorem creations_events {physical : Nat} (f : Found physical) : creations f.events = [] :=
  creations_eq_nil.mpr fun _ he => Call.isCreate_of_isQuestion (f.isQuestion_of_mem_events he)

/-- The call for a slice of a device that was found. -/
def creation (q : Request) (f : Found q.physical) (answer : Except Fault Nat) : Event :=
  ⟨.create f.card f.device q.template, answer⟩

/-- The search fails without asking for a slice, or one slice of the device that was found is asked
for, and the answer to that is the result. -/
theorem split_cases (svc : Service σ) (q : Request) (r : Run σ ω) :
    ∃ made, (outcome (split svc q) r).2.trace = r.trace ++ made ∧
      ((creations made = [] ∧ ∃ e, (outcome (split svc q) r).1 = .error e) ∨
        ∃ (f : Found q.physical) (answer : Except Fault Nat),
          made = f.events ++ [creation q f answer] ∧
          (outcome (split svc q) r).1 = answer.map (Slice.mk f.card f.device)) := by
  obtain ⟨asked, hasked, hnone⟩ := Asks.within (F := Frame.calls fun c => c.isCreate = false)
    (fun _ hc => Frame.admits_calls svc (Call.isCreate_of_isQuestion hc))
    (Asks.findDevice q.physical : Asks svc (findDevice svc q.physical : Act σ ω Fault _)) r
  unfold split
  rw [outcome_bind]
  rcases hsearch : outcome (findDevice svc q.physical) r with ⟨e | ⟨card, device⟩, t⟩
  · rw [hsearch] at hasked
    exact ⟨asked, hasked, .inl ⟨creations_eq_nil.mpr hnone, e, rfl⟩⟩
  · obtain ⟨f, rfl, rfl, hf⟩ := findDevice_eq_ok hsearch
    have hask := outcome_ask (ω := ω) svc (.create f.card f.device q.template) t
    have htrace := trace_answered t svc (.create f.card f.device q.template)
    rw [hf, List.append_assoc] at htrace
    dsimp only
    rw [outcome_bind, hask]
    generalize (svc.respond (.create f.card f.device q.template) t.memory).1.result = answer
      at htrace ⊢
    refine ⟨f.events ++ [creation q f answer], ?_, .inr ⟨f, answer, rfl, ?_⟩⟩
    · cases answer <;> exact htrace
    · cases answer <;> rfl

/-- So does its session, which begins with a start and ends with a shutdown. -/
theorem create_cases (svc : Service σ) (q : Request) (r : Run σ ω) :
    ∃ made, (outcome (create svc q) r).2.trace = r.trace ++ made ∧
      ((creations made = [] ∧ ∃ e, (outcome (create svc q) r).1 = .error e) ∨
        ∃ (f : Found q.physical) (answer : Except Fault Nat) (closing : Event),
          made = ⟨.start, .ok ()⟩ :: f.events ++ [creation q f answer, closing] ∧
          closing.call = .shutdown ∧
          (outcome (create svc q) r).1 = answer.map (Slice.mk f.card f.device)) := by
  have hopen := trace_answered r svc .start
  unfold create
  rw [outcome_withSession]
  rcases hstart : (svc.respond .start r.memory).1.result with e | ⟨⟩
  · exact ⟨_, hopen, .inl ⟨rfl, e, rfl⟩⟩
  · rw [hstart] at hopen
    obtain ⟨made, htrace, hcases⟩ := split_cases svc q ((r.answered svc .start).noted [openedNote])
    let inside := outcome (split svc q) ((r.answered svc .start).noted [openedNote])
    have hclose := trace_answered inside.2 svc .shutdown
    rw [htrace, trace_noted, hopen] at hclose
    generalize (svc.respond .shutdown inside.2.memory).1.result = answer at hclose
    let closing : Event := ⟨.shutdown, answer⟩
    refine ⟨⟨.start, .ok ()⟩ :: (made ++ [closing]), ?_, ?_⟩
    · dsimp only
      rw [trace_noted, hclose]
      simp [closing]
    · obtain ⟨hnone, e, he⟩ | ⟨f, answer, rfl, hresult⟩ := hcases
      · refine .inl ⟨?_, e, he⟩
        change creations (made ++ [closing]) = []
        rw [creations_append, hnone]
        rfl
      · exact .inr ⟨f, answer, closing, by simp, rfl, hresult⟩

end NpuRuntime.Slice
