import NpuRuntime.Proofs.Query.Asking
import NpuRuntime.Query.Scripted

/-! # Scripts of single replies
A service that has one reply for each question forgets what it was asked. -/
namespace NpuRuntime.Query.Scripted

variable {script : Script}

theorem result_respond {c : Call} {e : Entry} (he : entry? c = some e) {reply : Reply}
    (hr : lookUp (script.replies e) (key c) = [reply]) (counts : Counts) :
    ((service script).respond c counts).1.result = resolve c e reply := by
  cases c <;> cases he <;> simp only [service, entry?, hr, pick_singleton]

theorem forgets (hr : ∀ e k, ∃ reply, lookUp (script.replies e) k = [reply]) :
    (service script).Forgets := by
  intro c m n
  cases he : entry? c with
  | none =>
    cases c <;> first | rfl | cases he
  | some e =>
    obtain ⟨reply, hreply⟩ := hr e (key c)
    rw [result_respond he hreply, result_respond he hreply]

/-- The service that answers where nothing is written. -/
def standard : Service Counts := service ⟨defaultReplies⟩

theorem forgets_standard : standard.Forgets := by
  refine forgets fun e k => ?_
  by_cases hk : "*" = k
  · cases e <;> simp [defaultReplies, lookUp, hk]
  · cases e <;> simp [defaultReplies, lookUp, hk]

end NpuRuntime.Query.Scripted
