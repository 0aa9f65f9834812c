import NpuRuntime.Bundle.Printer
import NpuRuntime.Creation.Arguments
import NpuRuntime.Creation.Mutation

/-! # Preparing a container
On `create` the document of the bundle is read, changed and written back in one go. Nothing is
written unless every change succeeds. -/
namespace NpuRuntime.Creation

open Query NpuRuntime.Bundle

variable {σ : Type}

abbrev HostAct (σ α : Type) := Act σ Host Failure α

/-- Changes the document at a trusted path. -/
def changeAt (s : Settings) (svc : Service σ) (file : Path) : HostAct σ Unit := do
  let h ← current
  let spec ← MonadExcept.ofExcept (Spec.load h file)
  let ((), spec) ← workingOn spec (mutate h s svc)
  match h.writable (Route.ofPath file) with
  | .error e => throw (.ofSystem (.opening file.text) e)
  | .ok target =>
    update (·.store target (Utf8.bytesOf spec.text))
    note ⟨.info, .mutation, "spec " ++ file.text ++ " updated"⟩

def documentPolicy : Policy := Policy.file.withSymlinks

def change (s : Settings) (svc : Service σ) (file : String) : HostAct σ Unit := do
  let checked := Trust.validate (← current) file documentPolicy
  changeAt s svc (← MonadExcept.ofExcept (checked.mapError Failure.ofRejection))

def changeBytes (s : Settings) (svc : Service σ) (file : List UInt8) : HostAct σ Unit := do
  let checked := Trust.validateBytes (← current) file documentPolicy
  changeAt s svc (← MonadExcept.ofExcept (checked.mapError Failure.ofRejection))

inductive Outcome where
  | passThrough
  | changed (file : String)
  deriving DecidableEq, Repr

/-- The bundle that a command line names, or the current directory. -/
def bundleOf (h : Host) (a : Arguments) : Except Failure String :=
  match a.bundle, h.cwd with
  | some bundle, _ => .ok bundle
  | none, some cwd => .ok cwd.text
  | none, none => .error (.ofSystem .currentDirectory .noEntry)

/-- Prepares the container that a command line creates; other commands pass through. -/
def prepare (s : Settings) (svc : Service σ) (argv : List String) : HostAct σ Outcome := do
  let args ← MonadExcept.ofExcept ((Arguments.parse argv).mapError (Failure.within .arguments))
  if !args.create then
    note ⟨.debug, .mutation, "not a create command, passing through"⟩
    return .passThrough
  let bundle ← MonadExcept.ofExcept (bundleOf (← current) args)
  let file := PathText.join bundle State.documentName
  mapFailure (Failure.within (.specFile file)) (change s svc file)
  return .changed file

end NpuRuntime.Creation
