import NpuRuntime.Bundle.Reader
import NpuRuntime.Bundle.State
import NpuRuntime.Mount.List
import NpuRuntime.Selection.Mounts
import NpuRuntime.Selection.Options
import NpuRuntime.Settings

/-! # The mount helper
The hook before a container's start reads the container's document again and turns it into the
command line of the program that does the mounting. -/
namespace NpuRuntime

open Query NpuRuntime.Bundle

/-- The largest number of environment lines and of prestart hooks. -/
def maxItems : Nat := 65535

/-- A program and its arguments. -/
structure Invocation where
  program : String
  args : List String
  deriving DecidableEq, Repr

structure Container where
  pid : Int
  rootfs : String
  env : Environment.Lines
  deriving DecidableEq, Repr

/-- Reads the document behind a trusted path. -/
def Bundle.Spec.load (h : Host) (file : Path) : Except Failure Spec :=
  match h.read (Route.ofPath file) with
  | .error e => .error (.ofSystem (.reading file.text) e)
  | .ok content => Spec.ofBytes content.toList

namespace Container

/-- What the hook needs of a document. A relative root lies inside the bundle. -/
def ofSpec (s : State) (spec : Spec) : Except Failure Container :=
  if spec.env.length > maxItems then
    .error (.ofFault (.tooMany .environmentEntries spec.env.length maxItems))
  else .ok ⟨s.pid, PathText.join s.bundle spec.root.path, spec.env⟩

/-- The container whose bundle a state names. -/
def ofState (h : Host) (s : State) : Except Failure Container := do
  let file := PathText.join s.bundle State.documentName
  let real ← (Trust.validate h file Policy.file.withSymlinks).mapError Failure.ofRejection
  ofSpec s (← Spec.load h real)

end Container

namespace Invocation

variable {σ ω : Type}

/-- Each value stands behind the flag that says what it is. -/
def mountArguments (c : Container) (m : Mounts) (o : RuntimeOptions) : List String :=
  ["--pid", toString c.pid, "--rootfs", c.rootfs] ++
    m.files.flatMap (fun f => ["--mount-file", f]) ++
    m.directories.flatMap (fun d => ["--mount-dir", d]) ++
    if o.isEmpty then [] else ["--options", o.text]

/-- The value of a variable, or an empty text. -/
def valueOf (env : Environment.Lines) (name : String) : String :=
  (Environment.get? env name).getD ""

/-- The helper's command line for a container with visible devices. -/
def ofContainer (h : Host) (s : Settings) (c : Container) : Act σ ω Failure Invocation := do
  let names ← MonadExcept.ofExcept <|
    (MountNames.parse (valueOf c.env Environment.runtimeMounts)).mapError Failure.ofFault
  let mounts ← mapFailure (Failure.within .mountConfig) (Mounts.readLists h s.lists names)
  let options ← MonadExcept.ofExcept <|
    (RuntimeOptions.parse (valueOf c.env Environment.runtimeOptions)).mapError fun f =>
      (Failure.ofFault f).within .options
  let _ ← MonadExcept.ofExcept <| (Trust.realFile h s.mountHelper).mapError fun r =>
    (Failure.ofRejection r).within (.mountHelper s.mountHelper)
  note ⟨.info, .hook, s!"mount lists {Text.quotedList names}, {mounts.files.length} files, " ++
    s!"{mounts.directories.length} dirs"⟩
  return ⟨s.mountHelper, mountArguments c mounts options⟩

/-- The helper's command line; none if the container shows no devices. -/
def prepare (h : Host) (s : Settings) (state : State) : Act σ ω Failure (Option Invocation) := do
  let c ← MonadExcept.ofExcept <|
    (Container.ofState h state).mapError (Failure.within .containerConfig)
  if valueOf c.env Environment.visibleDevices = "" then
    note ⟨.debug, .hook, "no visible devices, nothing to mount"⟩
    return none
  else return some (← ofContainer h s c)

end Invocation

end NpuRuntime
