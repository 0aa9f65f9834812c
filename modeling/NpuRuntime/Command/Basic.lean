import NpuRuntime.Command.KernelLog
import NpuRuntime.Creation.Prepare
import NpuRuntime.Launch.Exec
import NpuRuntime.Launch.Search
import NpuRuntime.Slice.Destruction

/-! # The three programs
The runtime prepares a container and then hands its command line to the real runtime. The hook
starts the mount helper for a container about to run. The destroy helper frees a slice. A program
that cannot go on says why, in the log and on its error output, and exits with 1. -/
namespace NpuRuntime.Command

open Query NpuRuntime.Bundle Creation

inductive Program where
  | runtime
  | hook
  | destroy
  deriving DecidableEq, Repr

structure Start where
  host : Host
  argv : List (List UInt8)
  input : List UInt8 := []
  deriving DecidableEq, Repr

structure Outcome where
  code : Nat
  out : String
  err : String
  host : Host
  deriving DecidableEq, Repr

structure Refusal where
  what : String
  failure : Failure
  deriving DecidableEq, Repr

def Refusal.message (r : Refusal) : String := r.what ++ ": " ++ r.failure.message

inductive Finish where
  | done
  | replaced (path : String) (args : List String)
  deriving DecidableEq, Repr

variable {σ : Type}

abbrev ProgramAct (σ α : Type) := Act σ Host Refusal α

def must {α : Type} (what : String) (a : Act σ Host Failure α) : ProgramAct σ α :=
  mapFailure (Refusal.mk what) a

def demand {α : Type} (what : String) (r : Except Failure α) : ProgramAct σ α :=
  must what (MonadExcept.ofExcept r)

def readArgument (bytes : List UInt8) : Except Failure String :=
  match Utf8.text? bytes with
  | some s => .ok s
  | none => .error (.of (.brokenArgument bytes))

def replace (what : String) (i : Invocation) : ProgramAct σ Finish := do
  let h ← current
  return .replaced (← must what (Launch.exec h i)) i.args

def readArguments (start : Start) : ProgramAct σ (List String) :=
  demand "config::argv()" (start.argv.mapM readArgument)

def runRuntime (s : Settings) (svc : Service σ) (start : Start) : ProgramAct σ Finish := do
  let who := caller start.host
  note ⟨.info, .runtime, who ++ " ascend docker runtime starting, try to setup container"⟩
  let argv ← readArguments start
  demand "ascend docker runtime args check failed" (checkArguments argv)
  match ← must "docker runtime failed" (prepare s svc argv) with
  | .passThrough => pure ()
  | .changed file => note ⟨.info, .runtime, who ++ " spec " ++ file ++ " prepared"⟩
  let runtime ← must "execute::lookup_runtime_in_env(&config.runtime_names)"
    (Launch.findRuntimeInPath (← current) s.runtimes)
  replace "failed to exec runtime" ⟨runtime.text, argv.drop 1⟩

def runHook (s : Settings) (start : Start) : ProgramAct σ Finish := do
  let who := caller start.host
  note ⟨.info, .hookProgram, who ++ " ascend docker hook starting, try to setup container"⟩
  let argv ← readArguments start
  demand "ascend docker hook args check failed" (checkArguments argv)
  let state ← demand "hook::read_state(std::io::stdin().lock())" (State.ofBytes start.input)
  match ← must "ascend docker hook failed" (Invocation.prepare start.host s state) with
  | none => return .done
  | some i =>
    note ⟨.info, .hookProgram, who ++ " ascend docker hook success, will start cli"⟩
    replace "failed to exec mount helper" i

def runDestroy (svc : Service σ) (start : Start) : ProgramAct σ Finish := do
  let argv ← readArguments start
  note ⟨.info, .destroyProgram,
    caller start.host ++ " ascend docker destroy " ++ String.intercalate " " (argv.drop 1)⟩
  must "destroy vdevice failed" (Slice.runDestruction svc argv)
  return .done

def body (p : Program) (s : Settings) (svc : Service σ) (start : Start) : ProgramAct σ Finish :=
  match p with
  | .runtime => runRuntime s svc start
  | .hook => runHook s start
  | .destroy => runDestroy svc start

def reportCode : Nat := 7

/-- A reporter shows the variables with this stem. -/
def reportedStem : String := "PROBE_"

def report (h : Host) (path : String) (args : List String) : String :=
  let arguments := (path :: args).mapIdx fun i a => s!"argv[{i}]=" ++ a ++ "\n"
  let reported := (h.environment.filter fun v => (Text.after? reportedStem v.1).isSome).map fun v =>
    "env " ++ v.1 ++ "=" ++ v.2 ++ "\n"
  String.join (arguments ++ reported)

/-- How a program ended that got as far as `result`. -/
def conclude (h : Host) (warning : String) : Except Refusal Finish → Outcome
  | .error r => ⟨1, "", warning ++ r.message ++ "\n", h⟩
  | .ok .done => ⟨0, "", warning, h⟩
  | .ok (.replaced path args) => ⟨reportCode, report h path args, warning, h⟩

def refusalNotes : Except Refusal Finish → List Record
  | .error r => [⟨.error, .failures, r.message⟩]
  | .ok _ => []

/-- Runs a program with these settings. Without a log device it runs unlogged. A program writes each
record as it makes it; here all are written, in that order, once the body has run. Only a body that
reads the file behind the log device could tell. -/
def runWith (p : Program) (s : Settings) (svc : Service σ) (memory : σ) (start : Start) : Outcome :=
  let (result, run) := (body p s svc start).run { memory := memory, work := start.host }
  match KernelLog.attach start.host s.level with
  | .error e =>
    let stages := [Stage.kernelLog.text, e.described, e.described]
    conclude run.work (String.intercalate ": " stages ++ "\n") result
  | .ok k =>
    let records := KernelLog.opening s.level :: run.log ++ refusalNotes result
    conclude (k.write run.work records) "" result

/-- Runs a program; its settings come from the host. -/
def run (p : Program) (svc : Service σ) (memory : σ) (start : Start) : Outcome :=
  match Settings.ofHost start.host with
  | .error f => conclude start.host "" (.error ⟨"Config::from_env()", f⟩)
  | .ok s => runWith p s svc memory start

end NpuRuntime.Command
