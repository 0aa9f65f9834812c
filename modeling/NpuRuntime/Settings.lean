import NpuRuntime.Failure
import NpuRuntime.Host.Basic
import NpuRuntime.Log

/-! # Settings
Where the helper programs, the device nodes and the mount lists are, which runtimes to look for,
and what to log. -/
namespace NpuRuntime

structure Settings where
  programs : String
  devices : String
  /-- The trusted directory of mount lists. -/
  lists : String
  runtimes : List String
  level : Filter
  deriving DecidableEq, Repr

namespace Settings

def hookName : String := "ascend-docker-hook"
def destroyName : String := "ascend-docker-destroy"
def mountHelperName : String := "ascend-docker-cli"
def listDirectory : String := "/etc/ascend-docker-runtime.d"
def deviceDirectory : String := "/dev"
def runtimeCandidates : List String := ["docker-runc", "runc"]

/-- The variable that holds the log level; a container cannot set it. -/
def levelVariable : String := "ASCEND_DOCKER_RUNTIME_LOG"

def ownLink : String := "/proc/self/exe"

def program (s : Settings) (name : String) : String := PathText.join s.programs name

def hook (s : Settings) : String := s.program hookName

def destroyHelper (s : Settings) : String := s.program destroyName

def mountHelper (s : Settings) : String := s.program mountHelperName

def device (s : Settings) (name : String) : String := PathText.join s.devices name

/-- Helpers stand beside the executable at `executable`. -/
def ofExecutable (h : Host) (executable : String) : Except Failure Settings :=
  match PathText.parent? executable with
  | none => .error (.of (.noParent executable))
  | some programs => .ok
    { programs
      devices := deviceDirectory
      lists := listDirectory
      runtimes := runtimeCandidates
      level := ((h.value? levelVariable).map Filter.ofText).getD Filter.default }

def ofHost (h : Host) : Except Failure Settings :=
  match h.linkTarget (Route.read ownLink) with
  | .ok executable => ofExecutable h executable
  | .error .noEntry => .error ⟨[.ownPath], .noExecutable⟩
  | .error e => .error (.ofSystem .ownPath e)

end Settings

end NpuRuntime
