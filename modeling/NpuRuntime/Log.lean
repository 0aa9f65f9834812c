import NpuRuntime.Text.Basic

/-! # Log records -/
namespace NpuRuntime

inductive Level where
  | error
  | warn
  | info
  | debug
  | trace
  deriving DecidableEq, Repr

namespace Level

/-- Lower ranks are more severe. -/
def rank : Level → Nat
  | error => 1
  | warn => 2
  | info => 3
  | debug => 4
  | trace => 5

def name : Level → String
  | error => "ERROR"
  | warn => "WARN"
  | info => "INFO"
  | debug => "DEBUG"
  | trace => "TRACE"

/-- The priority of a record in the kernel's buffer. -/
def priority (l : Level) : Nat := l.rank + 2

end Level

/-- The least severe level that is kept; none keeps nothing. -/
abbrev Filter := Option Level

namespace Filter

def allows (f : Filter) (l : Level) : Bool :=
  match f with
  | none => false
  | some most => l.rank ≤ most.rank

def name : Filter → String
  | none => "OFF"
  | some l => l.name

def default : Filter := some .info

/-- Level names in any ASCII case, padding ignored. Unknown names mean the default. -/
def ofText (s : String) : Filter :=
  match String.ofList ((Text.trim s).toList.map Char.toLower) with
  | "off" | "0" => none
  | "error" => some .error
  | "warn" => some .warn
  | "info" => some .info
  | "debug" => some .debug
  | "trace" => some .trace
  | _ => default

/-- A filter by its exact name in any ASCII case. -/
def named? (s : String) : Option Filter :=
  match String.ofList (s.toList.map Char.toLower) with
  | "off" => some none
  | "error" => some (some .error)
  | "warn" => some (some .warn)
  | "info" => some (some .info)
  | "debug" => some (some .debug)
  | "trace" => some (some .trace)
  | _ => none

end Filter

/-- Which part of the program a record comes from. -/
inductive Source where
  | runtime
  | hookProgram
  | destroyProgram
  | environment
  | query
  | library
  | execution
  | hook
  | logging
  | failures
  | mounts
  | mutation
  | slices
  deriving DecidableEq, Repr

/-- The name under which the kernel's buffer shows it. -/
def Source.name : Source → String
  | runtime => "ascend_docker_runtime"
  | hookProgram => "ascend_docker_hook"
  | destroyProgram => "ascend_docker_destroy"
  | environment => "ascend_docker_runtime::environ"
  | query => "ascend_docker_runtime::dcmi"
  | library => "ascend_docker_runtime::dcmi::ffi"
  | execution => "ascend_docker_runtime::execute"
  | hook => "ascend_docker_runtime::hook"
  | logging => "ascend_docker_runtime::logging"
  | failures => "ascend_docker_runtime::macros"
  | mounts => "ascend_docker_runtime::mount_config"
  | mutation => "ascend_docker_runtime::shim"
  | slices => "ascend_docker_runtime::vdevice"

structure Record where
  level : Level
  source : Source
  text : String
  deriving DecidableEq, Repr

end NpuRuntime
