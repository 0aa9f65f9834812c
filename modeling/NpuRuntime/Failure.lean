import NpuRuntime.Fault
import NpuRuntime.Json.Basic

/-! # Failures
A failure is a cause and what was being done when it arose, outermost first. Its message tells all
of this in one line. -/
namespace NpuRuntime

def Json.Fault.text : Json.Fault → String
  | malformed => "json syntax"
  | truncated => "json eof"
  | misshapen => "json data"

inductive ExecFault where
  | errno (e : Errno)
  | zeroByte
  deriving DecidableEq, Repr

def ExecFault.text : ExecFault → String
  | errno e => e.described
  | zeroByte => "nul byte found in provided data"

inductive Cause where
  | fault (f : Fault)
  /-- A path that was refused outside any selection or device. -/
  | rejected (r : Rejection)
  | document (f : Json.Fault)
  | system (e : Errno)
  | notText
  | noExecutable
  | badCommandLine
  | emptyBundle (flag : String)
  | noProcess
  | noRoot
  | noManager (name : String)
  | argumentCount (expected found : Nat)
  | badId (arg : String)
  | numberTooLarge
  | idTooLarge (id max : Nat)
  | noSearchList (names : List String)
  | noneFound (names : List String)
  | notStarted (program : String) (e : ExecFault)
  | noParent (program : String)
  | brokenArgument (bytes : List UInt8)
  deriving DecidableEq, Repr

namespace Cause

/-- What a cause says, one text per link of the chain. -/
def chain : Cause → List String
  | fault f => f.chain
  | rejected r => [r.text]
  | document f => [f.text]
  | system e => [e.described]
  | notText => ["stream did not contain valid UTF-8"]
  | noExecutable => ["no /proc/self/exe available. Is /proc mounted?"]
  | badCommandLine => ["command line check failed"]
  | emptyBundle flag => ["empty bundle dir after " ++ flag]
  | noProcess => ["invalid OCI config: empty process"]
  | noRoot => ["invalid OCI config: empty root"]
  | noManager name => ["failed to find " ++ name]
  | argumentCount expected found => [s!"expected {expected} arguments, got {found}"]
  | badId arg => ["invalid id " ++ Text.quoted arg]
  | numberTooLarge => ["number too large to fit in target type"]
  | idTooLarge id max => [s!"id {id} exceeds {max}"]
  | noSearchList names => ["PATH is empty, cannot look up " ++ Text.quotedList names]
  | noneFound names => ["failed to find any of " ++ Text.quotedList names ++ " in PATH"]
  | notStarted program e => ["exec " ++ program ++ " failed: " ++ e.text]
  | noParent program => ["executable has no parent directory: " ++ program]
  | brokenArgument bytes => ["non UTF-8 argument " ++ Text.quotedBytes bytes]

end Cause

inductive Stage where
  | arguments
  | currentDirectory
  | searchDirectory
  | specFile (path : String)
  | reading (path : String)
  | opening (path : String)
  | specText
  | stateText
  | hook (path : String)
  | destroyHelper (path : String)
  | mountHelper (path : String)
  | creatingSlice
  | destroyingSlice (slice : Nat)
  | addingDevices
  | readingId (arg : String)
  | containerConfig
  | mountConfig
  | options
  | listDirectory (path : String)
  | mountList (name : String)
  | readingList (path : String)
  | resolving (path : String)
  | ownPath
  | kernelLog
  deriving DecidableEq, Repr

def Stage.text : Stage → String
  | arguments => "failed to get args"
  | currentDirectory => "failed to get current working dir"
  | searchDirectory => "cannot get the current directory"
  | specFile p => "failed to modify spec file " ++ p
  | reading p => "cannot read " ++ p
  | opening p => "cannot open " ++ p
  | specText => "parse OCI config"
  | stateText => "failed to parse the container's state"
  | hook p => "invalid hook " ++ p
  | destroyHelper p => "invalid destroy helper " ++ p
  | mountHelper p => "invalid mount helper " ++ p
  | creatingSlice => "failed to create virtual device"
  | destroyingSlice slice => "failed to destroy vdevice " ++ toString slice
  | addingDevices => "failed to add devices"
  | readingId arg => "invalid id " ++ Text.quoted arg
  | containerConfig => "failed to get container config"
  | mountConfig => "failed to read configuration from config directory"
  | options => "failed to parse runtime options"
  | listDirectory p => "invalid configuration directory " ++ p
  | mountList name => "mount list " ++ name
  | readingList p => "read mount list " ++ p
  | resolving p => "failed to find realpath of " ++ p
  | ownPath => "cannot get the path of the running executable"
  | kernelLog => "Failed to initialize kernel log"

structure Failure where
  stages : List Stage
  cause : Cause
  deriving DecidableEq, Repr

namespace Failure

def of (c : Cause) : Failure := ⟨[], c⟩

def ofFault (f : Fault) : Failure := of (.fault f)

def ofRejection (r : Rejection) : Failure := of (.rejected r)

/-- The rejection of a path that the selection of devices or mounts depends on. -/
def ofPath (r : Rejection) : Failure := ofFault (.path r)

def within (s : Stage) (f : Failure) : Failure := { f with stages := s :: f.stages }

def ofSystem (s : Stage) (e : Errno) : Failure := ⟨[s], .system e⟩

def message (f : Failure) : String :=
  String.intercalate ": " (f.stages.map Stage.text ++ f.cause.chain)

end Failure

end NpuRuntime
