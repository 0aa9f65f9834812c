import NpuRuntime.Settings

/-! # The kernel's log buffer
Records go to a device that is opened once. What passes the filter is written one record a line,
each with its priority in front. -/
namespace NpuRuntime.Command

def logDevice : String := "/dev/kmsg"

/-- A variable that can only narrow the filter. -/
def narrowingVariable : String := "KERNLOG_LEVEL"

structure KernelLog where
  file : Path
  filter : Filter
  narrowed : Filter
  deriving DecidableEq, Repr

namespace KernelLog

def allows (k : KernelLog) (r : Record) : Bool :=
  k.filter.allows r.level && k.narrowed.allows r.level

def line (r : Record) : String :=
  "<" ++ toString r.level.priority ++ ">" ++ r.source.name ++ ": " ++ r.text ++ "\n"

def attach (h : Host) (level : Filter) : Except Errno KernelLog := do
  let file ← h.writable (Route.read logDevice)
  let narrowed := ((h.value? narrowingVariable).bind Filter.named?).getD (some .trace)
  return ⟨file, level, narrowed⟩

/-- The first record says what is logged. -/
def opening (level : Filter) : Record := ⟨.debug, .logging, "log level: " ++ level.name⟩

/-- Writes records from the start of the file; what they do not cover stays. A device passes them
on and keeps nothing. -/
def write (k : KernelLog) (h : Host) (records : List Record) : Host :=
  let new := Utf8.bytesOf (String.join ((records.filter k.allows).map line))
  let laid (old : List UInt8) : Host :=
    if new.isEmpty then h else h.store k.file (new ++ old.drop new.length)
  match (h.files.node? k.file).map Node.kind with
  | some (.file content) => laid content.toList
  | some .reporter => laid []
  | _ => h

end KernelLog

/-- Where the terminal of the standard input is linked. -/
def inputLink : String := "/proc/self/fd/0"

def maxTerminal : Nat := 256

/-- Who started this process, and from which terminal. -/
def caller (h : Host) : String :=
  let terminal := match h.canonical (Route.read inputLink) with
    | .ok p => if Text.isPlain p.text 0 maxTerminal "/:" then p.text else "unknown"
    | .error _ => "unknown"
  "uid: " ++ toString h.user ++ " tty: " ++ terminal

end NpuRuntime.Command
