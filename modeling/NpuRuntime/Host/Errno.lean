/-! # Error numbers
What a system call reports when it fails. -/
namespace NpuRuntime

inductive Errno where
  | noEntry
  | noDevice
  | notExecutable
  | access
  | notDirectory
  | isDirectory
  | invalid
  | nameTooLong
  | linkLoop
  deriving DecidableEq, Repr

namespace Errno

def number : Errno → Nat
  | noEntry => 2
  | noDevice => 6
  | notExecutable => 8
  | access => 13
  | notDirectory => 20
  | isDirectory => 21
  | invalid => 22
  | nameTooLong => 36
  | linkLoop => 40

def symbol : Errno → String
  | noEntry => "ENOENT"
  | noDevice => "ENXIO"
  | notExecutable => "ENOEXEC"
  | access => "EACCES"
  | notDirectory => "ENOTDIR"
  | isDirectory => "EISDIR"
  | invalid => "EINVAL"
  | nameTooLong => "ENAMETOOLONG"
  | linkLoop => "ELOOP"

def text : Errno → String
  | noEntry => "No such file or directory"
  | noDevice => "No such device or address"
  | notExecutable => "Exec format error"
  | access => "Permission denied"
  | notDirectory => "Not a directory"
  | isDirectory => "Is a directory"
  | invalid => "Invalid argument"
  | nameTooLong => "File name too long"
  | linkLoop => "Too many levels of symbolic links"

def described (e : Errno) : String := e.text ++ " (os error " ++ toString e.number ++ ")"

/-- The form used for device nodes: symbol first, and a wording of its own for link loops. -/
def named (e : Errno) : String :=
  e.symbol ++ ": " ++ match e with
    | linkLoop => "Too many symbolic links encountered"
    | _ => e.text

theorem number_injective {a b : Errno} (h : a.number = b.number) : a = b := by
  cases a <;> cases b <;> first | rfl | simp [number] at h

end Errno

end NpuRuntime
