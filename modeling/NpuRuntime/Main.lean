import NpuRuntime.Command.Basic
import NpuRuntime.Json.Reader
import NpuRuntime.Snapshot.Driver

/-! # Trying the programs out
`runtime`, `hook` or `destroy` and its command line are given as arguments, and a snapshot of a
host on the standard input. The program runs on the snapshot and changes nothing else. -/
namespace NpuRuntime.Main

open Command

def program? : String → Option Program
  | "runtime" => some .runtime
  | "hook" => some .hook
  | "destroy" => some .destroy
  | _ => none

/-- Runs a program on a described host. -/
def tryOut (p : Program) (argv : List String) (v : Json) : Outcome :=
  let host := Snapshot.host v
  let library := ((v.member? "dcmi").map Snapshot.library).getD Snapshot.noLibrary
  run p (Query.Library.service host library) {}
    { host := host, argv := argv.map Utf8.bytesOf
      input := (Snapshot.bytes? v "stdin").getD [] }

end NpuRuntime.Main

open NpuRuntime in
def main (args : List String) : IO UInt32 := do
  let stdin ← IO.getStdin
  match args, Json.ofBytes (← stdin.readToEnd).toUTF8.toList with
  | name :: argv, .ok v =>
    match Main.program? name with
    | some p =>
      let outcome := Main.tryOut p argv v
      IO.print outcome.out
      IO.eprint outcome.err
      return outcome.code.toUInt32
    | none =>
      IO.eprintln ("unknown program " ++ name)
      return 2
  | _, _ =>
    IO.eprintln "usage: runtime|hook|destroy ARGUMENT... < snapshot"
    return 2
