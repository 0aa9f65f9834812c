import NpuRuntime.Bundle.Device
import NpuRuntime.Fault
import NpuRuntime.Host.Basic
import NpuRuntime.Text.Utf8

/-! # Device nodes of the host -/
namespace NpuRuntime.Bundle.Device

/-- The device that a node is, if it is one. The path inside the container is the host's. -/
def ofNode (path : String) (n : Node) : Except Fault Device :=
  let device (kind : String) (major minor : Nat) : Device :=
    { path := path, kind := kind, major := some major, minor := some minor
      fileMode := some (n.mode &&& 0o7777), uid := some n.uid, gid := some n.gid }
  match n.kind with
  | .charDevice major minor => .ok (device "c" major minor)
  | .blockDevice major minor => .ok (device "b" major minor)
  | .fifo => .ok (device "p" 0 0)
  | _ => .error (.deviceNode path .noDevice)

/-- The device at a host path, links followed. -/
def ofHost (h : Host) (path : String) : Except Fault Device :=
  if path.toList.contains (Char.ofNat 0) then .error (.deviceNode path (.errno .invalid))
  else match h.node (Route.read path) with
    | .error e => .error (.deviceNode path (.errno e))
    | .ok n => ofNode path n

/-- A path whose broken characters each stand as so many zero characters. No file has such a name,
so the path leads nowhere unless it fails before. -/
def standIn (bytes : List UInt8) : String :=
  String.ofList <| (Utf8.decode bytes).flatMap fun
    | .char c => [c]
    | .broken bs => bs.map fun _ => Char.ofNat 0

def ofHostBytes (h : Host) (bytes : List UInt8) : Except Fault Device :=
  match Utf8.text? bytes with
  | some path => ofHost h path
  | none =>
    let shown := Utf8.lenient bytes
    if bytes.contains 0 then .error (.deviceNode shown (.errno .invalid))
    else match h.node (Route.read (standIn bytes)) with
      | .error e => .error (.deviceNode shown (.errno e))
      | .ok n => ofNode shown n

end NpuRuntime.Bundle.Device
