import NpuRuntime.Environment
import NpuRuntime.Query.Basic
import NpuRuntime.Selection.Devices

/-! # Asking for a slice
A container asks for a slice of one physical device by naming a template. -/
namespace NpuRuntime.Slice

def templates : List String := [
  "vir01", "vir02", "vir04", "vir08", "vir16", "vir04_3c", "vir02_1c", "vir04_4c_dvpp",
  "vir04_3c_ndvpp", "vir12_3c_32g", "vir12_3c_32g_m", "vir12_3c_32g_nm", "vir06_1c_16g",
  "vir03_hc_8g", "vir10_3c_16g", "vir10_3c_16g_m", "vir10_3c_16g_nm", "vir05_1c_8g",
  "vir10_3c_32g", "vir10_3c_32g_m", "vir10_3c_32g_nm", "vir05_1c_16g"]

structure Request where
  physical : Nat
  template : String
  deriving DecidableEq, Repr

namespace Request

def visible (env : Environment.Lines) : Except Fault Devices :=
  match Environment.get? env Environment.visibleDevices with
  | some text => Devices.parse text
  | none => .ok Devices.empty

/-- A request for a slice of the only selected device. -/
def ofDevices (template : String) (d : Devices) : Except Fault Request :=
  match d.ids with
  | [physical] =>
    if physical ≥ Query.maxPhysicalDevices then .error (.physicalIdOutOfRange physical)
    else .ok ⟨physical, template⟩
  | ids => .error (.sliceCount ids.length)

/-- The request in an environment; none if no template is named. -/
def ofEnv (env : Environment.Lines) : Except Fault (Option Request) :=
  match Environment.get? env Environment.sliceTemplate with
  | none => .ok none
  | some template =>
    if templates.contains template then do
      return some (← ofDevices template (← visible env))
    else .error (.invalidTemplate template)

end Request

end NpuRuntime.Slice
