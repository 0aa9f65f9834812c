import NpuRuntime.Bundle.HostNode
import NpuRuntime.Mount.Helper
import NpuRuntime.Slice.Basic

/-! # Changing a container's document
The document is changed step by step: the hook that mounts, a slice if one is asked for, the
visible devices, the nodes that manage them, and the marker of the device plugin. -/
namespace NpuRuntime.Creation

open Query NpuRuntime.Bundle

variable {σ : Type}

abbrev Edit (σ α : Type) := Act σ Spec Failure α

def containerDirectory : String := "/dev"
def deviceName : String := "davinci"
def sliceName : String := "vdavinci"
def managerName : String := "davinci_manager"
def dockerManagerName : String := "davinci_manager_docker"

/-- Nodes of 310B boards. Those that are not there are left out. -/
def boardNames : List String := [
  "svm0", "ts_aisle", "upgrade", "sys", "vdec", "vpc", "pngd", "venc", "dvpp_cmdlist", "log_drv",
  "acodec", "ai", "ao", "vo", "hdmi"]

def commonNames : List String := ["devmm_svm", "hisi_hdc"]

/-- Products that have no common nodes. -/
def productsWithoutCommon : List String := ["Atlas 200I SoC A1", "Atlas 200 Model 3000"]

def checkCount (what : Counted) (count : Nat) : Edit σ Unit :=
  if count > maxItems then throw (.ofFault (.tooMany what count maxItems)) else return

/-- Adds the hook before a container's start, unless one of that name is there. -/
def addHook (h : Host) (s : Settings) : Edit σ Unit := do
  let _ ← MonadExcept.ofExcept <| (Trust.realFile h s.hook).mapError fun r =>
    (Failure.ofRejection r).within (.hook s.hook)
  let prestart := (← current).prestart
  checkCount .prestartHooks prestart.length
  if prestart.any fun hook => Text.holds hook.path Settings.hookName then
    note ⟨.debug, .mutation, "prestart hook already present"⟩
  else update (·.addPrestart (Hook.start s.hook []))

def optionsOf (spec : Spec) : Except Failure RuntimeOptions :=
  (RuntimeOptions.parse (Invocation.valueOf spec.env Environment.runtimeOptions)).mapError
    Failure.ofFault

/-- Makes a slice the only visible device, and adds the hook that frees it. -/
def addSliceTo (s : Settings) (slice : Slice) : Edit σ Unit := do
  let env := Environment.set (← current).env Environment.visibleDevices (toString slice.slice)
  note (Environment.setNote Environment.visibleDevices (toString slice.slice))
  let (env, changed) := Environment.addToken env Environment.runtimeOptions
    RuntimeOption.virtual.name
  noteAll (Environment.addNotes changed)
  update fun spec => (spec.withEnv env).addPoststop (Hook.start s.destroyHelper slice.arguments)

/-- Splits a device for a container that asks for a slice and does not have one yet. -/
def addSlice (h : Host) (s : Settings) (svc : Service σ) : Edit σ Unit := do
  let spec ← current
  if (← MonadExcept.ofExcept (optionsOf spec)).isVirtual then return
  match ← MonadExcept.ofExcept ((Slice.Request.ofEnv spec.env).mapError Failure.ofFault) with
  | none => return
  | some request =>
    let _ ← MonadExcept.ofExcept <| (Trust.realFile h s.destroyHelper).mapError fun r =>
      (Failure.ofRejection r).within (.destroyHelper s.destroyHelper)
    addSliceTo s (← mapFailure Failure.ofFault (Slice.create svc request))

def addNode (h : Host) (host name : String) : Act σ Spec Fault Unit := do
  let device ← MonadExcept.ofExcept (Device.ofHost h host)
  let device := { device with path := containerDirectory ++ "/" ++ name }
  let spec ← current
  update (·.addDevice device)
  if !spec.hasDevice device.path then
    note ⟨.debug, .mutation, "added " ++ host ++ " as " ++ name⟩

def addNamed (h : Host) (s : Settings) (name : String) : Act σ Spec Fault Unit :=
  addNode h (s.device name) name

def tryNamed (h : Host) (s : Settings) (name : String) : Edit σ Unit := do
  match ← attempt (addNamed h s name) with
  | .ok () => return
  | .error f => note ⟨.warn, .mutation, "failed to add " ++ name ++ ": " ++ f.text⟩

def findManager (h : Host) (s : Settings) : Except Failure String :=
  match ([dockerManagerName, managerName].map s.device).find? fun p => h.exists? (Route.read p) with
  | some path => .ok path
  | none => .error (.of (.noManager managerName))

def addBoardNodes (h : Host) (s : Settings) : Edit σ Unit := do
  boardNames.forM (tryNamed h s)
  let manager ← MonadExcept.ofExcept (findManager h s)
  mapFailure Failure.ofFault (addNode h manager managerName)

def addCommonNodes (h : Host) (s : Settings) (svc : Service σ) : Edit σ Unit := do
  mapFailure Failure.ofFault (addNamed h s managerName)
  let product ← mapFailure Failure.ofFault (product svc)
  note ⟨.info, .mutation, "product type: " ++ Text.quoted product⟩
  if productsWithoutCommon.contains product then return
  commonNames.forM fun name => mapFailure Failure.ofFault (addNamed h s name)

def addManagerNodes (h : Host) (s : Settings) (svc : Service σ) : Edit σ Unit :=
  withSession svc Failure.ofFault do
    let chip ← mapFailure Failure.ofFault (chipName svc)
    let family := ChipFamily.ofName chip
    note ⟨.info, .mutation, "chip " ++ chip ++ ", device type " ++ family.name⟩
    if family = .ascend310B then addBoardNodes h s else addCommonNodes h s svc

def showIds (ids : List Nat) : String := "[" ++ String.intercalate ", " (ids.map toString) ++ "]"

/-- Adds the visible devices. A slice keeps its number but has a node of another name. -/
def addDevices (h : Host) (s : Settings) (svc : Service σ) : Edit σ Unit := do
  let spec ← current
  let visible := Invocation.valueOf spec.env Environment.visibleDevices
  if visible = "" then return
  let devices ← MonadExcept.ofExcept ((Devices.parse visible).mapError Failure.ofFault)
  let options ← MonadExcept.ofExcept (optionsOf spec)
  let stem := if options.isVirtual then sliceName else deviceName
  note ⟨.info, .mutation, "devices: " ++ showIds devices.ids⟩
  devices.ids.forM fun id => mapFailure Failure.ofFault <|
    addNode h (s.device (stem ++ toString id)) (deviceName ++ toString id)
  addManagerNodes h s svc

/-- The container is the device plugin itself. -/
def isPlugin (env : Environment.Lines) : Bool :=
  Text.holds (Invocation.valueOf env Environment.hostName) Environment.pluginHost

def addMarker : Edit σ Unit := update fun spec =>
  if isPlugin spec.env && !spec.env.contains Environment.pluginMarker then
    spec.withEnv (spec.env ++ [Environment.pluginMarker])
  else spec

/-- All changes in order. A second run on the outcome finds them done. -/
def mutate (h : Host) (s : Settings) (svc : Service σ) : Edit σ Unit := do
  addHook h s
  checkCount .environmentEntries (← current).env.length
  mapFailure (Failure.within .creatingSlice) (addSlice h s svc)
  mapFailure (Failure.within .addingDevices) (addDevices h s svc)
  addMarker

end NpuRuntime.Creation
