import NpuRuntime.Trust.Rejection

/-! # Faults
Everything that can be wrong with a selection, a device, the driver or a path, by cause. The
wording stands in one place for each. -/
namespace NpuRuntime

inductive Entry where
  | start
  | cardList
  | deviceCount
  | logicId
  | logicIdOf
  | create
  | destroy
  | productType
  | chipInfo
  deriving DecidableEq, Repr

def Entry.symbol : Entry → String
  | start => "dcmi_init"
  | cardList => "dcmi_get_card_num_list"
  | deviceCount => "dcmi_get_device_num_in_card"
  | logicId => "dcmi_get_device_logic_id"
  | logicIdOf => "dcmi_get_device_logicid_from_phyid"
  | create => "dcmi_create_vdevice"
  | destroy => "dcmi_set_destroy_vdevice"
  | productType => "dcmi_get_product_type"
  | chipInfo => "dcmi_get_device_chip_info"

inductive Absence where
  /-- The loader's own words, if it has any. -/
  | loader (words : Option String)
  | symbol (e : Entry)
  | unlocated
  | notStarted
  deriving DecidableEq, Repr

def Absence.text : Absence → String
  | loader (some words) => words
  | loader none => "unknown dlopen error"
  | symbol e => "symbol " ++ e.symbol ++ " not found"
  | unlocated => "cannot locate libdcmi.so on disk"
  | notStarted => "session not initialized"

inductive RangeFault where
  | shape (token : String)
  | left (border token : String)
  | right (border token : String)
  | tooFar (b : Nat)
  | reversed (a b : Nat)
  deriving DecidableEq, Repr

def maxRangeBorder : Nat := 128

def RangeFault.text : RangeFault → String
  | shape token => token
  | left border token => "left border " ++ Text.quoted border ++ " in " ++ token
  | right border token => "right border " ++ Text.quoted border ++ " in " ++ token
  | tooFar b => "right border " ++ toString b ++ " above " ++ toString maxRangeBorder
  | reversed a b => "left border " ++ toString a ++ " larger than right border " ++ toString b

inductive NodeFault where
  | errno (e : Errno)
  | noDevice
  deriving DecidableEq, Repr

def NodeFault.text : NodeFault → String
  | errno e => e.named
  | noDevice => "not a device node"

/-- What there may be only so many of. -/
inductive Counted where
  | mountEntries
  | environmentEntries
  | prestartHooks
  deriving DecidableEq, Repr

def Counted.text : Counted → String
  | mountEntries => "mount list entries"
  | environmentEntries => "env entries"
  | prestartHooks => "prestart hooks"

inductive Fault where
  | inputTooLong (bytes max : Nat)
  | invalidRange (r : RangeFault)
  | invalidDeviceId (token : String)
  | invalidOption (token : String)
  | invalidMountName (name : String)
  | tooMany (what : Counted) (count max : Nat)
  | invalidTemplate (name : String)
  | sliceCount (selected : Nat)
  | physicalIdOutOfRange (id : Nat)
  | driverStatus (e : Entry) (code : Int)
  | driverValue (e : Entry) (value : Int)
  | driverAbsent (a : Absence)
  | noDevice (logicId : Nat)
  | noChipInfo
  | path (r : Rejection)
  | deviceNode (path : String) (f : NodeFault)
  deriving DecidableEq, Repr

def Fault.text : Fault → String
  | inputTooLong bytes max =>
    "input too long: " ++ toString bytes ++ " bytes exceeds " ++ toString max
  | invalidRange r => "invalid device range: " ++ r.text
  | invalidDeviceId token => "invalid device id: " ++ token
  | invalidOption token => "invalid runtime option: " ++ token
  | invalidMountName name => "invalid mount list name: " ++ Text.quoted name
  | tooMany what count max =>
    "too many " ++ what.text ++ ": " ++ toString count ++ " exceeds " ++ toString max
  | invalidTemplate name => "virtual device template not allowed: " ++ Text.quoted name
  | sliceCount selected =>
    "virtual device needs exactly one physical device, " ++ toString selected ++ " selected"
  | physicalIdOutOfRange id => "physical device id " ++ toString id ++ " out of range"
  | driverStatus e code => e.symbol ++ " failed, error code: " ++ toString code
  | driverValue e value => e.symbol ++ " returned invalid value " ++ toString value
  | driverAbsent a => "driver library not loaded: " ++ a.text
  | noDevice logicId => "no device found for logic id " ++ toString logicId
  | noChipInfo => "no valid chip info on any device"
  | path r => "path rejected: " ++ r.text
  | deviceNode p f => "device node " ++ p ++ ": " ++ f.text

/-- A rejected path is told twice: by the fault and by the reason that it carries. -/
def Fault.chain : Fault → List String
  | path r => [Fault.text (path r), r.text]
  | f => [f.text]

end NpuRuntime
