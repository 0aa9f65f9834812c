import NpuRuntime.Query.Basic

/-! # Searching the devices
Cards are asked in the order of the card list and devices from 0 upwards. Looking for a physical
id ends at the first failing call; looking for metadata passes over devices that fail. -/
namespace NpuRuntime.Query

variable {σ ω : Type}

/-- The first device of a card with this logic id, from `device` on; `left` are to be asked. The
answer is compared as an unsigned word. -/
def findOnCard (svc : Service σ) (card : Int) (logicId : Nat) :
    Nat → Int → Act σ ω Fault (Option Int)
  | 0, _ => return none
  | left + 1, device => do
    let id ← ask svc (.logicId card device)
    if id.toUInt32.toNat = logicId then return some device
    findOnCard svc card logicId left (device + 1)

def findOnCards (svc : Service σ) (physical logicId : Nat) : List Int → Act σ ω Fault (Int × Int)
  | [] => throw (.noDevice logicId)
  | card :: rest => do
    let count ← ask svc (.deviceCount card)
    match ← findOnCard svc card logicId count.toNat 0 with
    | some device =>
      note ⟨.debug, .query,
        s!"phy id {physical} -> logic id {logicId} -> card {card} device {device}"⟩
      return (card, device)
    | none => findOnCards svc physical logicId rest

/-- The card and device whose logic id is that of a physical id. -/
def findDevice (svc : Service σ) (physical : Nat) : Act σ ω Fault (Int × Int) := do
  let logicId ← ask svc (.logicIdOf physical)
  if logicId ≥ maxPhysicalDevices then throw (.driverValue .logicIdOf logicId)
  findOnCards svc physical logicId (← ask svc .cardList)

/-- The name of a card's first chip with valid information, from `device` on. -/
def chipOnCard (svc : Service σ) (card : Int) : Nat → Int → Act σ ω Fault (Option String)
  | 0, _ => return none
  | left + 1, device => do
    match ← attempt (ask svc (.chipInfo card device)) with
    | .ok chip =>
      if chip.isValid then return some chip.name
      note ⟨.warn, .query, s!"empty chip info on card {card} device {device}"⟩
    | .error e =>
      note ⟨.warn, .query, s!"get chip info on card {card} device {device} failed: " ++ e.text⟩
    chipOnCard svc card left (device + 1)

def chipOnCards (svc : Service σ) : List Int → Act σ ω Fault String
  | [] => throw .noChipInfo
  | card :: rest => do
    match ← attempt (ask svc (.deviceCount card)) with
    | .ok count =>
      match ← chipOnCard svc card count.toNat 0 with
      | some name => return name
      | none => chipOnCards svc rest
    | .error e =>
      note ⟨.warn, .query, s!"get device num by card {card} failed: " ++ e.text⟩
      chipOnCards svc rest

def chipName (svc : Service σ) : Act σ ω Fault String := do
  chipOnCards svc (← ask svc .cardList)

def productOnCard (svc : Service σ) (card : Int) : Nat → Int → Act σ ω Fault (Option String)
  | 0, _ => return none
  | left + 1, device => do
    match ← attempt (ask svc (.productType card device)) with
    | .ok product => return some product
    | .error e =>
      note ⟨.debug, .query, s!"get product type on card {card} device {device} failed: " ++ e.text⟩
      productOnCard svc card left (device + 1)

def productOnCards (svc : Service σ) : List Int → Act σ ω Fault String
  | [] => return ""
  | card :: rest => do
    match ← attempt (ask svc (.deviceCount card)) with
    | .ok count =>
      match ← productOnCard svc card count.toNat 0 with
      | some product => return product
      | none => productOnCards svc rest
    | .error e =>
      note ⟨.debug, .query, s!"get device num by card {card} failed: " ++ e.text⟩
      productOnCards svc rest

/-- The product type of the first device that reports one, or nothing. -/
def product (svc : Service σ) : Act σ ω Fault String := do
  productOnCards svc (← ask svc .cardList)

inductive ChipFamily where
  | ascend310B
  | ascend310P
  | ascend310
  | ascend910
  | unknown
  deriving DecidableEq, Repr

namespace ChipFamily

/-- The longer names are tried before the one that they contain. -/
def ofName (name : String) : ChipFamily :=
  if Text.holds name "310B" then ascend310B
  else if Text.holds name "310P" then ascend310P
  else if Text.holds name "310" then ascend310
  else if Text.holds name "910" then ascend910
  else unknown

def name : ChipFamily → String
  | ascend310B => "Ascend310B"
  | ascend310P => "Ascend310P"
  | ascend310 => "Ascend310"
  | ascend910 => "Ascend910"
  | unknown => "Unknown"

end ChipFamily

end NpuRuntime.Query
