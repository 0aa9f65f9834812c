import NpuRuntime.Query.Basic
import NpuRuntime.Trust.Basic

/-! # The driver library
The service over a library that the dynamic loader finds. Where it lies on disk is known only once
it is loaded, and that place must be trusted before any of its code runs. What it hands back is
checked against the ranges that callers rely on. -/
namespace NpuRuntime.Query.Library

def sizeLimit : Nat := 10

/-- The length of a template buffer in bytes, its closing zero included. -/
def templateLength : Nat := 32

def chipTextLength : Nat := 32

def productLength : Nat := 64

def maxSlice : Nat := UInt32.size / 2 - 1

/-- How the loader and the library behave. Tables go from an argument key, or `*` for any other, to
a status and a value. -/
structure Script where
  /-- The file that the loader reports; none makes loading fail. -/
  file : Option String := some "/usr/lib/libdcmi.so"
  loaderWords : Option String :=
    some "libdcmi.so: cannot open shared object file: No such file or directory"
  missing : List String := []
  located : Bool := true
  startStatus : Int := 0
  destroyStatus : Int := 0
  /-- Status, count and ids. -/
  cards : Int × Int × List Int := (0, 1, [0])
  counts : List (String × Int × Int) := []
  logicIds : List (String × Int × Int) := []
  logicIdsOf : List (String × Int × Int) := []
  slices : List (String × Int × Int) := []
  products : List (String × Int × List UInt8) := []
  chips : List (String × Int × List UInt8 × List UInt8 × List UInt8) := []

inductive Action where
  | load
  | unload
  | start
  | cardList
  | deviceCount (card : Int)
  | logicId (card device : Int)
  | logicIdOf (physical : Nat)
  | create (card device : Int) (template : String)
  | destroy (card device : Int) (slice : Nat)
  | productType (card device : Int)
  | chipInfo (card device : Int)
  deriving DecidableEq, Repr

structure Memory where
  held : Bool := false
  actions : List Action := []
  deriving DecidableEq, Repr

def Memory.act (m : Memory) (a : Action) : Memory := { m with actions := m.actions ++ [a] }

def lookUp {α : Type} (table : List (String × α)) (args : List Int) (default : α) : α :=
  let k := Text.join ',' (args.map toString)
  match table.find? (·.1 == k) with
  | some r => r.2
  | none => ((table.find? (·.1 == "*")).map Prod.snd).getD default

/-- A number as a signed word of 32 bits holds it. -/
def signed (n : Int) : Int := n.bmod UInt32.size

def unsigned (n : Int) : Nat := (n % UInt32.size).toNat

/-- The text of a zero-filled buffer that some bytes were copied into. -/
def bufferText (length : Nat) (bytes : List UInt8) : String :=
  Utf8.lenient ((bytes.take length).takeWhile (· != 0))

def checked (e : Entry) (low high value : Int) : Except Fault Int :=
  if low ≤ value ∧ value ≤ high then .ok value else .error (.driverValue e value)

def status (e : Entry) (code : Int) : Except Fault Unit :=
  if code = 0 then .ok () else .error (.driverStatus e code)

def hasSymbol (script : Script) (e : Entry) : Bool := !script.missing.contains e.symbol

/-- The first of `n` ids in a zero-filled list of `maxCards`, negative ones dropped. -/
def cardIds (ids : List Int) (n : Nat) : List Int :=
  (((ids.take maxCards).map signed ++ List.replicate maxCards 0).take n).filter (0 ≤ ·)

/-- Loads the library. It is let go again unless it is found, trusted and started; a library held
before is let go once the new one has started. -/
def start (h : Host) (script : Script) (m : Memory) : Response .start × Memory :=
  let m := m.act .load
  let failed (f : Fault) (m : Memory) : Response .start × Memory :=
    ({ result := .error f }, m.act .unload)
  match script.file with
  | none => ({ result := .error (.driverAbsent (.loader script.loaderWords)) }, m)
  | some file =>
    if !hasSymbol script .start then failed (.driverAbsent (.symbol .start)) m
    else if !script.located then failed (.driverAbsent .unlocated) m
    else match Trust.validate h file (Policy.file.withSizeLimit sizeLimit) with
      | .error r => failed (.path r) m
      | .ok real =>
        let notes := [⟨.debug, .library, "dcmi library: " ++ real.text⟩]
        let m := m.act .start
        match status .start (signed script.startStatus) with
        | .error f => ({ result := .error f, notes := notes }, m.act .unload)
        | .ok () =>
          ({ result := .ok (), notes := notes },
            { (if m.held then m.act .unload else m) with held := true })

def stop (m : Memory) : Memory := if m.held then { m.act .unload with held := false } else m

def callInto {c : Call} (script : Script) (e : Entry) (a : Action) (m : Memory)
    (result : Unit → Response c) : Response c × Memory :=
  if !m.held then ({ result := .error (.driverAbsent .notStarted) }, m)
  else if !hasSymbol script e then ({ result := .error (.driverAbsent (.symbol e)) }, m)
  else (result (), m.act a)

def cardList (script : Script) : Except Fault (List Int) := do
  status .cardList (signed script.cards.1)
  let n ← checked .cardList 1 maxCards (signed script.cards.2.1)
  return cardIds script.cards.2.2 n.toNat

def deviceCount (script : Script) (card : Int) : Except Fault Int := do
  let r := lookUp script.counts [card] (0, 1)
  status .deviceCount (signed r.1)
  checked .deviceCount 1 maxDevicesPerCard (signed r.2)

def logicId (script : Script) (card device : Int) : Except Fault Int32 := do
  let r := lookUp script.logicIds [card, device] (0, 0)
  status .logicId (signed r.1)
  let id ← checked .logicId 0 maxLogicId (signed r.2)
  return Int32.ofInt id

def logicIdOf (script : Script) (physical : Nat) : Except Fault Nat := do
  let r := lookUp script.logicIdsOf [physical] (0, 0)
  status .logicIdOf (signed r.1)
  let n ← checked .logicIdOf 0 (maxPhysicalDevices - 1 : Nat) (unsigned r.2)
  return n.toNat

def create (script : Script) (card device : Int) (template : String) :
    Response (.create card device template) :=
  let r := lookUp script.slices [card, device] (0, 100)
  match status .create (signed r.1) with
  | .error f => { result := .error f }
  | .ok () =>
    let slice := unsigned r.2
    { result := (checked .create 0 maxSlice slice).map Int.toNat
      notes := [⟨.debug, .library,
        s!"vdevice {slice} created on card {card} device {device}, vfg 0 pcie 0:0.0"⟩] }

def productType (script : Script) (card device : Int) : Except Fault String := do
  let r := lookUp script.products [card, device] (0, [])
  if signed r.1 = notSupportedCode then return notSupported
  status .productType (signed r.1)
  return bufferText productLength r.2

def chipInfo (script : Script) (card device : Int) : Response (.chipInfo card device) :=
  let r := lookUp script.chips [card, device]
    (0, Utf8.bytesOf "Ascend", Utf8.bytesOf "910B", [])
  match status .chipInfo (signed r.1) with
  | .error f => { result := .error f }
  | .ok () =>
    { result := .ok ⟨bufferText chipTextLength r.2.1, bufferText chipTextLength r.2.2.1,
        bufferText chipTextLength r.2.2.2⟩
      notes := [⟨.debug, .library, s!"card {card} device {device}: 0 ai cores"⟩] }

def respond (h : Host) (script : Script) (m : Memory) : (c : Call) → Response c × Memory
  | .start => start h script m
  | .shutdown => ({ result := .ok () }, stop m)
  | .cardList => callInto script .cardList .cardList m fun _ => { result := cardList script }
  | .deviceCount c =>
    callInto script .deviceCount (.deviceCount c) m fun _ => { result := deviceCount script c }
  | .logicId c d =>
    callInto script .logicId (.logicId c d) m fun _ => { result := logicId script c d }
  | .logicIdOf p =>
    callInto script .logicIdOf (.logicIdOf p) m fun _ => { result := logicIdOf script p }
  | .create c d t =>
    if t.utf8ByteSize ≥ templateLength then ({ result := .error (.invalidTemplate t) }, m)
    else callInto script .create (.create c d t) m fun _ => create script c d t
  | .destroy c d s =>
    callInto script .destroy (.destroy c d s) m fun _ =>
      { result := status .destroy (signed script.destroyStatus) }
  | .productType c d =>
    callInto script .productType (.productType c d) m fun _ =>
      { result := productType script c d }
  | .chipInfo c d =>
    if c < 0 ∨ d < 0 ∨ d ≥ maxDevicesPerCard then
      ({ result := .error (.driverValue .chipInfo d) }, m)
    else callInto script .chipInfo (.chipInfo c d) m fun _ => chipInfo script c d

/-- The service as a process on `h` sees it. -/
def service (h : Host) (script : Script) : Service Memory where
  respond c m := respond h script m c

end NpuRuntime.Query.Library
