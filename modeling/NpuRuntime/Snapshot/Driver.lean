import NpuRuntime.Query.Library
import NpuRuntime.Query.Scripted
import NpuRuntime.Snapshot.Basic

/-! # Descriptions of a driver
A driver is described by how its library behaves, or by the answers of the whole service. -/
namespace NpuRuntime.Snapshot

def bufferBytes (v : Json) : List UInt8 :=
  match v with
  | .string s => Utf8.bytesOf s
  | _ => ofHex (textOr v "hex" "")

def intAt (vs : List Json) (i : Nat) : Int := ((vs[i]?).bind Json.int?).getD 0

def bytesAt (vs : List Json) (i : Nat) : List UInt8 := ((vs[i]?).map bufferBytes).getD []

/-- A table of replies, each of them an array. -/
def table {α : Type} (v : Json) (name : String) (row : List Json → α) : List (String × α) :=
  (((v.member? name).bind Json.members?).getD []).map fun m => (m.1, row (m.2.items?.getD []))

def numberRow (vs : List Json) : Int × Int := (intAt vs 0, intAt vs 1)

def cardsRow (vs : List Json) : Int × Int × List Int :=
  (intAt vs 0, intAt vs 1, (((vs[2]?).bind Json.items?).getD []).filterMap Json.int?)

def textOrNull (v : Json) (name : String) (default : Option String) : Option String :=
  match v.member? name with
  | some m => m.text?
  | none => default

def library (v : Json) : Query.Library.Script :=
  let base : Query.Library.Script := {}
  { file := textOrNull v "lib" base.file
    loaderWords := textOrNull v "dlerror" base.loaderWords
    missing := ((v.member? "missing").bind Json.texts?).getD []
    located := (v.member? "located").isNone || (v.member? "located") = some (.bool true)
    startStatus := ((v.member? "init").bind Json.int?).getD 0
    destroyStatus := ((v.member? "destroy_vdevice").bind Json.int?).getD 0
    cards := (((v.member? "card_num_list").bind Json.items?).map cardsRow).getD base.cards
    counts := table v "device_num_in_card" numberRow
    logicIds := table v "device_logic_id" numberRow
    logicIdsOf := table v "logicid_from_phyid" numberRow
    slices := table v "create_vdevice" numberRow
    products := table v "product_type" fun vs => (intAt vs 0, bytesAt vs 1)
    chips := table v "chip_info" fun vs => (intAt vs 0, bytesAt vs 1, bytesAt vs 2, bytesAt vs 3) }

def noLibrary : Query.Library.Script := { file := none }

open Query.Scripted (Reply Replies Value)

def value : Json → Value
  | .string s => .text s
  | .number (.int n) => .number n
  | .array vs => match vs with
    | [.string kind, .string name, .string version] => .chip ⟨kind, name, version⟩
    | vs => .ids (vs.filterMap Json.int?)
  | _ => .nothing

/-- One reply: a failure, an offset, or a plain answer. -/
def reply (v : Json) : Reply :=
  match v with
  | .object [("code", .number (.int n))] => .status n
  | .object [("bad", .number (.int n))] => .badValue n
  | .object [("unavailable", .string words)] => .absent words
  | .object [("add", .number (.int n))] => .offset n
  | v => .value (value v)

def replyList (v : Json) : List Reply :=
  match v.member? "seq" with
  | some (.array vs) => vs.map reply
  | _ => [reply v]

def methodName : Entry → String
  | .start => "initialize"
  | .cardList => "card_list"
  | .deviceCount => "device_num_in_card"
  | .logicId => "device_logic_id"
  | .logicIdOf => "logic_id_from_phy_id"
  | .create => "create_vdevice"
  | .destroy => "destroy_vdevice"
  | .productType => "product_type"
  | .chipInfo => "chip_info"

/-- Two functions have no arguments, so one reply is all there is to write. -/
def repliesOf (v : Json) (e : Entry) : Replies :=
  match v.member? (methodName e), e with
  | none, e => Query.Scripted.defaultReplies e
  | some r, .start | some r, .cardList => [("*", replyList r)]
  | some table, _ => (table.members?.getD []).map fun m => (m.1, replyList m.2)

def service (v : Json) : Query.Scripted.Script := ⟨repliesOf v⟩

end NpuRuntime.Snapshot
