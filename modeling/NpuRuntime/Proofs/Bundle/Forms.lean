import NpuRuntime.Bundle.Printer
import NpuRuntime.Bundle.Reader
import NpuRuntime.Proofs.Json.Form

/-! # The records of a container document
Each record's fields in the order in which they are printed. The fields of a record are independent
of each other, so every record is read, printed and read again without loss. -/
namespace NpuRuntime.Bundle

open Json

theorem lawful_integer : (Codec.int minInteger maxInteger).Lawful :=
  Codec.lawful_int (by decide) (by decide)

theorem lawful_word : (Codec.nat maxWord).Lawful := Codec.lawful_nat (by decide)

theorem lawful_texts : (Codec.list .text).Lawful := Codec.lawful_text.list

namespace Rule

def inner : String → Layout
  | _ => .value

def form : Form Rule where
  fields := [
    .always "allow" .flag allow fun x r => { r with allow := x },
    .maybe "type" .text kind fun x r => { r with kind := x },
    .maybe "major" (.int minInteger maxInteger) major fun x r => { r with major := x },
    .maybe "minor" (.int minInteger maxInteger) minor fun x r => { r with minor := x },
    .maybe "access" .text access fun x r => { r with access := x }]
  shape := shape
  inner := inner
  take := take
  init := { allow := false }
  other := other
  withOther ms r := { r with other := ms }
  print := toJson

theorem lawful : form.Lawful where
  toIndependent := by constructor <;> simp +contextual [form]
  ext := by rintro ⟨⟩ ⟨⟩; simp_all [form]
  distinct := by decide
  shape := rfl
  inner := rfl
  take _ _ _ := rfl
  codecs := by simp [form, Codec.lawful_flag, Codec.lawful_text, lawful_integer]
  print r := by simp [form, toJson, Field.members, Json.optional, Codec.flag, Codec.text, Codec.int]
  takeOther hname _ _ _ := by simp_all [form, take]

end Rule

namespace Device

def inner : String → Layout
  | _ => .value

def form : Form Device where
  fields := [
    .always "path" .text path fun x d => { d with path := x },
    .always "type" .text kind fun x d => { d with kind := x },
    .maybe "major" (.int minInteger maxInteger) major fun x d => { d with major := x },
    .maybe "minor" (.int minInteger maxInteger) minor fun x d => { d with minor := x },
    .maybe "fileMode" (.nat maxWord) fileMode fun x d => { d with fileMode := x },
    .maybe "uid" (.nat maxWord) uid fun x d => { d with uid := x },
    .maybe "gid" (.nat maxWord) gid fun x d => { d with gid := x }]
  shape := shape
  inner := inner
  take := take
  init := { path := "", kind := "" }
  other := other
  withOther ms d := { d with other := ms }
  print := toJson

theorem lawful : form.Lawful where
  toIndependent := by constructor <;> simp +contextual [form]
  ext := by rintro ⟨⟩ ⟨⟩; simp_all [form]
  distinct := by decide
  shape := rfl
  inner := rfl
  take _ _ _ := rfl
  codecs := by simp [form, Codec.lawful_text, lawful_integer, lawful_word]
  print d := by
    have hword (x : Option Nat) :
        (do let n ← x; pure (n : Int)).map (fun n => Json.number (.int n)) =
          x.map fun n => .number (.int n) := by
      cases x <;> rfl
    change toJson d = _
    simp only [toJson, hword]
    simp [form, Field.members, Json.optional, Codec.text, Codec.int, Codec.nat]
  takeOther hname _ _ _ := by simp_all [form, take]

end Device

namespace Process

def inner : String → Layout
  | _ => .list .value

def form : Form Process where
  fields := [.maybe "env" (.list .text) env fun x p => { p with env := x }]
  shape := shape
  inner := inner
  take := take
  init := {}
  other := other
  withOther ms p := { p with other := ms }
  print := toJson

theorem lawful : form.Lawful where
  toIndependent := by constructor <;> simp +contextual [form]
  ext := by rintro ⟨⟩ ⟨⟩; simp_all [form]
  distinct := by decide
  shape := rfl
  inner := rfl
  take _ _ _ := rfl
  codecs := by simp [form, lawful_texts]
  print p := by simp [form, toJson, Field.members, Json.optional, Codec.text, Codec.list]; rfl
  takeOther hname _ _ _ := by simp_all [form, take]

end Process

namespace Root

def inner : String → Layout
  | _ => .value

def form : Form Root where
  fields := [
    .always "path" .text path fun x r => { r with path := x }]
  shape := shape
  inner := inner
  take := take
  init := { path := "" }
  other := other
  withOther ms r := { r with other := ms }
  print := toJson

theorem lawful : form.Lawful where
  toIndependent := by constructor <;> simp +contextual [form]
  ext := by rintro ⟨⟩ ⟨⟩; simp_all [form]
  distinct := by decide
  shape := rfl
  inner := rfl
  take _ _ _ := rfl
  codecs := by simp [form, Codec.lawful_text]
  print r := by
    simp [form, toJson, Field.members, Json.optional, Codec.text]
  takeOther hname _ _ _ := by simp_all [form, take]

end Root

namespace Hook

def inner : String → Layout
  | "args" => .list .value
  | _ => .value

def form : Form Hook where
  fields := [
    .always "path" .text path fun x h => { h with path := x },
    .maybe "args" (.list .text) args fun x h => { h with args := x }]
  shape := shape
  inner := inner
  take := take
  init := { path := "" }
  other := other
  withOther ms h := { h with other := ms }
  print := toJson

theorem lawful : form.Lawful where
  toIndependent := by constructor <;> simp +contextual [form]
  ext := by rintro ⟨⟩ ⟨⟩; simp_all [form]
  distinct := by decide
  shape := rfl
  inner := rfl
  take _ _ _ := rfl
  codecs := by simp [form, Codec.lawful_text, lawful_texts]
  print h := by
    simp [form, toJson, Field.members, Json.optional, Codec.text, Codec.list]
    rfl
  takeOther hname _ _ _ := by simp_all [form, take]

end Hook

namespace Hooks

def inner : String → Layout
  | _ => .list (.record Hook.shape Hook.inner)

def form : Form Hooks where
  fields := [
    .maybe "prestart" (.list Hook.form.codec) prestart fun x h => { h with prestart := x },
    .maybe "poststop" (.list Hook.form.codec) poststop fun x h => { h with poststop := x }]
  shape := shape
  inner := inner
  take := take
  init := {}
  other := other
  withOther ms h := { h with other := ms }
  print := toJson

theorem lawful : form.Lawful where
  toIndependent := by constructor <;> simp +contextual [form]
  ext := by rintro ⟨⟩ ⟨⟩; simp_all [form]
  distinct := by decide
  shape := rfl
  inner := rfl
  take _ _ _ := rfl
  codecs := List.forall_mem_cons.mpr ⟨Hook.lawful.codec.list,
    List.forall_mem_cons.mpr ⟨Hook.lawful.codec.list, List.forall_mem_nil _⟩⟩
  print h := by
    simp [form, toJson, Field.members, Json.optional, Codec.list]
    rfl
  takeOther hname _ _ _ := by simp_all [form, take]

end Hooks

namespace Resources

def inner : String → Layout
  | _ => .list (.record Rule.shape Rule.inner)

def form : Form Resources where
  fields := [
    .maybe "devices" (.list Rule.form.codec) devices fun x r => { r with devices := x }]
  shape := shape
  inner := inner
  take := take
  init := {}
  other := other
  withOther ms r := { r with other := ms }
  print := toJson

theorem lawful : form.Lawful where
  toIndependent := by constructor <;> simp +contextual [form]
  ext := by rintro ⟨⟩ ⟨⟩; simp_all [form]
  distinct := by decide
  shape := rfl
  inner := rfl
  take _ _ _ := rfl
  codecs := List.forall_mem_cons.mpr ⟨Rule.lawful.codec.list, List.forall_mem_nil _⟩
  print r := by
    simp [form, toJson, Field.members, Json.optional, Codec.list]
    rfl
  takeOther hname _ _ _ := by simp_all [form, take]

end Resources

namespace Linux

def inner : String → Layout
  | "devices" => .list (.record Device.shape Device.inner)
  | _ => .record Resources.shape Resources.inner

def form : Form Linux where
  fields := [
    .maybe "devices" (.list Device.form.codec) devices fun x l => { l with devices := x },
    .maybe "resources" Resources.form.codec resources fun x l => { l with resources := x }]
  shape := shape
  inner := inner
  take := take
  init := {}
  other := other
  withOther ms l := { l with other := ms }
  print := toJson

theorem lawful : form.Lawful where
  toIndependent := by constructor <;> simp +contextual [form]
  ext := by rintro ⟨⟩ ⟨⟩; simp_all [form]
  distinct := by decide
  shape := rfl
  inner := rfl
  take _ _ _ := rfl
  codecs := List.forall_mem_cons.mpr ⟨Device.lawful.codec.list,
    List.forall_mem_cons.mpr ⟨Resources.lawful.codec, List.forall_mem_nil _⟩⟩
  print l := by
    simp [form, toJson, Field.members, Json.optional, Codec.list]
    rfl
  takeOther hname _ _ _ := by simp_all [form, take]

end Linux

namespace Sections

/-- A document is written as its sections are. -/
def toJson (s : Sections) : Json := .object <|
  Json.optional "process" (s.process.map Process.toJson) ++
    Json.optional "root" (s.root.map Root.toJson) ++
    Json.optional "hooks" (s.hooks.map Hooks.toJson) ++
    Json.optional "linux" (s.linux.map Linux.toJson) ++ s.other

def inner : String → Layout
  | "process" => .record Process.shape Process.inner
  | "root" => .record Root.shape Root.inner
  | "hooks" => .record Hooks.shape Hooks.inner
  | _ => .record Linux.shape Linux.inner

def form : Form Sections where
  fields := [
    .maybe "process" Process.form.codec process fun x s => { s with process := x },
    .maybe "root" Root.form.codec root fun x s => { s with root := x },
    .maybe "hooks" Hooks.form.codec hooks fun x s => { s with hooks := x },
    .maybe "linux" Linux.form.codec linux fun x s => { s with linux := x }]
  shape := shape
  inner := inner
  take := take
  init := {}
  other := other
  withOther ms s := { s with other := ms }
  print := toJson

theorem lawful : form.Lawful where
  toIndependent := by constructor <;> simp +contextual [form]
  ext := by rintro ⟨⟩ ⟨⟩; simp_all [form]
  distinct := by decide
  shape := rfl
  inner := rfl
  take _ _ _ := rfl
  codecs := by
    simp only [form, List.forall_mem_cons]
    exact ⟨Process.lawful.codec, Root.lawful.codec, Hooks.lawful.codec, Linux.lawful.codec,
      List.forall_mem_nil _⟩
  print s := by
    simp [form, toJson, Field.members, Json.optional, Json.optional]
    rfl
  takeOther hname _ _ _ := by simp_all [form, take]

end Sections

end NpuRuntime.Bundle
