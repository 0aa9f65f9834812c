import NpuRuntime.Bundle.Device
import NpuRuntime.Environment

/-! # Container documents
The parts of a container's configuration that are read or changed here. Each part keeps the
members that it does not name. -/
namespace NpuRuntime.Bundle

open Json (Members)

structure Process where
  env : Option Environment.Lines := none
  other : Members := []
  deriving DecidableEq, Repr

structure Root where
  path : String
  other : Members := []
  deriving DecidableEq, Repr

/-- A program that the runtime starts at some point of a container's life. -/
structure Hook where
  path : String
  args : Option (List String) := none
  other : Members := []
  deriving DecidableEq, Repr

structure Hooks where
  prestart : Option (List Hook) := none
  poststop : Option (List Hook) := none
  other : Members := []
  deriving DecidableEq, Repr

structure Resources where
  devices : Option (List Rule) := none
  other : Members := []
  deriving DecidableEq, Repr

structure Linux where
  devices : Option (List Device) := none
  resources : Option Resources := none
  other : Members := []
  deriving DecidableEq, Repr

/-- A document as it is accepted. The type carries what reading checks: that there is a process and
a root, which may be missing in the file, and that all names and texts are Unicode. -/
structure Spec where
  process : Process
  root : Root
  hooks : Option Hooks := none
  linux : Option Linux := none
  other : Members := []
  deriving DecidableEq, Repr

/-- A hook whose first argument is its own path. -/
def Hook.start (path : String) (args : List String) : Hook :=
  { path := path, args := some (path :: args) }

namespace Spec

def env (s : Spec) : Environment.Lines := s.process.env.getD []

def prestart (s : Spec) : List Hook := ((s.hooks.bind Hooks.prestart).getD [])

def poststop (s : Spec) : List Hook := ((s.hooks.bind Hooks.poststop).getD [])

def devices (s : Spec) : List Device := ((s.linux.bind Linux.devices).getD [])

def rules (s : Spec) : List Rule :=
  (((s.linux.bind Linux.resources).bind Resources.devices).getD [])

def withEnv (s : Spec) (env : Environment.Lines) : Spec :=
  { s with process := { s.process with env := some env } }

/-- Changing a list creates the sections around it. -/
def withPrestart (s : Spec) (hooks : List Hook) : Spec :=
  { s with hooks := some { s.hooks.getD {} with prestart := some hooks } }

def withPoststop (s : Spec) (hooks : List Hook) : Spec :=
  { s with hooks := some { s.hooks.getD {} with poststop := some hooks } }

def withDevices (s : Spec) (devices : List Device) : Spec :=
  { s with linux := some { s.linux.getD {} with devices := some devices } }

def withRules (s : Spec) (rules : List Rule) : Spec :=
  let linux := s.linux.getD {}
  let resources := { linux.resources.getD {} with devices := some rules }
  { s with linux := some { linux with resources := some resources } }

def addPrestart (s : Spec) (h : Hook) : Spec := s.withPrestart (s.prestart ++ [h])

def addPoststop (s : Spec) (h : Hook) : Spec := s.withPoststop (s.poststop ++ [h])

def hasDevice (s : Spec) (path : String) : Bool := s.devices.any (·.path == path)

/-- Adds a rule unless an equal one is there. -/
def addRule (s : Spec) (r : Rule) : Spec :=
  s.withRules (if s.rules.contains r then s.rules else s.rules ++ [r])

/-- Adds a device and its rule, unless its path is taken. -/
def addDevice (s : Spec) (d : Device) : Spec :=
  if s.hasDevice d.path then s else (s.withDevices (s.devices ++ [d])).addRule d.rule

/-- Whether a device was added, and the document after that. -/
def offer (s : Spec) (d : Device) : Bool × Spec := (!s.hasDevice d.path, s.addDevice d)

theorem env_withEnv (s : Spec) (env : Environment.Lines) : (s.withEnv env).env = env := rfl

theorem rules_withRules (s : Spec) (rs : List Rule) : (s.withRules rs).rules = rs := rfl

theorem poststop_withPrestart (s : Spec) (hs : List Hook) :
    (s.withPrestart hs).poststop = s.poststop := by
  cases h : s.hooks <;> simp [withPrestart, poststop, h]

theorem prestart_withPoststop (s : Spec) (hs : List Hook) :
    (s.withPoststop hs).prestart = s.prestart := by
  cases h : s.hooks <;> simp [withPoststop, prestart, h]

theorem rules_withDevices (s : Spec) (ds : List Device) : (s.withDevices ds).rules = s.rules := by
  cases h : s.linux <;> simp [withDevices, rules, h]

theorem devices_withRules (s : Spec) (rs : List Rule) : (s.withRules rs).devices = s.devices := by
  cases h : s.linux <;> simp [withRules, devices, h]

end Spec

end NpuRuntime.Bundle
