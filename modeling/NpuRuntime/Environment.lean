import NpuRuntime.Log

/-! # Environment lists
Lists of `NAME=value` lines. A line is named by the trimmed text before its first equals sign;
lines without one have no name. -/
namespace NpuRuntime.Environment

abbrev Lines := List String

def visibleDevices : String := "ASCEND_VISIBLE_DEVICES"
def runtimeOptions : String := "ASCEND_RUNTIME_OPTIONS"
def runtimeMounts : String := "ASCEND_RUNTIME_MOUNTS"
def sliceTemplate : String := "ASCEND_VNPU_SPECS"
def hostName : String := "HOSTNAME"

/-- Added when the container is the device plugin itself. -/
def pluginMarker : String := "ASCEND_DOCKER_RUNTIME=True"
def pluginHost : String := "ascend-device-plugin"

def line (name value : String) : String := name ++ "=" ++ value

def valueIn? (name : String) (l : String) : Option String :=
  (Text.cut? '=' l).bind fun (key, value) => if Text.trim key = name then some value else none

def isNamed (name : String) (l : String) : Bool := (valueIn? name l).isSome

/-- The value of the first line with this name. -/
def get? (env : Lines) (name : String) : Option String := env.findSome? (valueIn? name)

/-- Gives every line with this name the value, or appends a line. -/
def set (env : Lines) (name value : String) : Lines :=
  if env.any (isNamed name) then env.map fun l => if isNamed name l then line name value else l
  else env ++ [line name value]

theorem get?_nil (name : String) : get? [] name = none := rfl

def setNote (name value : String) : Record :=
  ⟨.debug, .environment, "env: " ++ line name value⟩

/-- A value with one more token. An empty value is replaced; a token that is there stays alone. -/
def withToken (value token : String) : Option String :=
  let value := Text.trim value
  if (Text.pieces ',' value).any fun t => Text.trim t = token then none
  else if value = "" then some token
  else some (value ++ "," ++ token)

/-- Adds a token to the comma list in the first line with this name, or appends a line. The second
part is the changed line, if one was changed. -/
def addToken (env : Lines) (name token : String) : Lines × Option String :=
  match env.findIdx? (isNamed name) with
  | none => (env ++ [line name token], none)
  | some i =>
    match (env[i]?.bind (valueIn? name)).bind (withToken · token) with
    | none => (env, none)
    | some value => (env.set i (line name value), some (line name value))

def addNotes (changed : Option String) : List Record :=
  changed.toList.map fun l => ⟨.debug, .environment, "env: " ++ l⟩

theorem addToken_nil (name token : String) :
    addToken [] name token = ([line name token], none) := rfl

end NpuRuntime.Environment
