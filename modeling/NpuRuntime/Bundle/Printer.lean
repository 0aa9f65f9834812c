import NpuRuntime.Bundle.Spec

/-! # Writing container documents
The named members come first, in a fixed order; absent ones are left out. -/
namespace NpuRuntime.Bundle

def texts (xs : List String) : Json := .array (xs.map .string)

def Process.toJson (p : Process) : Json := .object <|
  Json.optional "env" (p.env.map texts) ++ p.other

def Root.toJson (r : Root) : Json := .object <| ("path", .string r.path) :: r.other

def Hook.toJson (h : Hook) : Json := .object <|
  ("path", .string h.path) :: Json.optional "args" (h.args.map texts) ++ h.other

def Hook.listToJson (hs : List Hook) : Json := .array (hs.map Hook.toJson)

def Hooks.toJson (h : Hooks) : Json := .object <|
  Json.optional "prestart" (h.prestart.map Hook.listToJson) ++
    Json.optional "poststop" (h.poststop.map Hook.listToJson) ++ h.other

def Resources.toJson (r : Resources) : Json := .object <|
  Json.optional "devices" (r.devices.map fun rs => .array (rs.map Rule.toJson)) ++ r.other

def Linux.toJson (l : Linux) : Json := .object <|
  Json.optional "devices" (l.devices.map fun ds => .array (ds.map Device.toJson)) ++
    Json.optional "resources" (l.resources.map Resources.toJson) ++ l.other

def Spec.toJson (s : Spec) : Json := .object <|
  [("process", s.process.toJson), ("root", s.root.toJson)] ++
    Json.optional "hooks" (s.hooks.map Hooks.toJson) ++
    Json.optional "linux" (s.linux.map Linux.toJson) ++ s.other

def Spec.text (s : Spec) : String := s.toJson.render

end NpuRuntime.Bundle
