/-!
# Names of a generated module

Everything a generated module is named for: its function and parameters, the manifest, the helper
that binds callbacks, the slot without a name, and the seven primitives of the rendering interface.
-/

namespace TemplateCompiler

structure Primitives where
  element : String := "h"
  customElement : String := "c"
  virtualElement : String := "v"
  text : String := "t"
  iterator : String := "i"
  flatten : String := "f"
  empty : String := "e"
deriving DecidableEq, Repr

structure Config where
  functionName : String := "tmpl"
  apiParam : String := "api"
  instanceParam : String := "cmp"
  slotsetParam : String := "slotset"
  contextParam : String := "ctx"
  usedIdsName : String := "used_ids"
  bindHelper : String := "_bind"
  defaultSlotName : String := "$default$"
  primitives : Primitives := {}
deriving DecidableEq, Repr

/-- A setting that there is none of. -/
inductive Config.Fault where
  | unknownSetting (name : String)
  | unknownPrimitive (name : String)
deriving DecidableEq, Repr

def Config.Fault.message : Config.Fault → String
  | unknownSetting name =>
    s!"CompilerConfig.__init__() got an unexpected keyword argument '{name}'"
  | unknownPrimitive name =>
    s!"RenderPrimitives.__init__() got an unexpected keyword argument '{name}'"

namespace Primitives

def set (p : Primitives) (name value : String) : Except Config.Fault Primitives :=
  match name with
  | "element" => .ok { p with element := value }
  | "custom_element" => .ok { p with customElement := value }
  | "virtual_element" => .ok { p with virtualElement := value }
  | "text" => .ok { p with text := value }
  | "iterator" => .ok { p with iterator := value }
  | "flatten" => .ok { p with flatten := value }
  | "empty" => .ok { p with empty := value }
  | _ => .error (.unknownPrimitive name)

/-- The primitives with some settings in place of their defaults. -/
def ofSettings (settings : List (String × String)) : Except Config.Fault Primitives :=
  settings.foldlM (fun p setting => p.set setting.1 setting.2) {}

end Primitives

namespace Config

def set (c : Config) (name value : String) : Except Fault Config :=
  match name with
  | "function_name" => .ok { c with functionName := value }
  | "api_param" => .ok { c with apiParam := value }
  | "instance_param" => .ok { c with instanceParam := value }
  | "slotset_param" => .ok { c with slotsetParam := value }
  | "context_param" => .ok { c with contextParam := value }
  | "used_ids_name" => .ok { c with usedIdsName := value }
  | "bind_helper" => .ok { c with bindHelper := value }
  | "default_slot_name" => .ok { c with defaultSlotName := value }
  | _ => .error (.unknownSetting name)

/-- The configuration with some settings replaced; primitives are replaced as a whole. -/
def override (c : Config) (settings : List (String × String))
    (primitives : Option (List (String × String))) : Except Fault Config := do
  let kept ← match primitives with
    | some ps => Primitives.ofSettings ps
    | none => .ok c.primitives
  settings.foldlM (fun c setting => c.set setting.1 setting.2) { c with primitives := kept }

/-- The names a module binds itself, which no iteration may bind again. -/
def reserved (c : Config) : List String :=
  [c.apiParam, c.instanceParam, c.slotsetParam, c.contextParam, c.bindHelper]

end Config

end TemplateCompiler
