import TemplateCompiler.Attribute.Entry
import TemplateCompiler.Element.Item

/-!
# Calls that make elements

A tag with a namespace and an element with an is directive call a virtual component, a dashed tag a
custom element with its content sorted into slots, and every other tag a plain element. A component
is imported when it is first called.
-/

namespace TemplateCompiler

/-- What an element is lowered to. -/
inductive ElementKind where
  | template
  | outlet
  | virtual (ns : String)
  | dynamic
  | custom
  | plain
deriving DecidableEq, Repr

namespace ElementKind

def ofTag (tag : Tag) (isDynamic : Bool) : ElementKind :=
  match tag.ns with
  | some ns => virtual ns
  | none =>
    if tag.name = "template" then template
    else if tag.name = "slot" then outlet
    else if isDynamic then dynamic
    else if tag.name.toList.contains '-' then custom
    else plain

def isComponent : ElementKind → Bool
  | virtual _ | dynamic | custom => true
  | template | outlet | plain => false

end ElementKind

namespace CompileM

def importComponent (env : Env) (pos : Position) (path : String) : CompileM Code := do
  if !Component.isImportable path then reject (.notImportable path) pos
  let localName ← componentAlias env path
  if !(← get).manifest.components.contains path then note (.imported path localName)
  modify fun ctx => { ctx with manifest := ctx.manifest.useComponent path }
  return .ref localName

/-- The component that an is directive selects: a name is imported, an expression is computed when
rendered. -/
def dynamicReference (env : Env) (pos : Position) (written : Option Content)
    (resolved : Option Code) : CompileM Code :=
  match Text.given (written.bind Content.text?), written, resolved with
  | some name, _, _ => importComponent env pos (Component.tagPath name)
  | none, some (.expression _), some code => pure code
  | none, _, _ => reject .componentMissing pos

/-- The call of an element that is neither a template nor an outlet. -/
def elementCall (env : Env) (pos : Position) (tag : Tag) (kind : ElementKind)
    (written : Option Content) (parts : List Part) (items : List Item) : CompileM Code := do
  let config := env.config
  let attributes := Entry.attributes .dict (Part.entries parts)
  match kind with
  | .virtual ns =>
    let reference ← importComponent env pos (Component.modulePath ns tag.name)
    return config.callPrimitive config.primitives.virtualElement
      [reference, .dict attributes, Item.assemble config items]
  | .dynamic =>
    let reference ← dynamicReference env pos written (Part.component? parts)
    return config.callPrimitive config.primitives.virtualElement
      [reference, .dict attributes, Item.assemble config items]
  | .custom =>
    let path := Component.tagPath tag.name
    let reference ← importComponent env pos path
    let content := if items.isEmpty then [] else [("slotset", .dict (Item.slots config items))]
    return config.callPrimitive config.primitives.customElement
      [.text path, reference, .dict (attributes ++ content)]
  | .template | .outlet | .plain =>
    return config.callPrimitive config.primitives.element
      [.text tag.name, .dict attributes, Item.assemble config items]

/-- Content passed to a slot, or else the outlet's own children. -/
def outletCode (config : Config) (name : Option String) (items : List Item) : Code :=
  .or (.call (.refMember config.slotsetParam "get") [.text (name.getD config.defaultSlotName)])
    (Item.assemble config items)

end CompileM

end TemplateCompiler
