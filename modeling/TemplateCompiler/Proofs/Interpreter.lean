import TemplateCompiler.Proofs.Place
import TemplateCompiler.Proofs.Rendering

/-!
# Rendering markup itself

What a template renders, read off the markup without a module. A node is rendered in front of what
follows it: an if takes the branch that the rest begins with, and everything else puts its
contributions before those of the rest. A template contributes what is in it; if its condition does
not hold, nothing in the place of each. Iterations are passed over, as if they were not written.
-/

namespace TemplateCompiler

/-- What is rendered into the children around, or fails to be. -/
structure Contribution (α : Type) where
  slot : Option String
  value : Option (Value α)

/-- What a row of nodes renders: the branch it begins with, if that is an else, and what the nodes
past that contribute. -/
structure Rendered (α : Type) where
  branch : Option (Option (Value α))
  contributions : List (Contribution α)

variable {α : Type} (host : Host α)

/-! ## Contents -/

def Expr.render : Expr → Option (Value α)
  | .name _ id => host.read host.inst id
  | .member _ value id => do host.read (← value.render) id
  | .index _ value key => do host.index (← value.render) (← key.render)
  | .constant _ c => some (.constant c)
  | .foreign _ kind => some (host.foreign kind)

namespace Term

def render : Term → Option (Value α)
  | constant c => some (.constant c)
  | expression e => e.render host
  | dashed name => host.index host.inst (.constant (.text name))

/-- The text of a term that is one. -/
def text? : Term → Option String
  | constant c | expression (.constant _ c) => c.text?
  | expression _ | dashed _ => none

/-- A style that is a text is read as its declarations. -/
def renderStyle (t : Term) : Option (Value α) :=
  match t.text? with
  | some style => some (.dict ((Text.inlineStyle style).map fun e => (e.1, .constant (.text e.2))))
  | none => t.render host

/-- A name is bound to the instance that it is read from; anything else is given the instance. -/
def renderCallback : Term → Option (Value α)
  | expression (.name span id) => (expression (.name span id)).render host
  | t => do host.call .methodType [← t.render host, host.inst]

end Term

def Content.render (isDirective : Bool) (content : Content) : Option (Value α) := do
  (← content.term? isDirective).render host

/-! ## Attributes -/

namespace Property

def isCallback (p : Property) : Bool :=
  p.isEvent && p.directive == some .bind

def renderValue (p : Property) : Option (Value α) := do
  let term ← p.content.term? p.directive.isSome
  if p.isCallback then term.renderCallback host
  else if p.key = "style" then term.renderStyle host
  else term.render host

/-- The entry that a property makes, and the group it is in. -/
def entry {β : Type} (isComponent : Bool) (p : Property) (value : β) : Entry β :=
  if Entry.topKeys.contains p.key then ⟨none, p.key, value⟩
  else ⟨some (Entry.groupOf isComponent p), Entry.groupKey isComponent p.key, value⟩

def render (isComponent : Bool) (p : Property) : Option (Entry (Value α)) :=
  (p.renderValue host).map (p.entry isComponent)

end Property

namespace Reading

def properties (readings : List Reading) : List Property :=
  readings.filterMap fun
    | property p => some p
    | _ => none

def condition? (readings : List Reading) : Option Content :=
  readings.findSome? fun
    | condition content => some content
    | _ => none

def renderAttributes (isComponent : Bool) (readings : List Reading) :
    Option (List (String × Value α)) :=
  ((properties readings).mapM (Property.render host isComponent)).map (Entry.attributes .dict)

/-- The component that an is directive selects, by its name or as what an expression comes to. -/
def renderComponent (readings : List Reading) : Option (Value α) := do
  let content ← component? readings
  match Text.given content.text? with
  | some name => some (.component (Component.tagPath name))
  | none => content.render host false

end Reading

/-! ## Contributions -/

namespace Contribution

def inSlot (c : Contribution α) (slot : Option String) : Contribution α :=
  { c with slot := c.slot.or slot }

/-- Contributions as a list of children. -/
def children (contributions : List (Contribution α)) : Option (Value α) :=
  (contributions.mapM value).map fun vs => .list (vs.flatMap Value.spliced)

def slotName (config : Config) (c : Contribution α) : String :=
  c.slot.getD config.defaultSlotName

/-- Contributions by slot, in the order in which slots are first filled. -/
def bySlot (config : Config) (contributions : List (Contribution α)) :
    Option (List (String × Value α)) :=
  ((contributions.map (slotName config)).eraseDups).mapM fun slot =>
    (children (contributions.filter fun c => slotName config c == slot)).map (slot, ·)

/-- The entry that passes content to a component, if there is any. -/
def slotset (config : Config) (contributions : List (Contribution α)) :
    Option (List (String × Value α)) :=
  if contributions.isEmpty then some []
  else (bySlot config contributions).map fun content => [("slotset", .dict content)]

/-- The contribution if a condition holds, and else nothing in its place. -/
def guard (test : Option (Value α)) (c : Contribution α) : Contribution α :=
  { c with value := do if host.truthy (← test) then c.value else some (.constant .null) }

/-- What a template contributes under a condition, if it has one. -/
def guarded (condition : Option (Option (Value α))) (contributions : List (Contribution α)) :
    List (Contribution α) :=
  match condition with
  | none => contributions
  | some test => contributions.map (guard host test)

end Contribution

/-! ## Elements -/

/-- The value of an element on a branch, or of the branch after it if its condition does not
hold. -/
def chosen (condition : Option (Option (Value α))) (value : Option (Value α))
    (branch : Option (Option (Value α))) : Option (Value α) :=
  match condition with
  | none => value
  | some test => do
    if host.truthy (← test) then value else branch.getD (host.callPrimitive "e" [])

/-- What is made of an element that is neither a template nor an outlet. -/
def makeElement (config : Config) (tag : Tag) (readings : List Reading)
    (contributions : List (Contribution α)) : ElementKind → Option (Value α)
  | .virtual ns => do
    let attributes ← Reading.renderAttributes host true readings
    host.callPrimitive "v" [.component (Component.modulePath ns tag.name), .dict attributes,
      ← Contribution.children contributions]
  | .dynamic => do
    let component ← Reading.renderComponent host readings
    let attributes ← Reading.renderAttributes host true readings
    host.callPrimitive "v" [component, .dict attributes, ← Contribution.children contributions]
  | .custom => do
    let path := Component.tagPath tag.name
    let attributes ← Reading.renderAttributes host true readings
    let content ← Contribution.slotset config contributions
    host.callPrimitive "c" [.constant (.text path), .component path, .dict (attributes ++ content)]
  | _ => do
    let attributes ← Reading.renderAttributes host false readings
    host.callPrimitive "h" [.constant (.text tag.name), .dict attributes,
      ← Contribution.children contributions]

/-- The content passed to a slot, or else the outlet's own children. -/
def renderOutlet (config : Config) (readings : List Reading)
    (contributions : List (Contribution α)) : Option (Value α) :=
  let content := host.content
    (.constant (.text ((Reading.outletName readings).getD config.defaultSlotName)))
  if host.truthy content then some content else Contribution.children contributions

/-- An element in front of what follows it, for the contributions of its children. -/
def renderElement (config : Config) (tag : Tag) (readings : List Reading)
    (inner : List (Contribution α)) (rest : Rendered α) : Rendered α :=
  let slot := Reading.slotOf readings
  let condition := (Reading.condition? readings).map (Content.render host true)
  let isAlternative := readings.any Reading.isAlternative
  match elementKind tag readings with
  | .template =>
    let contributions := Contribution.guarded host condition inner
    if isAlternative then ⟨some (Contribution.children contributions), rest.contributions⟩
    else ⟨none, contributions.map (Contribution.inSlot · slot) ++ rest.contributions⟩
  | .outlet => ⟨none, ⟨slot, renderOutlet host config readings inner⟩ :: rest.contributions⟩
  | kind =>
    let value := chosen host condition (makeElement host config tag readings inner kind) rest.branch
    if isAlternative then ⟨some value, rest.contributions⟩
    else ⟨none, ⟨slot, value⟩ :: rest.contributions⟩

/-! ## Nodes -/

mutual

def renderNode (config : Config) : Node → Rendered α → Rendered α
  | .text _ value, rest =>
    let shown := Text.collapse value
    if shown.isEmpty then rest
    else ⟨none, ⟨none, some (.constant (.text shown))⟩ :: rest.contributions⟩
  | .placeholder _ none, rest => rest
  | .placeholder _ (some e), rest =>
    ⟨none, ⟨none, do host.callPrimitive "t" [← e.render host]⟩ :: rest.contributions⟩
  | .fragment _ children, rest => renderNodes config children rest
  | .element pos tag attributes children, rest =>
    renderElement host config tag ((Node.element pos tag attributes children).readings config)
      (renderNodes config children ⟨none, []⟩).contributions rest
  | .literal .., rest | .attr _, rest | .template .., rest => rest

def renderNodes (config : Config) : List Node → Rendered α → Rendered α
  | [], rest => rest
  | node :: nodes, rest => renderNode config node (renderNodes config nodes rest)

end

/-! ## Iterations -/

/-- Whether an attribute is one of those that make an element repeat. -/
def Attribute.iterates (a : Attribute) : Bool :=
  (Text.given a.tag.ns).bind Directive.ofNamespace? == some .iterate

mutual

/-- Whether an element in a node repeats. -/
def Node.repeats : Node → Bool
  | .element _ _ attributes children => attributes.any Attribute.iterates || anyRepeats children
  | .fragment _ children => anyRepeats children
  | .text .. | .placeholder .. | .literal .. | .attr _ | .template .. => false

def anyRepeats : List Node → Bool
  | [] => false
  | node :: rest => node.repeats || anyRepeats rest

end

/-! ## Templates -/

def Template.repeats (t : Template) : Bool :=
  anyRepeats t.body

/-- A template renders the children of its root. -/
def Template.render (config : Config) (t : Template) : Option (Value α) :=
  match t.root? with
  | some (.element pos tag attributes children) =>
    let readings := (Node.element pos tag attributes children).readings config
    let condition := (Reading.condition? readings).map (Content.render host true)
    Contribution.children
      (Contribution.guarded host condition
        (renderNodes host config children ⟨none, []⟩).contributions)
  | _ => none

end TemplateCompiler
