import TemplateCompiler.Proofs.Interpreter

/-!
# What the code of markup is

What an attribute or a piece of content comes to in a module, told from where it stands in the
markup: a content is the code of its term at its site, a property is one entry of the attributes
that an element is called with, and a node of content is coded by itself, whatever is inside of it
(`Node.CodedAs`).
-/

namespace TemplateCompiler

/-! ## What attributes come to -/

/-- Whether the markup binds a name at a site. -/
def Template.isBound (config : Config) (t : Template) (s : Site) (name : String) : Bool :=
  (t.binder? config s name).isSome

/-- The code of a content at a site; the text of a directive is a binding. -/
def Content.ComesTo (config : Config) (t : Template) (s : Site) (isDirective : Bool)
    (content : Content) (code : Code) : Prop :=
  ∃ term, content.term? isDirective = some term ∧ code = term.code config s (t.isBound config s)

/-- The property that a reading is. -/
def Reading.property? : Reading → Option Property
  | property p => some p
  | iteration _ | component _ | condition _ | alternative _ | slot _ => none

/-- The value that a property passes: what it says, or a callback of that if it binds an event, kept
in the memo where the instance alone decides it. -/
inductive Property.Passes (env : Env) (t : Template) (s : Site) (p : Property) : Code → Prop where
  | value {code} (reads : p.content.ComesTo env.config t s p.directive.isSome code)
      (event : (p.isEvent && p.directive == some .bind) = false) : Passes env t s p code
  | callback {target} (reads : p.content.ComesTo env.config t s true target)
      (event : p.isEvent ∧ p.directive = some .bind)
      (keep : isKept env.config (t.isBound env.config s) target = false) :
      Passes env t s p (boundCode env.config target)
  | kept {target} (memo : String) (reads : p.content.ComesTo env.config t s true target)
      (event : p.isEvent ∧ p.directive = some .bind)
      (keep : isKept env.config (t.isBound env.config s) target) :
      Passes env t s p
        (CompileM.memoized env s!"{env.label}:{memo}" (boundCode env.config target))

/-- The entry that a property is passed as: at the top if it is a key, a class or a style, and in
one of the groups otherwise. -/
structure Property.IsEntry (env : Env) (t : Template) (s : Site) (isComponent : Bool)
    (p : Property) (e : Entry Code) : Prop where
  passes : ∃ code, p.Passes env t s code ∧ e = .ofProperty isComponent p code
  top : e.group = none ↔ p.key ∈ Entry.topKeys

/-- The component that the content of an is selects: a name's is imported. -/
def Content.Selects (config : Config) (imports : List Import) (t : Template) (s : Site)
    (content : Content) (component : Code) : Prop :=
  match Text.given content.text? with
  | some name => ∃ i ∈ imports, i.path = Component.tagPath name ∧ component = .ref i.localName
  | none => content.ComesTo config t s false component

/-- The call of an element. What it is called with is its attributes, and its children, which for a
custom element are an entry of their own behind the attributes. -/
inductive Called (config : Config) (imports : List Import) (tag : Tag)
    (attributes : List (String × Code)) : ElementKind → Code → Code → Prop where
  | virtual {ns i children} (imported : i ∈ imports)
      (path : i.path = Component.modulePath ns tag.name) :
      Called config imports tag attributes (.virtual ns) (.ref i.localName)
        (config.callPrimitive config.primitives.virtualElement
          [.ref i.localName, .dict attributes, children])
  | dynamic {component children} :
      Called config imports tag attributes .dynamic component
        (config.callPrimitive config.primitives.virtualElement
          [component, .dict attributes, children])
  | custom {i slotset} (imported : i ∈ imports) (path : i.path = Component.tagPath tag.name)
      (slots : slotset = [] ∨ ∃ slots, slotset = [("slotset", .dict slots)]) :
      Called config imports tag attributes .custom (.ref i.localName)
        (config.callPrimitive config.primitives.customElement
          [.text (Component.tagPath tag.name), .ref i.localName, .dict (attributes ++ slotset)])
  | plain {component children} :
      Called config imports tag attributes .plain component
        (config.callPrimitive config.primitives.element
          [.text tag.name, .dict attributes, children])

/-! ## The code of content -/

/-- What the code of content is: that of a text or of a placeholder, a lookup in the slots, or a
call with what the attributes of the element tell, of the component that an is among them
selects. -/
inductive Node.CodedAs (env : Env) (t : Template) (m : Module) (place : Place) :
    Node → Code → Prop where
  | text {pos value} : CodedAs env t m place (.text pos value) (.text (Text.collapse value))
  | placeholder {pos} {e : Expr} :
      CodedAs env t m place (.placeholder pos (some e))
        (env.config.callPrimitive env.config.primitives.text
          [e.qualify env.config.instanceParam ⟨place, false⟩ (t.isBound env.config ⟨place, false⟩)])
  | outlet {pos tag attributes children readings items}
      (reads : Reading.ofAttributes env.config [] attributes = .ok readings)
      (outlet : elementKind tag readings = .outlet) :
      CodedAs env t m place (.element pos tag attributes children)
        (CompileM.outletCode env.config (Reading.outletName readings) items)
  | called {pos tag attributes children readings component call} {es : List (Entry Code)}
      (reads : Reading.ofAttributes env.config [] attributes = .ok readings)
      (entries : List.Forall₂
        (Property.IsEntry env t ⟨place, false⟩ (elementKind tag readings).isComponent)
        (readings.filterMap Reading.property?) es)
      (called : Called env.config m.imports tag (Entry.attributes .dict es)
        (elementKind tag readings) component call)
      (selects : ∀ content, Reading.component? readings = some content → tag.ns = none →
        content.Selects env.config m.imports t ⟨place, false⟩ component) :
      CodedAs env t m place (.element pos tag attributes children) call

/-- What an element repeats for, as it is called to. -/
structure Node.Repeats (env : Env) (t : Template) (place : Place) (node : Node) (loop : Loop) :
    Prop where
  sited : loop.place = place
  iterable : ∃ content,
    LoopPart.iterable? (Reading.loopParts (node.readings env.config)) = .ok (some content) ∧
      content.ComesTo env.config t ⟨place, true⟩ true loop.iterable
  parameters : loop.parameters = Reading.parameters (node.readings env.config)

/-- What an element is conditional on, as it is tested. -/
def Node.Tests (env : Env) (t : Template) (place : Place) (node : Node) (test : Code) : Prop :=
  ∃ content, Reading.condition? (node.readings env.config) = some content ∧
    content.ComesTo env.config t ⟨place, false⟩ true test

end TemplateCompiler
