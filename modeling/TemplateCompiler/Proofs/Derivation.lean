import TemplateCompiler.Compile
import TemplateCompiler.Proofs.Run

/-!
# Lowering as a relation

What a node is lowered to, without contexts: the binders around it are a list, what it queues and
which numbers it takes are indices, and what is known of components is known from the start. The
relation is indexed by the environment and by a context, of which it uses aliases, components and
whether callbacks are bound; any context that the compilation still comes to will do.
-/

namespace TemplateCompiler

/-- An element that repeats and the names it binds. -/
structure Binder where
  place : Place
  parameters : List String
deriving DecidableEq, Repr

/-- Whether one of the binders, innermost first, binds a name. -/
def binds (binders : List Binder) (name : String) : Bool :=
  binders.any fun b => b.parameters.contains name

def Loop.binder (loop : Loop) : Binder :=
  ⟨loop.place, loop.parameters⟩

/-- The binders inside an element. -/
def inside (loop : Option Loop) (binders : List Binder) : List Binder :=
  (loop.map Loop.binder).toList ++ binders

/-! ## Contents -/

/-- What a content says, once the text of a directive is read as a binding. -/
inductive Term where
  | constant (c : Constant)
  | expression (e : Expr)
  | dashed (name : String)

def Content.term? (isDirective : Bool) : Content → Option Term
  | .expression e => some (.expression e)
  | .constant c =>
    match c.text?, isDirective with
    | some text, true =>
      match Binding.form text with
      | .ok (.path e) => some (.expression e)
      | .ok (.dashed name) => some (.dashed name)
      | .error _ => none
    | _, _ => some (.constant c)

def Term.code (config : Config) (site : Site) (bound : String → Bool) : Term → Code
  | constant c => .constant none c
  | expression e => e.qualify config.instanceParam site bound
  | dashed name => .index none (.ref config.instanceParam) (.text name)

/-! ## Attributes -/

/-- A callback with its instance. -/
def boundCode (config : Config) (target : Code) : Code :=
  if target.isMethodOf config.instanceParam then target
  else .call (.ref config.bindHelper) [target, .ref config.instanceParam]

/-- Whether the instance alone decides a callback. -/
def isKept (config : Config) (bound : String → Bool) (target : Code) : Bool :=
  target.root.isNamed config.instanceParam && !(boundCode config target).names.any bound

section

variable (env : Env) (K : Context)

inductive BindsCallback (bound : String → Bool) (target : Code) :
    Code → Numbering → Numbering → Prop where
  | kept {n} (helper : target.isMethodOf env.config.instanceParam = false → K.bindsCallbacks)
      (keep : isKept env.config bound target) :
      BindsCallback bound target
        (CompileM.memoized env s!"{env.label}:{n.memo}" (boundCode env.config target)) n n.withMemo
  | passed {n} (helper : target.isMethodOf env.config.instanceParam = false → K.bindsCallbacks)
      (keep : isKept env.config bound target = false) :
      BindsCallback bound target (boundCode env.config target) n n

inductive LowersProperty (bound : String → Bool) (site : Site) (isComponent : Bool)
    (p : Property) : Entry Code → Numbering → Numbering → Prop where
  | callback {term code n n'} (reads : p.content.term? p.directive.isSome = some term)
      (event : (p.isEvent && p.directive == some .bind) = true)
      (callback : BindsCallback env K bound (term.code env.config site bound) code n n') :
      LowersProperty bound site isComponent p (.ofProperty isComponent p code) n n'
  | value {term n} (reads : p.content.term? p.directive.isSome = some term)
      (event : (p.isEvent && p.directive == some .bind) = false) :
      LowersProperty bound site isComponent p
        (.ofProperty isComponent p (term.code env.config site bound)) n n

inductive LowersReading (bound : String → Bool) (site : Site) (isComponent : Bool) :
    Reading → List Part → Numbering → Numbering → Prop where
  | iteration {part n} : LowersReading bound site isComponent (.iteration part) [] n n
  | slot {name n} : LowersReading bound site isComponent (.slot name) [] n n
  | component {content : Content} {term n} (reads : content.term? false = some term) :
      LowersReading bound site isComponent (.component content)
        [.component (term.code env.config site bound)] n n
  | condition {content : Content} {term n} (reads : content.term? true = some term) :
      LowersReading bound site isComponent (.condition content)
        [.condition (term.code env.config site bound)] n n
  | alternative {content : Content} {term n} (reads : content.term? true = some term) :
      LowersReading bound site isComponent (.alternative content) [.alternative] n n
  | property {p entry n n'}
      (lowers : LowersProperty env K bound site isComponent p entry n n') :
      LowersReading bound site isComponent (.property p) [.entry entry] n n'

inductive LowersReadings (bound : String → Bool) (site : Site) (isComponent : Bool) :
    List Reading → List Part → Numbering → Numbering → Prop where
  | nil {n} : LowersReadings bound site isComponent [] [] n n
  | cons {reading parts readings more n n' n''}
      (head : LowersReading env K bound site isComponent reading parts n n')
      (tail : LowersReadings bound site isComponent readings more n' n'') :
      LowersReadings bound site isComponent (reading :: readings) (parts ++ more) n n''

end

/-! ## Iterations -/

/-- What an element iterates over is read outside of its own binder. -/
inductive OpensLoop (config : Config) (binders : List Binder) (place : Place)
    (readings : List Reading) : Option Loop → Prop where
  | once (reads : LoopPart.iterable? (Reading.loopParts readings) = .ok none) :
      OpensLoop config binders place readings none
  | repeated {content : Content} {term parameters}
      (reads : LoopPart.iterable? (Reading.loopParts readings) = .ok (some content))
      (iterable : content.term? true = some term)
      (binder : LoopPart.parameters (Reading.loopParts readings) = .ok parameters) :
      OpensLoop config binders place readings
        (some ⟨place, term.code config ⟨place, true⟩ (binds binders), parameters⟩)

def iterationCall (config : Config) (loop : Loop) (function : Code) (flatten : Bool) : Code :=
  let call := config.callPrimitive config.primitives.iterator [loop.iterable, function]
  if flatten then config.callPrimitive config.primitives.flatten [call] else call

/-- A call of the iterator for a function of its own, or for one that is declared around it. -/
inductive Iterates (config : Config) (loop : Loop) (body : Code) (flatten : Bool) :
    List Declaration → Code → List Declaration → Numbering → Numbering → Prop where
  | inline {n} :
      Iterates config loop body flatten []
        (iterationCall config loop (.lambda loop.place loop.parameters body) flatten) [] n n
  | declared {ds : List Declaration} {n} (needs : ds ≠ []) :
      Iterates config loop body flatten ds (iterationCall config loop (.ref n.loop) flatten)
        [.define ⟨n.loop, loop.place, loop.parameters, ds, body⟩] n n.withLoop

/-! ## Siblings -/

inductive FinishesSibling (config : Config) (s : Sibling) (alternative : Option Item) :
    Item → List Declaration → Numbering → Numbering → Prop where
  | fixed {n} (form : s.form = .fixed) : FinishesSibling config s alternative s.item [] n n
  | spliced {items n} (form : s.form = .spliced items) :
      FinishesSibling config s alternative s.item [] n n
  | guarded {condition n} (form : s.form = .guarded condition) :
      FinishesSibling config s alternative
        { code := Sibling.choose config condition s.item.code alternative
          nested := s.item.nested || alternative.any Item.nested
          slot := s.item.slot } [] n n
  | repeated {loop ds code outer n n'} (form : s.form = .repeated loop ds none)
      (iterates : Iterates config loop s.item.code false ds code outer n n') :
      FinishesSibling config s alternative
        { code, nested := true, iteration := true, slot := s.item.slot } outer n n'
  | filtered {loop ds condition code outer n n'}
      (form : s.form = .repeated loop ds (some condition))
      (iterates : Iterates config loop (Sibling.choose config condition s.item.code alternative)
        (alternative.any Item.mayBeList) ds code outer n n') :
      FinishesSibling config s alternative
        { code, nested := true, iteration := true, slot := s.item.slot } outer n n'

inductive FinishesBranches (config : Config) :
    List Sibling → Option Item → List Declaration → Numbering → Numbering → Prop where
  | nil {n} : FinishesBranches config [] none [] n n
  | cons {s rest alternative item ds ds' n n' n''}
      (tail : FinishesBranches config rest alternative ds n n')
      (head : FinishesSibling config s alternative item ds' n' n'') :
      FinishesBranches config (s :: rest) (some item) (ds ++ ds') n n''

inductive FinishesChain (config : Config) :
    List Sibling → List Item → List Declaration → Numbering → Numbering → Prop where
  | nil {n} : FinishesChain config [] [] [] n n
  | spliced {s rest items n} (head : s.isAlternative = false) (form : s.form = .spliced items) :
      FinishesChain config (s :: rest) (items.map fun i => i.inSlot s.item.slot) [] n n
  | branches {s rest item ds n n'} (head : s.isAlternative = false)
      (form : ∀ items, s.form ≠ .spliced items)
      (branches : FinishesBranches config (s :: rest) (some item) ds n n') :
      FinishesChain config (s :: rest) [item] ds n n'

inductive FinishesChains (config : Config) :
    List (List Sibling) → List Item → List Declaration → Numbering → Numbering → Prop where
  | nil {n} : FinishesChains config [] [] [] n n
  | cons {chain chains items more ds ds' n n' n''}
      (head : FinishesChain config chain items ds n n')
      (tail : FinishesChains config chains more ds' n' n'') :
      FinishesChains config (chain :: chains) (items ++ more) (ds ++ ds') n n''

/-! ## Elements -/

inductive GuardsItems : Option Code → List Item → List Item → List Declaration →
    Numbering → Numbering → Prop where
  | unconditional {items n} : GuardsItems none items items [] n n
  | nothing {condition n} : GuardsItems (some condition) [] [] [] n n
  | guarded {condition items n} (nonempty : items ≠ []) :
      GuardsItems (some condition) items (items.map (CompileM.guardItem n.temporary))
        [.assign n.temporary (.or condition (.constant none .null))] n n.withTemporary

/-- A component and the alias that its import binds. -/
structure Imported (K : Context) (path localName : String) : Prop where
  known : K.aliases.lookup path = some localName
  component : path ∈ K.manifest.components
  importable : Component.isImportable path

inductive CallsElement (config : Config) (K : Context) (tag : Tag) (written : Option Content)
    (parts : List Part) (items : List Item) : ElementKind → Code → Prop where
  | virtual {ns localName} (imported : Imported K (Component.modulePath ns tag.name) localName) :
      CallsElement config K tag written parts items (.virtual ns)
        (config.callPrimitive config.primitives.virtualElement
          [.ref localName, .dict (Entry.attributes .dict (Part.entries parts)),
            Item.assemble config items])
  | named {name localName} (names : Text.given (written.bind Content.text?) = some name)
      (imported : Imported K (Component.tagPath name) localName) :
      CallsElement config K tag written parts items .dynamic
        (config.callPrimitive config.primitives.virtualElement
          [.ref localName, .dict (Entry.attributes .dict (Part.entries parts)),
            Item.assemble config items])
  | computed {e code} (names : Text.given (written.bind Content.text?) = none)
      (expression : written = some (.expression e))
      (component : Part.component? parts = some code) :
      CallsElement config K tag written parts items .dynamic
        (config.callPrimitive config.primitives.virtualElement
          [code, .dict (Entry.attributes .dict (Part.entries parts)), Item.assemble config items])
  | custom {localName} (imported : Imported K (Component.tagPath tag.name) localName) :
      CallsElement config K tag written parts items .custom
        (config.callPrimitive config.primitives.customElement
          [.text (Component.tagPath tag.name), .ref localName,
            .dict (Entry.attributes .dict (Part.entries parts) ++
              if items.isEmpty then []
              else [("slotset", .dict (Item.slots config items))])])
  | plain :
      CallsElement config K tag written parts items .plain
        (config.callPrimitive config.primitives.element
          [.text tag.name, .dict (Entry.attributes .dict (Part.entries parts)),
            Item.assemble config items])

/-- How an element comes to its sibling: the declarations inside it go to the function it repeats,
or else out to the one around it. -/
inductive SealsElement (config : Config) (K : Context) (pos : Position) (tag : Tag)
    (readings : List Reading) (parts : List Part) (items : List Item) (ds : List Declaration) :
    ElementKind → Option Loop → Sibling → List Declaration → Numbering → Numbering → Prop where
  | spliced {kept guards n n'}
      (guarded : GuardsItems (Part.condition? parts) items kept guards n n') :
      SealsElement config K pos tag readings parts items ds .template none
        { item := { code := Item.assemble config kept, nested := true
                    slot := Reading.slotOf readings }
          pos, isAlternative := Part.isAlternative parts, form := .spliced kept }
        (ds ++ guards) n n'
  | iterated {loop kept guards code outer n n' n''}
      (guarded : GuardsItems (Part.condition? parts) items kept guards n n')
      (iterates : Iterates config loop (CompileM.iteratedBody config kept).1
        (CompileM.iteratedBody config kept).2 (ds ++ guards) code outer n' n'') :
      SealsElement config K pos tag readings parts items ds .template (some loop)
        { item := { code, nested := true, iteration := true, slot := Reading.slotOf readings }
          pos, isAlternative := Part.isAlternative parts } outer n n''
  | outlet {n} :
      SealsElement config K pos tag readings parts items ds .outlet none
        { item := { code := CompileM.outletCode config (Reading.outletName readings) items
                    nested := true, slot := Reading.slotOf readings }, pos } ds n n
  | fixed {kind code n} (condition : Part.condition? parts = none)
      (calls : CallsElement config K tag (Reading.component? readings) parts items kind code) :
      SealsElement config K pos tag readings parts items ds kind none
        { item := { code, slot := Reading.slotOf readings }
          pos, isAlternative := Part.isAlternative parts } ds n n
  | guarded {kind code test n} (condition : Part.condition? parts = some test)
      (calls : CallsElement config K tag (Reading.component? readings) parts items kind code) :
      SealsElement config K pos tag readings parts items ds kind none
        { item := { code, slot := Reading.slotOf readings }
          pos, isAlternative := Part.isAlternative parts, form := .guarded test } ds n n
  | repeated {kind code loop n}
      (calls : CallsElement config K tag (Reading.component? readings) parts items kind code) :
      SealsElement config K pos tag readings parts items ds kind (some loop)
        { item := { code, slot := Reading.slotOf readings }
          pos, isAlternative := Part.isAlternative parts
          form := .repeated loop ds (Part.condition? parts) } [] n n

def elementKind (tag : Tag) (readings : List Reading) : ElementKind :=
  .ofTag tag (Reading.component? readings).isSome

mutual

inductive LowersElement (env : Env) (K : Context) : List Binder → Place → Position → Tag →
    List Attribute → List Node → Sibling → List Declaration → Numbering → Numbering → Prop where
  | mk {binders place pos tag attributes children readings loop parts siblings items sibling ds₁ ds₂
      ds n n₁ n₂ n₃ n'}
      (reads : Reading.ofAttributes env.config [] attributes = .ok readings)
      (opens : OpensLoop env.config binders place readings loop)
      (lowersReadings : LowersReadings env K (binds (inside loop binders)) ⟨place, false⟩
        (elementKind tag readings).isComponent readings parts n n₁)
      (lowersChildren : LowersNodes env K (inside loop binders) place 0 children siblings ds₁ n₁ n₂)
      (finishes : FinishesChains env.config (Sibling.chains siblings) items ds₂ n₂ n₃)
      (seals : SealsElement env.config K pos tag readings parts items (ds₁ ++ ds₂)
        (elementKind tag readings) loop sibling ds n₃ n') :
      LowersElement env K binders place pos tag attributes children sibling ds n n'

inductive LowersNode (env : Env) (K : Context) : List Binder → Place → Nat → Node →
    List Sibling → List Declaration → Numbering → Numbering → Prop where
  | blank {binders around before pos value n} (empty : (Text.collapse value).isEmpty = true) :
      LowersNode env K binders around before (.text pos value) [] [] n n
  | text {binders around before pos value n} (shown : (Text.collapse value).isEmpty = false) :
      LowersNode env K binders around before (.text pos value)
        [{ item := { code := .text (Text.collapse value) }, pos }] [] n n
  | nothing {binders around before pos n} :
      LowersNode env K binders around before (.placeholder pos none) [] [] n n
  | placeholder {binders around before pos n} {e : Expr} (valid : e.check .child = .ok ()) :
      LowersNode env K binders around before (.placeholder pos (some e))
        [{ item := { code := env.config.callPrimitive env.config.primitives.text
                      [e.qualify env.config.instanceParam ⟨around, false⟩ (binds binders)] }
           pos }] [] n n
  | fragment {binders around before pos children siblings ds n n'}
      (lowersChildren : LowersNodes env K binders around before children siblings ds n n') :
      LowersNode env K binders around before (.fragment pos children) siblings ds n n'
  | element {binders around before pos tag attributes children sibling ds n n'}
      (lowers : LowersElement env K binders (around ++ [before]) pos tag attributes children
        sibling ds n n') :
      LowersNode env K binders around before (.element pos tag attributes children) [sibling] ds n
        n'

inductive LowersNodes (env : Env) (K : Context) : List Binder → Place → Nat → List Node →
    List Sibling → List Declaration → Numbering → Numbering → Prop where
  | nil {binders around before n} : LowersNodes env K binders around before [] [] [] n n
  | cons {binders around before node rest siblings more ds ds' n n' n''}
      (head : LowersNode env K binders around before node siblings ds n n')
      (tail : LowersNodes env K binders around (before + node.elements.length) rest more ds' n'
        n'') :
      LowersNodes env K binders around before (node :: rest) (siblings ++ more) (ds ++ ds') n n''

end

end TemplateCompiler
