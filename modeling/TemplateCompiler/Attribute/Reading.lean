import TemplateCompiler.Attribute.Content
import TemplateCompiler.Attribute.Role
import TemplateCompiler.Config

/-!
# Attributes by what they are for

An element's attributes are read one by one, and the first that is wrong is reported at its own
place. Each reading has exactly one use: a part of an iteration, the component to call, a
condition, the mark of an alternative, the mark of a slot, or a property.
-/

namespace TemplateCompiler

/-- A part of an iteration; a condition or an alternative in the iteration's namespace is an idle
one. -/
inductive LoopPart where
  | statement (s : ForStatement)
  | each (content : Content)
  | item (name : String)
  | index (name : String)
  | idle
deriving DecidableEq

structure Property where
  key : String
  isEvent : Bool
  directive : Option Directive
  content : Content
deriving DecidableEq

inductive Reading where
  | iteration (part : LoopPart)
  | component (content : Content)
  | condition (content : Content)
  | alternative (content : Content)
  | slot (name : Option String)
  | property (p : Property)
deriving DecidableEq

namespace Reading

def isDirective : Reading → Bool
  | iteration _ | component _ | condition _ | alternative _ => true
  | slot _ => false
  | property p => p.directive.isSome

/-- Names an iteration may not bind, the module's own. -/
def checkParameters (config : Config) (names : List String) : Except Problem Unit :=
  match names.find? config.reserved.contains with
  | some name => .error (.reservedParameter name)
  | none => .ok ()

def parameterName (config : Config) (m : Modifier) (content : Content) : Except Problem String :=
  match content.text? with
  | some name =>
    if isIdentifier name then do
      checkParameters config [name]
      return name
    else .error (.parameterNotIdentifier m.name)
  | none => .error (.parameterNotIdentifier m.name)

def loopPart (config : Config) (m : Modifier) (content : Content) : Except Problem LoopPart :=
  match m with
  | .statement =>
    match content.text? with
    | none => .error .statementNotText
    | some text =>
      match ForStatement.parse text with
      | .error fault => .error (.statement fault)
      | .ok s => do
        checkParameters config s.parameters
        return .statement s
  | .each => .ok (.each content)
  | .item => .item <$> parameterName config m content
  | .index => .index <$> parameterName config m content
  | .condition | .alternative | .component => .ok .idle

/-- The slot a marker names; a marker without a name, or with an empty one, names none. -/
def slotName (content : Content) : Except Problem (Option String) :=
  match content with
  | .constant (.bool _) => .ok none
  | .constant (.text name) => .ok (Text.given (some name))
  | _ => .error .slotNotText

/-- The use of an attribute, by its name and its content. -/
def ofRole (config : Config) (qualified : String) (role : Role) (content : Content) :
    Except Problem Reading :=
  match role with
  | .modifier .iterate m => .iteration <$> loopPart config m content
  | .event .iterate _ | .directed .iterate _ => .error (.unknownIteration qualified)
  | .modifier _ .condition => .ok (.condition content)
  | .modifier _ .alternative => .ok (.alternative content)
  | .modifier d m => .ok (.property ⟨m.name, false, some d, content⟩)
  | .event d key => .ok (.property ⟨key, true, some d, content⟩)
  | .directed d key => .ok (.property ⟨key, false, some d, content⟩)
  | .component => .ok (.component content)
  | .slot => .slot <$> slotName content
  | .plain key => .ok (.property ⟨key, false, none, content⟩)

/-- One attribute's reading and the modifier it takes up, of which an element has only one. -/
def ofAttribute (config : Config) (taken : List Modifier) (a : Attribute) :
    Except Problem (Reading × Option Modifier) := do
  let role ← Role.ofTag a.tag
  let content ← Content.ofAttribute a
  let reading ← ofRole config a.tag.qualified role content
  if role.modifier?.any taken.contains then
    .error (.duplicateDirective a.tag.qualified)
  else return (reading, role.modifier?)

def ofAttributes (config : Config) (taken : List Modifier) :
    List Attribute → Except (Problem × Position) (List Reading)
  | [] => .ok []
  | a :: rest =>
    match ofAttribute config taken a with
    | .error problem => .error (problem, a.pos)
    | .ok (reading, m) => (reading :: ·) <$> ofAttributes config (m.toList ++ taken) rest

/-! ## What an element's readings come to -/

def loopParts (readings : List Reading) : List LoopPart :=
  readings.filterMap fun
    | iteration part => some part
    | _ => none

def component? (readings : List Reading) : Option Content :=
  readings.findSome? fun
    | component content => some content
    | _ => none

/-- The slot that an element's content goes to: the last marker counts. -/
def slotOf (readings : List Reading) : Option String :=
  (readings.filterMap fun
    | slot name => some name
    | _ => none).getLast?.join

/-- The name of a slot outlet: the last that is not empty. -/
def outletName (readings : List Reading) : Option String :=
  (readings.filterMap fun
    | property ⟨"name", false, none, content⟩ => Text.given content.text?
    | _ => none).getLast?

end Reading

end TemplateCompiler
