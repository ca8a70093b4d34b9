import TemplateCompiler.Attribute.Reading
import TemplateCompiler.Binding
import TemplateCompiler.Callback
import TemplateCompiler.Text.InlineStyle

/-!
# The attributes passed to a call

Properties become entries of the call's attributes: key, class and style at the top, all others in
groups. Data attributes go to the dataset, event handlers to the handlers, and the rest to the
properties of a component or the attributes of an element. Groups follow the top entries in the
order of their first use.
-/

namespace TemplateCompiler

inductive Group where
  | attrs
  | props
  | dataset
  | on
deriving DecidableEq, Repr

def Group.key : Group → String
  | attrs => "attrs"
  | props => "props"
  | dataset => "dataset"
  | on => "on"

/-- An entry of the attributes; one without a group stands at the top. -/
structure Entry (α : Type) where
  group : Option Group
  key : String
  value : α

namespace Entry

def topKeys : List String := ["key", "class", "style"]

/-- A constant style is passed as its declarations. -/
def topValue (key : String) (value : Code) : Code :=
  if key = "style" then
    match value.text? with
    | some style => .dict ((Text.inlineStyle style).map fun entry => (entry.1, .text entry.2))
    | none => value
  else value

def groupOf (isComponent : Bool) (p : Property) : Group :=
  if p.isEvent then .on
  else if Text.isData p.key then .dataset
  else if isComponent then .props
  else .attrs

def groupKey (isComponent : Bool) (key : String) : String :=
  if Text.isData key then Text.dataKey key
  else if isComponent && !Text.isNamespaced key then Text.camelCase key
  else key

def ofProperty (isComponent : Bool) (p : Property) (value : Code) : Entry Code :=
  if topKeys.contains p.key then ⟨none, p.key, topValue p.key value⟩
  else ⟨some (groupOf isComponent p), groupKey isComponent p.key, value⟩

def inGroup {α : Type} (entries : List (Entry α)) (group : Option Group) : List (String × α) :=
  (entries.filter fun e => e.group == group).map fun e => (e.key, e.value)

/-- The groups in use, in the order of their first use. -/
def groups {α : Type} (entries : List (Entry α)) : List Group :=
  (entries.filterMap Entry.group).eraseDups

/-- The attributes, with each group gathered in a dictionary of its own. -/
def attributes {α : Type} (dict : List (String × α) → α) (entries : List (Entry α)) :
    List (String × α) :=
  inGroup entries none ++
    (groups entries).map fun group => (group.key, dict (inGroup entries (some group)))

end Entry

/-- What a reading comes to once its names are resolved. -/
inductive Part where
  | condition (code : Code)
  | alternative
  | component (code : Code)
  | entry (e : Entry Code)

namespace Part

def condition? (parts : List Part) : Option Code :=
  parts.findSome? fun
    | condition code => some code
    | _ => none

def isAlternative (parts : List Part) : Bool :=
  parts.any fun
    | alternative => true
    | _ => false

def component? (parts : List Part) : Option Code :=
  parts.findSome? fun
    | component code => some code
    | _ => none

def entries (parts : List Part) : List (Entry Code) :=
  parts.filterMap fun
    | entry e => some e
    | _ => none

end Part

namespace CompileM

/-- The code of a content; the text of a directive is a binding. -/
def resolve (env : Env) (site : Site) (pos : Position) (isDirective : Bool) (content : Content) :
    CompileM Code :=
  match content with
  | .expression e => qualify env site e
  | .constant c =>
    match c.text? with
    | some text => if isDirective then binding env site text pos else pure (.constant none c)
    | none => pure (.constant none c)

def resolveProperty (env : Env) (site : Site) (pos : Position) (isComponent : Bool)
    (p : Property) : CompileM (Entry Code) := do
  let value ← resolve env site pos p.directive.isSome p.content
  if p.isEvent && p.directive == some .bind then
    return .ofProperty isComponent p (← bindCallback env value)
  else return .ofProperty isComponent p value

def resolveReading (env : Env) (site : Site) (pos : Position) (isComponent : Bool) :
    Reading → CompileM (List Part)
  | .iteration _ => pure []
  | .slot _ => pure []
  | .component content => do return [.component (← resolve env site pos false content)]
  | .condition content => do return [.condition (← resolve env site pos true content)]
  | .alternative content => do
    let _ ← resolve env site pos true content
    return [.alternative]
  | .property p => do return [.entry (← resolveProperty env site pos isComponent p)]

def resolveReadings (env : Env) (site : Site) (pos : Position) (isComponent : Bool) :
    List Reading → CompileM (List Part)
  | [] => pure []
  | reading :: rest => do
    let parts ← resolveReading env site pos isComponent reading
    let more ← resolveReadings env site pos isComponent rest
    return parts ++ more

end CompileM

end TemplateCompiler
