import TemplateCompiler.Diagnostic.Problem
import TemplateCompiler.Markup.Node
import TemplateCompiler.Text.Blank

/-!
# What an attribute's name says

A namespace makes an attribute a directive, unless it is one of SVG and XML, which stay part of the
name. A directive may carry a modifier or an event; without a namespace an event is bound, and the
names is and slot have a meaning of their own.
-/

namespace TemplateCompiler

inductive Directive where
  | set
  | bind
  | iterate
deriving DecidableEq, Repr

def Directive.ofNamespace? : String → Option Directive
  | "set" => some .set
  | "bind" => some .bind
  | "repeat" => some .iterate
  | "for" => some .iterate
  | _ => none

inductive Modifier where
  | condition
  | alternative
  | statement
  | each
  | item
  | index
  | component
deriving DecidableEq, Repr

namespace Modifier

def name : Modifier → String
  | condition => "if"
  | alternative => "else"
  | statement => "for"
  | each => "each"
  | item => "item"
  | index => "index"
  | component => "is"

/-- The modifiers that a namespace can precede. -/
def ofName? : String → Option Modifier
  | "if" => some condition
  | "else" => some alternative
  | "for" => some statement
  | "each" => some each
  | "item" => some item
  | "index" => some index
  | _ => none

end Modifier

/-- What kind of attribute a name makes. -/
inductive Role where
  | modifier (directive : Directive) (modifier : Modifier)
  | event (directive : Directive) (key : String)
  | directed (directive : Directive) (key : String)
  | component
  | slot
  | plain (key : String)
deriving DecidableEq, Repr

namespace Role

/-- The event that a name handles: what stands behind its first two letters. -/
def eventKey? (name : String) : Option String :=
  match name.toList with
  | 'o' :: 'n' :: c :: rest => some (String.ofList (c :: rest))
  | _ => none

/-- The namespaces that are part of an attribute's name. -/
def foreignNamespaces : List String := ["xlink", "xml", "xmlns"]

def ofDirective (directive : Directive) (name : String) : Role :=
  match Modifier.ofName? name, eventKey? name with
  | some m, _ => .modifier directive m
  | none, some key => .event directive key
  | none, none => .directed directive name

def ofBareName (name : String) : Role :=
  match eventKey? name with
  | some key => .event .bind key
  | none =>
    if name = "is" then .component
    else if name = "slot" then .slot
    else .plain name

def ofTag (tag : Tag) : Except Problem Role :=
  match Text.given tag.ns with
  | none => .ok (ofBareName tag.name)
  | some ns =>
    if foreignNamespaces.contains ns then .ok (.plain s!"{ns}:{tag.name}")
    else match Directive.ofNamespace? ns with
      | some directive => .ok (ofDirective directive tag.name)
      | none => .error (.unknownNamespace ns tag.qualified)

/-- What an element can have only one of. -/
def modifier? : Role → Option Modifier
  | .modifier _ m => some m
  | .component => some .component
  | .event .. | .directed .. | .slot | .plain _ => none

end Role

end TemplateCompiler
