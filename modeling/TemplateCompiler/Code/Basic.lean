import TemplateCompiler.Expr.Basic

/-!
# Generated code

The expressions of a generated module. A part taken over from a template expression keeps its span;
everything else has none of its own and stands where the nearest part around it does. A name left as
it is keeps the site where the template mentions it, and a function the place of the element that it
is made for; neither is shown.
-/

namespace TemplateCompiler

inductive Code where
  /-- A name of the generated module itself. -/
  | ref (id : String)
  /-- A name of the template, bound by an iteration. -/
  | name (site : Site) (span : Option Span) (id : String)
  | member (span : Option Span) (value : Code) (name : String)
  | index (span : Option Span) (value key : Code)
  | constant (span : Option Span) (value : Constant)
  | foreign (span : Option Span) (kind : String)
  | call (callee : Code) (arguments : List Code)
  | dict (entries : List (String × Code))
  | list (items : List Code)
  | conditional (test body alternative : Code)
  | and (left right : Code)
  | or (left right : Code)
  | lambda (place : Place) (parameters : List String) (body : Code)

namespace Code

def span? : Code → Option Span
  | name _ span _ | member span _ _ | index span _ _ | constant span _ | foreign span _ => span
  | _ => none

/-- The span of a piece of code that stands within another. -/
def spanWithin (outer : Span) (code : Code) : Span :=
  code.span?.getD outer

/-- A text of the generated module itself. -/
def text (s : String) : Code := .constant none (.text s)

/-- The member of a generated name. -/
def refMember (id member : String) : Code := .member none (ref id) member

/-- The text of a constant that is one. -/
def text? : Code → Option String
  | .constant _ c => c.text?
  | _ => none

/-- What a chain of members and subscripts starts from. -/
def root : Code → Code
  | .member _ value _ => value.root
  | .index _ value _ => value.root
  | code => code

mutual

/-- Every name a piece of code reads, parameters of its own included. -/
def names : Code → List String
  | .ref id | .name _ _ id => [id]
  | .member _ value _ => value.names
  | .index _ value key => value.names ++ key.names
  | .constant .. | .foreign .. => []
  | .call callee arguments => callee.names ++ listNames arguments
  | .dict entries => entryNames entries
  | .list items => listNames items
  | .conditional test body alternative => test.names ++ body.names ++ alternative.names
  | .and left right | .or left right => left.names ++ right.names
  | .lambda _ _ body => body.names

def listNames : List Code → List String
  | [] => []
  | code :: rest => code.names ++ listNames rest

def entryNames : List (String × Code) → List String
  | [] => []
  | (_, code) :: rest => code.names ++ entryNames rest

end

end Code

/-- A template expression taken over as it is. -/
def Expr.toCode : Expr → Code
  | .name span id => .name ⟨[], false⟩ span id
  | .member span value id => .member span value.toCode id
  | .index span value key => .index span value.toCode key.toCode
  | .constant span c => .constant span c
  | .foreign span kind => .foreign span kind

end TemplateCompiler
