import TemplateCompiler.Markup.Node

/-!
# Markup nodes in messages

A message that refuses a node as an attribute's value shows it with all its fields, positions
first; an element there is only named.
-/

namespace TemplateCompiler

def displayPart : Option Int → String
  | some n => toString n
  | none => "None"

def Position.display (pos : Position) : String :=
  s!"lineno={displayPart pos.line}, col_offset={displayPart pos.column}"

def displayOptional : Option String → String
  | some s => Text.quoted s
  | none => "None"

/-- Only the kind of an expression is shown. -/
def displayExpression : Option Expr → String
  | none => "None"
  | some (.name ..) => "Name"
  | some (.member ..) => "Attribute"
  | some (.index ..) => "Subscript"
  | some (.constant ..) => "Constant"
  | some (.foreign _ kind) => kind

mutual

def Node.display : Node → String
  | .element pos tag attributes children =>
    s!"Element({pos.display}, tag={Text.quoted tag.name}, " ++
      s!"namespace={displayOptional tag.ns}, " ++
      s!"attributes={Text.tuple (displayAttributes attributes)}, " ++
      s!"children={Text.tuple (displayNodes children)})"
  | .text pos value => s!"Text({pos.display}, value={Text.quoted value})"
  | .placeholder pos expression =>
    s!"ExpressionContainer({pos.display}, expression={displayExpression expression})"
  | .fragment pos children =>
    s!"Fragment({pos.display}, children={Text.tuple (displayNodes children)})"
  | .literal pos value => s!"Literal({pos.display}, value={value.display})"
  | .attr a => displayAttribute a
  | .template pos body => s!"Template({pos.display}, body={Text.tuple (displayNodes body)})"

def displayNodes : List Node → List String
  | [] => []
  | node :: rest => node.display :: displayNodes rest

def displayAttribute : Attribute → String
  | ⟨pos, tag, value⟩ =>
    s!"Attribute({pos.display}, name={Text.quoted tag.name}, " ++
      s!"namespace={displayOptional tag.ns}, value={displayValue value})"

def displayAttributes : List Attribute → List String
  | [] => []
  | a :: rest => displayAttribute a :: displayAttributes rest

def displayValue : AttributeValue → String
  | .bare => "None"
  | .node node => node.display
  | .constant value => value.display

end

/-- How a message names a node that cannot be a value. -/
def Node.shown : Node → String
  | .element .. => "Element"
  | node => node.display

end TemplateCompiler
