import TemplateCompiler.Expr.Check
import TemplateCompiler.Markup.Display

/-!
# What an attribute's value says

A value is a constant or an expression. A bare attribute says true; every other node, and an empty
placeholder, is refused.
-/

namespace TemplateCompiler

inductive Content where
  | constant (c : Constant)
  | expression (e : Expr)
deriving DecidableEq

namespace Content

def text? : Content → Option String
  | constant c => c.text?
  | expression _ => none

def ofAttribute (a : Attribute) : Except Problem Content :=
  match a.value with
  | .bare => .ok (constant (.bool true))
  | .node (.literal _ c) => .ok (constant c)
  | .node (.placeholder _ none) => .error (.emptyExpression a.tag.qualified)
  | .node (.placeholder _ (some e)) => do
    e.check .value
    return expression e
  | .node other => .error (.notAValue a.tag.qualified other.shown)
  | .constant c => .error (.notAValue a.tag.qualified c.display)

end Content

end TemplateCompiler
