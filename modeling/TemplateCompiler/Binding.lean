import TemplateCompiler.Expr.Check
import TemplateCompiler.Expr.Qualify

/-!
# Bindings written as text

A directive's text names what it binds, without the white space around it: a dotted path of
identifiers, read like the chain it spells, or a dashed name without a dot, read as a subscript of
the instance. The parts of a dashed name may be empty and may be keywords.
-/

namespace TemplateCompiler

namespace Binding

/-- The chain a path spells. -/
def chain (first : String) (rest : List String) : Expr :=
  rest.foldl (fun e id => .member none e id) (.name none first)

def isDashed (text : String) : Bool :=
  text.toList.contains '-' && !text.toList.contains '.' &&
    (Text.split '-' text).all fun part => part.isEmpty || Identifier.hasShape part

inductive Form where
  | path (e : Expr)
  | dashed (name : String)

/-- What a text binds, if it is a binding at all. -/
def form (text : String) : Except Problem Form :=
  let name := Text.stripped text
  match identifierPath? name with
  | some (first :: rest) =>
    if first = Expr.selfName then .error .selfReference else .ok (.path (chain first rest))
  | _ => if isDashed name then .ok (.dashed name) else .error (.invalidBinding name)

end Binding

namespace CompileM

def binding (env : Env) (site : Site) (text : String) (pos : Position) : CompileM Code :=
  match Binding.form text with
  | .error problem => reject problem pos
  | .ok (.path e) => qualify env site e
  | .ok (.dashed name) => do
    useName name
    return .index none (.ref env.config.instanceParam) (.text name)

end CompileM

end TemplateCompiler
