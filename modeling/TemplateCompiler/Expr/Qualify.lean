import TemplateCompiler.Context

/-!
# Names read from the instance

A name that no open frame binds is read as a member of the instance, at the root of a chain as in a
subscript; names after a dot stay. The new read has no span of its own. What is read so is recorded
as used, in the order in which it is written.
-/

namespace TemplateCompiler

namespace Expr

def qualify (inst : String) (site : Site) (bound : String → Bool) : Expr → Code
  | .name span id => if bound id then .name site span id else .refMember inst id
  | .member span value id => .member span (value.qualify inst site bound) id
  | .index span value key =>
    .index span (value.qualify inst site bound) (key.qualify inst site bound)
  | .constant span c => .constant span c
  | .foreign span kind => .foreign span kind

/-- The names an expression reads from the instance, with repetition. -/
def freeNames (bound : String → Bool) : Expr → List String
  | .name _ id => if bound id then [] else [id]
  | .member _ value _ => value.freeNames bound
  | .index _ value key => value.freeNames bound ++ key.freeNames bound
  | .constant .. | .foreign .. => []

end Expr

namespace CompileM

def qualify (env : Env) (site : Site) (e : Expr) : CompileM Code := do
  let bound := (← get).scope.isBound
  (e.freeNames bound).forM useName
  return e.qualify env.config.instanceParam site bound

end CompileM

end TemplateCompiler
