import TemplateCompiler.Context

/-!
# Bound callbacks

A callback receives the instance. A member of the instance is bound already; anything else is bound
through the bind helper. A callback that the instance alone decides is kept in the instance's memo,
so that every rendering passes the same one; one that mentions an iteration's name differs from
item to item and is not kept.
-/

namespace TemplateCompiler

/-- Whether code is a member of the instance itself. -/
def Code.isMethodOf (inst : String) : Code → Bool
  | .member _ (.ref id) _ | .member _ (.name _ _ id) _ => id == inst
  | _ => false

def Code.isNamed (id : String) : Code → Bool
  | .ref other | .name _ _ other => other == id
  | _ => false

namespace CompileM

/-- The value under a memo's key, put there when it is first asked for. -/
def memoized (env : Env) (key : String) (value : Code) : Code :=
  let memo := env.config.contextParam
  .or (.call (.refMember memo "get") [.text key])
    (.call (.refMember memo "setdefault") [.text key, value])

def bindCallback (env : Env) (target : Code) : CompileM Code := do
  let inst := env.config.instanceParam
  let value ←
    if target.isMethodOf inst then pure target
    else do
      modify fun ctx => { ctx with bindsCallbacks := true }
      pure (.call (.ref env.config.bindHelper) [target, .ref inst])
  let scope := (← get).scope
  if target.root.isNamed inst && !value.names.any scope.isBound then
    return memoized env (← memoKey env) value
  else return value

end CompileM

end TemplateCompiler
