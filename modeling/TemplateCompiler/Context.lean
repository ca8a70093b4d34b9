import TemplateCompiler.Code.Primitive
import TemplateCompiler.Component
import TemplateCompiler.Diagnostic.Problem
import TemplateCompiler.Diagnostic.Report
import TemplateCompiler.Event
import TemplateCompiler.Manifest
import TemplateCompiler.Scope

/-!
# The state of one compilation

What stays fixed is the environment: the configuration and what is known of the template. What
changes is the context: open scopes, dependencies, names handed out so far, and the log. A
compilation step changes the context and may fail; the context it leaves then is kept, since the
log is part of it.
-/

namespace TemplateCompiler

structure Env where
  config : Config
  name : Option String
  filename : Option String
  source : Option String

/-- The unit as its callbacks are keyed. -/
def Env.label (env : Env) : String :=
  ((Text.given env.name).or (Text.given env.filename)).getD env.config.functionName

/-- The unit as the log calls it. -/
def Env.title (env : Env) : String :=
  ((Text.given env.name).or (Text.given env.filename)).getD "<template>"

/-- A message about a place of the template. -/
def Env.report (env : Env) (message : String) (code : Option ErrorCode) (pos : Position) :
    Report :=
  { message, code, pos, name := env.name, filename := env.filename, source := env.source }

/-- What a violation is reported as. -/
def Env.rejection (env : Env) (problem : Problem) (pos : Position) : Report :=
  env.report problem.message (some problem.code) pos

/-- The nodes that are no content. -/
inductive Misplaced where
  | literal
  | attr
  | template
deriving DecidableEq, Repr

def Misplaced.message : Misplaced → String
  | literal => "Unsupported markup node: Literal"
  | attr => "Unsupported markup node: Attribute"
  | template => "Unsupported markup node: Template"

/-- Why a compilation ends without a module. -/
inductive Failure where
  | violation (problem : Problem) (pos : Position)
  | misplaced (node : Misplaced)
  | scope (fault : Scope.Fault)
deriving DecidableEq, Repr

structure Context where
  scope : Scope
  manifest : Manifest
  aliases : List (String × String)
  counters : List (String × Nat)
  bindsCallbacks : Bool
  log : List Event

def Context.initial : Context :=
  { scope := .empty, manifest := .empty, aliases := [], counters := [], bindsCallbacks := false
    log := [] }

abbrev CompileM := EStateM Failure Context

namespace CompileM

def reject {α : Type} (problem : Problem) (pos : Position) : CompileM α :=
  throw (.violation problem pos)

/-- A check that a node has to pass. -/
def check (pos : Position) (result : Except Problem Unit) : CompileM Unit :=
  match result with
  | .ok () => pure ()
  | .error problem => reject problem pos

def note (event : Event) : CompileM Unit :=
  modify fun ctx => { ctx with log := ctx.log ++ [event] }

def useName (name : String) : CompileM Unit :=
  modify fun ctx => { ctx with manifest := ctx.manifest.useName name }

/-! ## Scopes -/

def openScope (names : List String) : CompileM Unit := do
  modify fun ctx => { ctx with scope := ctx.scope.enter names }
  note (.opened (← get).scope.depth names)

def closeScope : CompileM (List Declaration) := do
  let ctx ← get
  match ctx.scope.close with
  | .error fault => throw (.scope fault)
  | .ok (declarations, scope) =>
    set { ctx with scope }
    note (.closed ctx.scope.depth declarations.length)
    return declarations

def queue (declaration : Declaration) : CompileM Unit := do
  let ctx ← get
  match ctx.scope.queue declaration with
  | .error fault => throw (.scope fault)
  | .ok scope => set { ctx with scope }

/-! ## Names -/

def numberedName (stem : String) (n : Nat) : String :=
  s!"_{stem}{n}"

/-- A name numbered within its stem: the first is 0. -/
def uniqueName (stem : String) : CompileM String := do
  let ctx ← get
  let n := (ctx.counters.lookup stem).getD 0
  set { ctx with counters := (stem, n + 1) :: ctx.counters }
  return numberedName stem n

/-- The alias of a component module, the same whenever it is asked for. -/
def componentAlias (env : Env) (path : String) : CompileM String := do
  let ctx ← get
  match ctx.aliases.lookup path with
  | some known => return known
  | none =>
    let taken := ctx.aliases.map Prod.snd ++ [env.config.bindHelper]
    let fresh := Component.freshAlias taken (Component.plainAlias path)
    set { ctx with aliases := ctx.aliases ++ [(path, fresh)] }
    return fresh

/-- The key of one callback in the instance's memo, told apart from those of other units. -/
def memoKey (env : Env) : CompileM String := do
  let name ← uniqueName "m"
  return s!"{env.label}:{name}"

end CompileM

end TemplateCompiler
