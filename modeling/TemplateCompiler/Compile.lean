import TemplateCompiler.Element.Lowering

/-!
# Compiling a unit

A unit holds one template element, apart from blank text. Its function returns the list of the
template's items; the declarations of the outermost frame come first.
-/

namespace TemplateCompiler

structure Compiled where
  module : Module
  dependencies : List String

def Node.isBlank : Node → Bool
  | .text _ value => (Text.collapse value).isEmpty
  | _ => false

namespace CompileM

/-- The code of a unit's one template element. -/
def lowerRoot (env : Env) (template : Template) : CompileM Code :=
  match template.body.filter fun node => !node.isBlank with
  | [] => reject .missingRoot template.pos
  | _ :: second :: _ => reject .unexpectedToken second.pos
  | [.element pos ⟨none, "template"⟩ attributes children] => do
    let root ← lowerElement env [] pos ⟨none, "template"⟩ attributes (lowerNodes env [] 0 children)
    return root.item.code
  | [root] => reject .rootNotTemplate root.pos

def importOf (env : Env) (path : String) : CompileM Import := do
  return { path, localName := ← componentAlias env path }

def importsOf (env : Env) : List String → CompileM (List Import)
  | [] => pure []
  | path :: rest => do
    let item ← importOf env path
    let more ← importsOf env rest
    return item :: more

def renderFunction (config : Config) (declarations : List Declaration) (result : Code) :
    Function :=
  { name := config.functionName
    place := []
    parameters :=
      [config.apiParam, config.instanceParam, config.slotsetParam, config.contextParam]
    declarations, result }

def compileUnit (env : Env) (template : Template) : CompileM Compiled := do
  note (.started env.title)
  openScope []
  let result ← lowerRoot env template
  let declarations ← closeScope
  let manifest := (← get).manifest
  let imports ← importsOf env manifest.components
  let bindHelper := if (← get).bindsCallbacks then some env.config.bindHelper else none
  note (.finished env.title imports.length manifest.usedNames.length)
  let function := renderFunction env.config declarations result
  return {
    module :=
      { bindHelper, imports, function, manifestName := env.config.usedIdsName
        usedNames := manifest.usedNames }
    dependencies := manifest.components }

end CompileM

/-- The compiled unit or the reason there is none, and the log of the compilation. -/
def compile (env : Env) (template : Template) : Except Failure Compiled × List Event :=
  match (CompileM.compileUnit env template).run .initial with
  | .ok compiled ctx => (.ok compiled, ctx.log)
  | .error failure ctx => (.error failure, ctx.log)

/-- The file name that a module's code is compiled under. -/
def Env.codeFilename (env : Env) : String :=
  (Text.given env.filename).getD "<template>"

end TemplateCompiler
