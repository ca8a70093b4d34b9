import TemplateCompiler.Code.Basic

/-!
# Generated modules

A function's body is a row of declarations and a result: temporaries, and functions that iterations
call for each item. A function is made for the element at its place, a unit's for the root. A module
imports what its function needs, defines it, and lists the names it reads from the instance.
-/

namespace TemplateCompiler

mutual

structure Function where
  name : String
  place : Place
  parameters : List String
  declarations : List Declaration
  result : Code

inductive Declaration where
  | assign (name : String) (value : Code)
  | define (function : Function)

end

/-- A component module and the name it is imported under. -/
structure Import where
  path : String
  localName : String
deriving DecidableEq, Repr

structure Module where
  /-- The name callbacks are bound through, in a module that binds any. -/
  bindHelper : Option String
  imports : List Import
  function : Function
  manifestName : String
  usedNames : List String

/-- The statements of a module's body. -/
inductive Statement where
  | importFrom (path name localName : String)
  | importModule (item : Import)
  | define (function : Function)
  | manifest (name : String) (members : List String)

/-- The bind helper is another name of the method type. -/
def Module.body (m : Module) : List Statement :=
  (m.bindHelper.map (.importFrom "types" "MethodType")).toList ++ m.imports.map .importModule ++
    [.define m.function, .manifest m.manifestName m.usedNames]

end TemplateCompiler
