import TemplateCompiler.Identifier.Basic
import TemplateCompiler.Identifier.Digit
import TemplateCompiler.Text.Blank

/-!
# Component modules

A component's module path is its namespace and its name with low lines for dashes; a dashed tag
holds both, around its first dash. The alias a module is imported under is its path with low lines
for dots, made unique by a number where it is taken.
-/

namespace TemplateCompiler.Component

def underscored (separator : Char) (s : String) : String :=
  String.ofList (s.toList.map fun c => if c = separator then '_' else c)

def modulePath (ns name : String) : String :=
  if name.isEmpty then ns else ns ++ "." ++ underscored '-' name

/-- The module behind a dashed tag. -/
def tagPath (tag : String) : String :=
  let parts := Text.cut '-' tag.toList
  modulePath (String.ofList parts.1) (String.ofList (parts.2.getD []))

/-- A path that an import can name. -/
def isImportable (path : String) : Bool :=
  (identifierPath? path).isSome

/-- The alias of a module that no other name stands in the way of. -/
def plainAlias (path : String) : String :=
  "_" ++ underscored '.' path

/-- A name of the form in which temporaries and loop functions are numbered. -/
def isNumbered (name : String) : Bool :=
  ["_expr", "_loop"].any fun stem =>
    stem.toList.isPrefixOf name.toList &&
      let digits := name.toList.drop stem.length
      !digits.isEmpty && digits.all Identifier.isDigit

/-- The base itself, then the base with 1, 2 and so on. -/
def candidate (base : String) (n : Nat) : String :=
  if n = 0 then base else s!"{base}_{n}"

def isFree (taken : List String) (name : String) : Bool :=
  !taken.contains name && !isNumbered name

/-- The first free candidate. One more than there are taken names leaves a free one, as at most the
base itself has a numbered form. -/
def freshAlias (taken : List String) (base : String) : String :=
  (((List.range (taken.length + 2)).map (candidate base)).find? (isFree taken)).getD base

end TemplateCompiler.Component
