import TemplateCompiler.Code.Module
import TemplateCompiler.Identifier.Basic

/-!
# Modules as syntax trees

The tree that a module is handed over as: a connective has a row of operands, a dictionary a row of
keys and one of values, and a function a row of statements, the last of which returns. Not every
tree is one that can be read: names have to be identifiers, rows have to fit one another, and a
function returns in the end and nowhere else (`TreeStatement.IsTopLevel`).
-/

namespace TemplateCompiler

inductive Connective where
  | and
  | or

inductive Tree where
  | name (id : String)
  | attribute (value : Tree) (name : String)
  | subscript (value key : Tree)
  | constant (value : Constant)
  | foreign (kind : String)
  | call (callee : Tree) (arguments : List Tree)
  | dict (keys values : List Tree)
  | list (items : List Tree)
  | tuple (items : List Tree)
  | conditional (test body alternative : Tree)
  | connected (connective : Connective) (operands : List Tree)
  | lambda (parameters : List String) (body : Tree)

inductive TreeStatement where
  | assign (target : String) (value : Tree)
  | define (name : String) (parameters : List String) (body : List TreeStatement)
  | returns (value : Tree)
  | importModule (path localName : String)
  | importFrom (path name localName : String)

/-! ## The tree of a module -/

namespace Code

mutual

def tree : Code → Tree
  | .ref id | .name _ _ id => .name id
  | .member _ value field => .attribute value.tree field
  | .index _ value key => .subscript value.tree key.tree
  | .constant _ c => .constant c
  | .foreign _ kind => .foreign kind
  | .call callee arguments => .call callee.tree (listTrees arguments)
  | .dict entries => .dict (entries.map fun e => .constant (.text e.1)) (entryTrees entries)
  | .list items => .list (listTrees items)
  | .conditional test body alternative => .conditional test.tree body.tree alternative.tree
  | .and left right => .connected .and [left.tree, right.tree]
  | .or left right => .connected .or [left.tree, right.tree]
  | .lambda _ parameters body => .lambda parameters body.tree

def listTrees : List Code → List Tree
  | [] => []
  | code :: rest => code.tree :: listTrees rest

def entryTrees : List (String × Code) → List Tree
  | [] => []
  | (_, code) :: rest => code.tree :: entryTrees rest

end

theorem listTrees_eq_map (codes : List Code) : listTrees codes = codes.map tree := by
  induction codes with
  | nil => rfl
  | cons code rest ih => rw [listTrees, ih, List.map_cons]

theorem entryTrees_eq_map (entries : List (String × Code)) :
    entryTrees entries = entries.map fun e => e.2.tree := by
  induction entries with
  | nil => rfl
  | cons e rest ih => rw [entryTrees, ih, List.map_cons]

end Code

mutual

def Function.tree : Function → TreeStatement
  | ⟨name, _, parameters, declarations, result⟩ =>
    .define name parameters (statementTrees declarations ++ [.returns result.tree])

def Declaration.tree : Declaration → TreeStatement
  | .assign name value => .assign name value.tree
  | .define f => f.tree

def statementTrees : List Declaration → List TreeStatement
  | [] => []
  | d :: rest => d.tree :: statementTrees rest

end

theorem statementTrees_eq_map (ds : List Declaration) :
    statementTrees ds = ds.map Declaration.tree := by
  induction ds with
  | nil => rfl
  | cons d rest ih => rw [statementTrees, ih, List.map_cons]

theorem Function.tree_eq (f : Function) : f.tree = .define f.name f.parameters
    (f.declarations.map Declaration.tree ++ [.returns f.result.tree]) := by
  cases f
  rw [Function.tree, statementTrees_eq_map]

def Statement.tree : Statement → TreeStatement
  | .importFrom path name localName => .importFrom path name localName
  | .importModule item => .importModule item.path item.localName
  | .define f => f.tree
  | .manifest name members => .assign name (.tuple (members.map fun m => .constant (.text m)))

def Module.tree (m : Module) : List TreeStatement :=
  m.body.map Statement.tree

/-! ## Trees that are well formed -/

/-- A path of identifiers with dots between them. -/
def IsDottedPath (path : String) : Prop :=
  ∃ segments : List String, segments ≠ [] ∧ (∀ s ∈ segments, isIdentifier s) ∧
    path = ".".intercalate segments

/-- What a function that is called for each item may be given: up to three names, all different. -/
structure AreParameters (parameters : List String) : Prop where
  identifiers : ∀ p ∈ parameters, isIdentifier p
  nodup : parameters.Nodup
  pos : 1 ≤ parameters.length
  le : parameters.length ≤ 3

inductive Tree.WellFormed : Tree → Prop where
  | name {id} (identifier : isIdentifier id) : WellFormed (.name id)
  | attribute {value name} (formed : WellFormed value) (identifier : isIdentifier name) :
      WellFormed (.attribute value name)
  | subscript {value key} (formed : WellFormed value) (formedKey : WellFormed key) :
      WellFormed (.subscript value key)
  | constant {c} : WellFormed (.constant c)
  | call {callee arguments} (formed : WellFormed callee)
      (formedArguments : ∀ a ∈ arguments, WellFormed a) : WellFormed (.call callee arguments)
  | dict {keys values} (length : keys.length = values.length)
      (formedKeys : ∀ k ∈ keys, WellFormed k) (formedValues : ∀ v ∈ values, WellFormed v) :
      WellFormed (.dict keys values)
  | list {items} (formed : ∀ i ∈ items, WellFormed i) : WellFormed (.list items)
  | tuple {items} (formed : ∀ i ∈ items, WellFormed i) : WellFormed (.tuple items)
  | conditional {test body alternative} (formedTest : WellFormed test)
      (formed : WellFormed body) (formedAlternative : WellFormed alternative) :
      WellFormed (.conditional test body alternative)
  | connected {connective operands} (length : 2 ≤ operands.length)
      (formed : ∀ o ∈ operands, WellFormed o) : WellFormed (.connected connective operands)
  | lambda {parameters body} (named : AreParameters parameters) (formed : WellFormed body) :
      WellFormed (.lambda parameters body)

/-- A statement of a function's body before it returns: an assignment, or a function of its own. -/
inductive TreeStatement.IsHoisted : TreeStatement → Prop where
  | assign {name value} (identifier : isIdentifier name) (formed : value.WellFormed) :
      IsHoisted (.assign name value)
  | define {name parameters hoisted value} (identifier : isIdentifier name)
      (named : AreParameters parameters) (before : ∀ s ∈ hoisted, IsHoisted s)
      (formed : value.WellFormed) :
      IsHoisted (.define name parameters (hoisted ++ [.returns value]))

/-- A statement of a module. -/
inductive TreeStatement.IsTopLevel : TreeStatement → Prop where
  | importModule {path localName} (dotted : IsDottedPath path)
      (identifier : isIdentifier localName) : IsTopLevel (.importModule path localName)
  | importFrom {path name localName} (dotted : IsDottedPath path) (identifier : isIdentifier name)
      (identifier' : isIdentifier localName) : IsTopLevel (.importFrom path name localName)
  | define {name parameters hoisted value} (identifier : isIdentifier name)
      (named : ∀ p ∈ parameters, isIdentifier p) (nodup : parameters.Nodup)
      (before : ∀ s ∈ hoisted, s.IsHoisted) (formed : value.WellFormed) :
      IsTopLevel (.define name parameters (hoisted ++ [.returns value]))
  | assign {name value} (identifier : isIdentifier name) (formed : value.WellFormed) :
      IsTopLevel (.assign name value)

end TemplateCompiler
