import TemplateCompiler.Expr.Basic

/-!
# Markup trees

The tree a host hands over. Any node may stand anywhere; where one does not belong, compilation
says so. An attribute's value is a node, but for a bare attribute and for a constant that is no
node at all.
-/

namespace TemplateCompiler

/-- A name and the namespace before it; an empty namespace is not the same as none. -/
structure Tag where
  ns : Option String
  name : String
deriving DecidableEq, Repr

/-- The name as messages show it. -/
def Tag.qualified (tag : Tag) : String :=
  match tag.ns with
  | some ns => if ns.isEmpty then tag.name else s!"{ns}:{tag.name}"
  | none => tag.name

mutual

inductive Node where
  | element (pos : Position) (tag : Tag) (attributes : List Attribute) (children : List Node)
  | text (pos : Position) (value : String)
  | placeholder (pos : Position) (expression : Option Expr)
  | fragment (pos : Position) (children : List Node)
  | literal (pos : Position) (value : Constant)
  | attr (item : Attribute)
  | template (pos : Position) (body : List Node)

structure Attribute where
  pos : Position
  tag : Tag
  value : AttributeValue

inductive AttributeValue where
  | bare
  | node (node : Node)
  | constant (value : Constant)

end

def Node.pos : Node → Position
  | .element pos .. | .text pos _ | .placeholder pos _ | .fragment pos _ | .literal pos _
  | .template pos _ => pos
  | .attr a => a.pos

mutual

/-- The outermost elements of a node, fragments looked through. -/
def Node.elements : Node → List Node
  | .element pos tag attributes children => [.element pos tag attributes children]
  | .fragment _ children => elementsOf children
  | .text .. | .placeholder .. | .literal .. | .attr _ | .template .. => []

def elementsOf : List Node → List Node
  | [] => []
  | node :: rest => node.elements ++ elementsOf rest

end

/-- What collects from the nodes of a row one after the other, as `elementsOf` does, takes of each
what is collected from it alone. -/
theorem eq_flatMap {α : Type} {ofNode : Node → List α} {ofRow : List Node → List α}
    (hnil : ofRow [] = []) (hcons : ∀ node rest, ofRow (node :: rest) = ofNode node ++ ofRow rest) :
    ∀ nodes, ofRow nodes = nodes.flatMap ofNode
  | [] => hnil
  | node :: rest => by rw [hcons, eq_flatMap hnil hcons rest, List.flatMap_cons]

theorem elementsOf_eq_flatMap : ∀ nodes, elementsOf nodes = nodes.flatMap Node.elements :=
  eq_flatMap rfl fun _ _ => rfl

theorem elementsOf_append (nodes nodes' : List Node) :
    elementsOf (nodes ++ nodes') = elementsOf nodes ++ elementsOf nodes' := by
  simp only [elementsOf_eq_flatMap, List.flatMap_append]

/-- A compilation unit. -/
structure Template where
  pos : Position
  body : List Node

end TemplateCompiler
