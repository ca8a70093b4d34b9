/-!
# Places in a source

A position points at a markup node; a host that does not know a part of it leaves it out. A span
covers a piece of an expression. Positions need not be told apart, so where it matters which element
is meant, the element has a place: the way to it from the root.
-/

namespace TemplateCompiler

structure Position where
  line : Option Int
  column : Option Int
deriving DecidableEq, Repr

structure Span where
  line : Int
  column : Int
  endLine : Int
  endColumn : Int
deriving DecidableEq, Repr

/-- Where a module begins, and so where code without a source of its own stands. -/
def Span.start : Span := ⟨1, 0, 1, 0⟩

/-- The way from a unit's root element to an element: at each step, how many elements stand before
it in the element around it, fragments looked through. -/
abbrev Place := List Nat

/-- Where a template mentions a name: at an element, in what it iterates over or anywhere else. -/
structure Site where
  place : Place
  inIterable : Bool := false
deriving DecidableEq, Repr

end TemplateCompiler
