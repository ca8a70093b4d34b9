import TemplateCompiler.Constant
import TemplateCompiler.Location

/-!
# Template expressions

The expressions a host hands over: names, member chains, constants, and anything else the host's
language can write, of which only the kind is known. `breadthFirst` lists an expression's nodes
level by level, each level from left to right.
-/

namespace TemplateCompiler

inductive Expr where
  | name (span : Option Span) (id : String)
  | member (span : Option Span) (value : Expr) (name : String)
  | index (span : Option Span) (value key : Expr)
  | constant (span : Option Span) (value : Constant)
  | foreign (span : Option Span) (kind : String)
deriving DecidableEq

namespace Expr

def withSpan (span : Span) : Expr → Expr
  | name _ id => name span id
  | member _ value id => member span value id
  | index _ value key => index span value key
  | constant _ c => constant span c
  | foreign _ kind => foreign span kind

/-- The expressions that may stand alone in a template. -/
def isMember : Expr → Bool
  | name .. | member .. | index .. => true
  | constant .. | foreign .. => false

/-- Two rows of levels side by side. -/
def besides : List (List Expr) → List (List Expr) → List (List Expr)
  | [], right => right
  | left, [] => left
  | l :: left, r :: right => (l ++ r) :: besides left right

def levels : Expr → List (List Expr)
  | e@(member _ value _) => [e] :: value.levels
  | e@(index _ value key) => [e] :: besides value.levels key.levels
  | e => [[e]]

def breadthFirst (e : Expr) : List Expr :=
  e.levels.flatten

end Expr

end TemplateCompiler
