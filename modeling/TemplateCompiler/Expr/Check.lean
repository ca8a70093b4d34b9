import TemplateCompiler.Diagnostic.Problem
import TemplateCompiler.Expr.Basic

/-!
# Expressions a template may hold

Names, member chains and constants, but for the name self, and with a name or a chain at the root.
Of several offences the one on the highest level counts, and on one level the leftmost.
-/

namespace TemplateCompiler

namespace Expr

/-- The name an instance would have for itself. -/
def selfName : String := "self"

inductive Offence where
  | selfReference
  | foreign (kind : String)
deriving DecidableEq, Repr

/-- What is wrong with a node itself. -/
def offence? : Expr → Option Offence
  | name _ id => if id = selfName then some .selfReference else none
  | foreign _ kind => some (.foreign kind)
  | member .. | index .. | constant .. => none

/-- Where an expression stands, which decides how an offence is told. -/
inductive Place where
  | child
  | value
deriving DecidableEq, Repr

def Offence.problem (place : Place) : Offence → Problem
  | selfReference => .selfReference
  | foreign kind => match place with
    | .child => .evaluatedKind kind
    | .value => .disallowedKind kind

def check (place : Place) (e : Expr) : Except Problem Unit :=
  match e.breadthFirst.findSome? offence? with
  | some offence => .error (offence.problem place)
  | none => if e.isMember then .ok () else .error .notMember

end Expr

end TemplateCompiler
