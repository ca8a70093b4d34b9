import TemplateCompiler.Text.Quoted

/-!
# The log of a compilation

Each event belongs to one channel and is told in one line.
-/

namespace TemplateCompiler

inductive Event where
  | started (unit : String)
  | opened (depth : Nat) (names : List String)
  | closed (depth declarations : Nat)
  | imported (path localName : String)
  | finished (unit : String) (imports used : Nat)
deriving DecidableEq, Repr

namespace Event

inductive Channel where
  | unit
  | scope
  | element
deriving DecidableEq, Repr

def channel : Event → Channel
  | started _ | finished .. => .unit
  | opened .. | closed .. => .scope
  | imported .. => .element

def message : Event → String
  | started unit => s!"Compiling template {unit}"
  | opened depth names => s!"Opened scope {depth} binding {Text.quotedTuple names}"
  | closed depth declarations =>
    s!"Closed scope {depth} with {declarations} hoisted declarations"
  | imported path localName => s!"Importing component {path} as {localName}"
  | finished unit imports used =>
    s!"Compiled template {unit}: {imports} component imports, {used} used identifiers"

end Event

end TemplateCompiler
