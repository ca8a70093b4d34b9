import TemplateCompiler.Context
import TemplateCompiler.Element.Item

/-!
# Siblings

A node's children are first lowered one by one and then finished as siblings: a conditional takes
the alternatives that follow it, an iteration is wrapped around its item, and a template's items
take its place. Siblings are split into chains: a sibling continues the chain of the one before it
if it is an alternative and the one before takes one. An alternative at the head of a chain has
nothing to be the alternative of.
-/

namespace TemplateCompiler

structure Loop where
  place : Place
  iterable : Code
  parameters : List String

/-- What is left to be done with a sibling. -/
inductive Form where
  | fixed
  | spliced (items : List Item)
  | guarded (condition : Code)
  | repeated (loop : Loop) (declarations : List Declaration) (condition : Option Code)

structure Sibling where
  item : Item
  pos : Position
  isAlternative : Bool := false
  form : Form := .fixed

namespace Sibling

/-- Whether an alternative can follow. -/
def takesAlternative (s : Sibling) : Bool :=
  match s.form with
  | .guarded _ => true
  | .repeated _ _ condition => condition.isSome
  | .fixed | .spliced _ => false

def continues (s next : Sibling) : Bool :=
  s.takesAlternative && next.isAlternative

def chains (siblings : List Sibling) : List (List Sibling) :=
  siblings.splitBy continues

/-- Code that renders one thing if a condition holds and another, or nothing, otherwise. -/
def choose (config : Config) (condition body : Code) (alternative : Option Item) : Code :=
  .conditional condition body <|
    (alternative.map Item.code).getD (config.callPrimitive config.primitives.empty [])

end Sibling

namespace CompileM

/-- A call of the iterator. The function called for each item is a lambda unless it needs
declarations of its own, and then one declared around it. -/
def iterate (env : Env) (loop : Loop) (declarations : List Declaration) (body : Code)
    (flatten : Bool) : CompileM Code := do
  let function ←
    if declarations.isEmpty then pure (.lambda loop.place loop.parameters body)
    else do
      let name ← uniqueName "loop"
      queue (.define ⟨name, loop.place, loop.parameters, declarations, body⟩)
      pure (.ref name)
  let config := env.config
  let call := config.callPrimitive config.primitives.iterator [loop.iterable, function]
  return if flatten then config.callPrimitive config.primitives.flatten [call] else call

/-- A sibling as an item, with the alternative that follows it. -/
def finishSibling (env : Env) (s : Sibling) (alternative : Option Item) : CompileM Item :=
  match s.form with
  | .fixed | .spliced _ => pure s.item
  | .guarded condition =>
    pure { code := Sibling.choose env.config condition s.item.code alternative
           nested := s.item.nested || alternative.any Item.nested
           slot := s.item.slot }
  | .repeated loop declarations none => do
    let code ← iterate env loop declarations s.item.code false
    return { code, nested := true, iteration := true, slot := s.item.slot }
  | .repeated loop declarations (some condition) => do
    let body := Sibling.choose env.config condition s.item.code alternative
    let code ← iterate env loop declarations body (alternative.any Item.mayBeList)
    return { code, nested := true, iteration := true, slot := s.item.slot }

/-- A chain as one item, finished from its last alternative backwards. -/
def finishBranches (env : Env) : List Sibling → CompileM (Option Item)
  | [] => pure none
  | s :: rest => do
    let alternative ← finishBranches env rest
    some <$> finishSibling env s alternative

def finishChain (env : Env) (chain : List Sibling) : CompileM (List Item) :=
  match chain with
  | [] => pure []
  | head :: _ =>
    if head.isAlternative then reject .elseBeforeIf head.pos
    else match head.form with
      | .spliced items => pure (items.map fun i => i.inSlot head.item.slot)
      | _ => return (← finishBranches env chain).toList

def finishChains (env : Env) : List (List Sibling) → CompileM (List Item)
  | [] => pure []
  | chain :: rest => do
    let items ← finishChain env chain
    let more ← finishChains env rest
    return items ++ more

def finishSiblings (env : Env) (siblings : List Sibling) : CompileM (List Item) :=
  finishChains env (Sibling.chains siblings)

end CompileM

end TemplateCompiler
