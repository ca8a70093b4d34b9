import TemplateCompiler.Element.Sibling

/-!
# Templates inside templates

A template contributes its items to its parent and nothing of its own. A condition on it is tested
once, in a temporary that is declared at the top of the function around it, and guards every item;
an iteration on it makes one item of all of them.
-/

namespace TemplateCompiler.CompileM

/-- An item that is rendered only if a temporary holds. It may be nothing then, so even an iteration
is to be flattened. -/
def guardItem (name : String) (i : Item) : Item :=
  { code := .and (.ref name) i.code, nested := i.mayBeList, slot := i.slot }

def guardItems (condition : Code) (items : List Item) : CompileM (List Item) := do
  if items.isEmpty then return []
  let name ← uniqueName "expr"
  queue (.assign name (.or condition (.constant none .null)))
  return items.map (guardItem name)

/-- The body that an iterated template has for each item, and whether it is a list. -/
def iteratedBody (config : Config) (items : List Item) : Code × Bool :=
  match items with
  | [item] => (item.code, item.mayBeList)
  | _ => (Item.assemble config items, !items.isEmpty)

def templateSibling (env : Env) (pos : Position) (slot : Option String) (isAlternative : Bool)
    (condition : Option Code) (loop : Option Loop) (items : List Item) : CompileM Sibling := do
  let kept ← match condition with
    | some condition => guardItems condition items
    | none => pure items
  match loop with
  | none =>
    let item := { code := Item.assemble env.config kept, nested := true, slot }
    return { item, pos, isAlternative, form := .spliced kept }
  | some loop =>
    let declarations ← closeScope
    let (body, flatten) := iteratedBody env.config kept
    let code ← iterate env loop declarations body flatten
    return { item := { code, nested := true, iteration := true, slot }, pos, isAlternative }

end TemplateCompiler.CompileM
