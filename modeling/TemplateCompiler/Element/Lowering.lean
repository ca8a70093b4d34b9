import TemplateCompiler.Element.Call
import TemplateCompiler.Element.Guard
import TemplateCompiler.Loop.Plan
import TemplateCompiler.Text.Collapse

/-!
# Lowering markup

A node is lowered to the siblings it contributes: text and placeholders to one or none, a fragment
to those of its children, an element to one. What an element iterates over is resolved around it;
its other attributes and its children are resolved within the frame that binds its parameters. A
node's place is that of the element around it and the number of elements before it there.
-/

namespace TemplateCompiler.CompileM

/-- The iteration of an element, whose frame is open from here on. -/
def openLoop (env : Env) (place : Place) (pos : Position) (readings : List Reading) :
    CompileM (Option Loop) := do
  let parts := Reading.loopParts readings
  match LoopPart.iterable? parts with
  | .error problem => reject problem pos
  | .ok none => return none
  | .ok (some content) =>
    let iterable ← resolve env ⟨place, true⟩ pos true content
    match LoopPart.parameters parts with
    | .error problem => reject problem pos
    | .ok parameters =>
      openScope parameters
      return some { place, iterable, parameters }

/-- What is left to be done with an element's call; its frame is closed here. -/
def elementForm (loop : Option Loop) (condition : Option Code) : CompileM Form :=
  match loop, condition with
  | some loop, condition => do return .repeated loop (← closeScope) condition
  | none, some condition => pure (.guarded condition)
  | none, none => pure .fixed

/-- The attributes of an element, read and checked against its kind. -/
def readElement (env : Env) (pos : Position) (tag : Tag) (attributes : List Attribute) :
    CompileM (List Reading × ElementKind) := do
  if tag.name.toList.contains '.' then reject (.memberTag tag.qualified) pos
  match Reading.ofAttributes env.config [] attributes with
  | .error (problem, place) => reject problem place
  | .ok readings =>
    let kind := ElementKind.ofTag tag (Reading.component? readings).isSome
    if kind = .outlet && readings.any Reading.isDirective then reject .directiveOnSlot pos
    return (readings, kind)

def lowerElement (env : Env) (place : Place) (pos : Position) (tag : Tag)
    (attributes : List Attribute) (children : CompileM (List Sibling)) : CompileM Sibling := do
  let (readings, kind) ← readElement env pos tag attributes
  let loop ← openLoop env place pos readings
  let parts ← resolveReadings env ⟨place, false⟩ pos kind.isComponent readings
  let items ← finishSiblings env (← children)
  let slot := Reading.slotOf readings
  let isAlternative := Part.isAlternative parts
  let condition := Part.condition? parts
  match kind with
  | .template => templateSibling env pos slot isAlternative condition loop items
  | .outlet =>
    let code := outletCode env.config (Reading.outletName readings) items
    return { item := { code, nested := true, slot }, pos }
  | _ =>
    let code ← elementCall env pos tag kind (Reading.component? readings) parts items
    let form ← elementForm loop condition
    return { item := { code, slot }, pos, isAlternative, form }

mutual

def lowerNode (env : Env) (around : Place) (before : Nat) : Node → CompileM (List Sibling)
  | .text pos value =>
    let shown := Text.collapse value
    if shown.isEmpty then pure [] else pure [{ item := { code := .text shown }, pos }]
  | .placeholder _ none => pure []
  | .placeholder pos (some e) => do
    check pos (e.check .child)
    let code ← qualify env ⟨around, false⟩ e
    let item := { code := env.config.callPrimitive env.config.primitives.text [code] }
    return [{ item, pos }]
  | .fragment _ children => lowerNodes env around before children
  | .element pos tag attributes children => do
    let place := around ++ [before]
    return [← lowerElement env place pos tag attributes (lowerNodes env place 0 children)]
  | .literal .. => throw (.misplaced .literal)
  | .attr _ => throw (.misplaced .attr)
  | .template .. => throw (.misplaced .template)

def lowerNodes (env : Env) (around : Place) (before : Nat) :
    List Node → CompileM (List Sibling)
  | [] => pure []
  | node :: rest => do
    let siblings ← lowerNode env around before node
    let more ← lowerNodes env around (before + node.elements.length) rest
    return siblings ++ more

end

end TemplateCompiler.CompileM
