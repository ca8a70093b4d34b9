import TemplateCompiler.Code.Primitive

/-!
# Items of a children list

What a node contributes to its parent's children. An item is nested if it may be a list when
rendered, so that the list around it has to be flattened, and an iteration if it is a call of the
iterator; an iteration on its own can stand in for the whole list.
-/

namespace TemplateCompiler

structure Item where
  code : Code
  nested : Bool := false
  iteration : Bool := false
  slot : Option String := none

namespace Item

/-- Whether the item may be a list when rendered. -/
def mayBeList (i : Item) : Bool :=
  i.nested || i.iteration

/-- The item in a slot of its own or else in that of what it is taken from. -/
def inSlot (i : Item) (slot : Option String) : Item :=
  { i with slot := i.slot.or slot }

/-- The items as one list of children. -/
def assemble (config : Config) (items : List Item) : Code :=
  let flattens := items.any fun i => i.nested && !i.iteration
  let iterates := items.any Item.iteration
  let list := Code.list (items.map Item.code)
  let flattened := config.callPrimitive config.primitives.flatten [list]
  match items with
  | [item] => if flattens then flattened else if iterates then item.code else list
  | _ => if flattens || iterates then flattened else list

/-- The slot an item goes to. -/
def slotName (config : Config) (i : Item) : String :=
  i.slot.getD config.defaultSlotName

/-- The items by slot, in the order in which slots are first filled. -/
def slots (config : Config) (items : List Item) : List (String × Code) :=
  ((items.map (slotName config)).eraseDups).map fun slot =>
    (slot, assemble config (items.filter fun i => slotName config i == slot))

end Item

end TemplateCompiler
