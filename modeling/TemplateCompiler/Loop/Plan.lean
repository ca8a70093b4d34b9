import TemplateCompiler.Attribute.Reading

/-!
# How an element repeats

An iteration is written as one for statement, or as each, item and, if wanted, index. A statement
cannot be mixed with the three parts. Its iterable is a binding like the text of an each.
-/

namespace TemplateCompiler.LoopPart

def statement? (parts : List LoopPart) : Option ForStatement :=
  parts.findSome? fun
    | statement s => some s
    | _ => none

def each? (parts : List LoopPart) : Option Content :=
  parts.findSome? fun
    | each content => some content
    | _ => none

def item? (parts : List LoopPart) : Option String :=
  parts.findSome? fun
    | item name => some name
    | _ => none

def index? (parts : List LoopPart) : Option String :=
  parts.findSome? fun
    | index name => some name
    | _ => none

/-- What is iterated over, if an element repeats at all. -/
def iterable? (parts : List LoopPart) : Except Problem (Option Content) :=
  if parts.isEmpty then .ok none
  else match statement? parts with
    | some s =>
      if (each? parts).isSome || (item? parts).isSome || (index? parts).isSome then
        .error .statementWithEach
      else .ok (some (.constant (.text s.iterable)))
    | none =>
      match each? parts with
      | none => .error .eachMissing
      | some content => if (item? parts).isSome then .ok (some content) else .error .itemMissing

/-- The names an item and its index are bound to. -/
def parameters (parts : List LoopPart) : Except Problem (List String) :=
  match statement? parts with
  | some s => .ok s.parameters
  | none =>
    let names := (item? parts).toList ++ (index? parts).toList
    if names.Nodup then .ok names else .error .sameParameters

end TemplateCompiler.LoopPart
