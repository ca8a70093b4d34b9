import TemplateCompiler.Proofs.Coding
import TemplateCompiler.Proofs.Shapes

/-!
# Pieces of content

What a template and its module have in common: contents, outlets, iterations and conditions. In a
template they are listed in the order in which they are written, an element before what is in it,
each with the place that tells what its names mean. In a module every piece of code counts, wherever
it stands: the functions that iterations call are counted where they are declared. A piece of code
is one of the markup if it says what the markup says at that place (`Piece.CodedAs`).
-/

namespace TemplateCompiler

variable {config : Config}

/-- A piece of content: a text, an expression that is shown or an element that is called, an outlet,
or that an element repeats or has a condition. The place of what is no element is that of the
element around it. -/
inductive Piece where
  | content (place : Place) (node : Node)
  | outlet (place : Place) (node : Node)
  | iteration (place : Place) (node : Node)
  | condition (place : Place) (node : Node)

/-- The code of a piece, whatever is inside of it. -/
inductive Piece.CodedAs (env : Env) (t : Template) (m : Module) : Piece → Code → Prop where
  | content {place node code} (coded : node.CodedAs env t m place code) :
      CodedAs env t m (.content place node) code
  | outlet {place node} :
      CodedAs env t m (.outlet place node) (.call (.refMember env.config.slotsetParam "get")
        [.text ((Reading.outletName (node.readings env.config)).getD
          env.config.defaultSlotName)])
  | iteration {place node loop function} (repeats : node.Repeats env t place loop) :
      CodedAs env t m (.iteration place node)
        (env.config.callPrimitive env.config.primitives.iterator [loop.iterable, function])
  | condition {place node test body alternative} (tests : node.Tests env t place test) :
      CodedAs env t m (.condition place node) (.conditional test body alternative)

/-! ## Pieces of code -/

section

variable (config)

/-- Whether some code is a piece by itself: a call that makes an element, a text or an iteration, a
lookup in the slots, or a conditional. -/
def Code.isPiece : Code → Bool
  | .call (.member _ (.ref id) field) _ =>
    if id = config.apiParam then
      [config.primitives.element, config.primitives.customElement,
        config.primitives.virtualElement, config.primitives.text,
        config.primitives.iterator].contains field
    else id == config.slotsetParam && field == "get"
  | .conditional .. => true
  | _ => false

def Code.ownPiece (code : Code) : List Code :=
  if code.isPiece config then [code] else []

/-- A text by itself. -/
def Code.ownText (code : Code) : List Code :=
  if code.text?.isSome then [code] else []

namespace Code

mutual

/-- The pieces in some code. A text is one as an item of a list, behind a guard, on a branch, or as
what a function gives. -/
def pieces : Code → List Code
  | .ref _ | .name .. | .constant .. | .foreign .. => []
  | .member _ value _ => value.pieces
  | .index _ value key => value.pieces ++ key.pieces
  | .call callee arguments =>
    (Code.call callee arguments).ownPiece config ++ callee.pieces ++ operandPieces arguments
  | .dict entries => entryPieces entries
  | .list items => itemPieces items
  | .conditional test body alternative =>
    .conditional test body alternative :: (test.pieces ++ (body.ownText ++ body.pieces) ++
      (alternative.ownText ++ alternative.pieces))
  | .and left right => left.pieces ++ (right.ownText ++ right.pieces)
  | .or left right => left.pieces ++ right.pieces
  | .lambda _ _ body => body.ownText ++ body.pieces

def operandPieces : List Code → List Code
  | [] => []
  | code :: rest => code.pieces ++ operandPieces rest

def entryPieces : List (String × Code) → List Code
  | [] => []
  | (_, code) :: rest => code.pieces ++ entryPieces rest

def itemPieces : List Code → List Code
  | [] => []
  | code :: rest => code.ownText ++ code.pieces ++ itemPieces rest

end

/-- The pieces of code that stands for content. -/
def contents (code : Code) : List Code :=
  code.ownText ++ code.pieces config

end Code

mutual

/-- The pieces in a function, those in the functions it declares too. -/
def Function.pieces : Function → List Code
  | ⟨_, _, _, ds, result⟩ => statementPieces ds ++ result.contents config

def Declaration.pieces : Declaration → List Code
  | .assign _ value => value.pieces config
  | .define f => f.pieces

def statementPieces : List Declaration → List Code
  | [] => []
  | d :: rest => d.pieces ++ statementPieces rest

end

end

theorem Code.contents_of_text? {code : Code} (h : code.text? = none) :
    code.contents config = code.pieces config := by
  simp [contents, ownText, h]

theorem Code.itemPieces_cons (code : Code) (rest : List Code) :
    Code.itemPieces config (code :: rest) =
      code.contents config ++ Code.itemPieces config rest := rfl

theorem Code.entryPieces_append (entries entries' : List (String × Code)) :
    Code.entryPieces config (entries ++ entries') =
      Code.entryPieces config entries ++ Code.entryPieces config entries' := by
  induction entries with
  | nil => rfl
  | cons e rest ih => simp [Code.entryPieces, ih]

theorem Code.entryPieces_eq_nil {entries : List (String × Code)}
    (h : ∀ e ∈ entries, e.2.pieces config = []) : Code.entryPieces config entries = [] := by
  induction entries with
  | nil => rfl
  | cons e rest ih =>
    rw [List.forall_mem_cons] at h
    rw [Code.entryPieces, h.1, ih h.2, List.append_nil]

/-- A call of the interface may be a piece, and has the pieces of its operands. -/
theorem Code.pieces_callPrimitive (name : String) (arguments : List Code) :
    (config.callPrimitive name arguments).pieces config =
      (config.callPrimitive name arguments).ownPiece config ++
        Code.operandPieces config arguments := by
  simp [Config.callPrimitive, Config.primitive, Code.refMember, Code.pieces]

/-- A call of the interface that makes content is a piece. -/
theorem Code.ownPiece_callPrimitive {name : String}
    (h : name ∈ [config.primitives.element, config.primitives.customElement,
      config.primitives.virtualElement, config.primitives.text, config.primitives.iterator])
    (arguments : List Code) :
    (config.callPrimitive name arguments).ownPiece config =
      [config.callPrimitive name arguments] := by
  refine if_pos ?_
  rw [Config.callPrimitive, Config.primitive, Code.refMember, isPiece, if_pos rfl]
  exact List.contains_iff_mem.2 h

/-- Code that makes no content is no piece of it, nor has it any. -/
theorem Plain.pieces_eq_nil {code : Code} (h : Plain config code) (hconfig : config = {}) :
    code.pieces config = [] := by
  subst hconfig
  induction h with
  | ref | name | constant | foreign | lookup => rfl
  | member _ ih => exact ih
  | index _ _ ih ih' | or _ _ ih ih' => rw [Code.pieces, ih, ih', List.append_nil]
  | dict _ ih => exact Code.entryPieces_eq_nil ih
  | bound _ ih | store _ ih =>
    simp [Code.pieces, Code.ownPiece, Code.isPiece, Code.refMember, Code.operandPieces, Code.text,
      ih]

/-! ## Pieces of markup -/

/-- Whether a condition on an element chooses between it and an else. -/
def ElementKind.chooses : ElementKind → Bool
  | .template | .outlet => false
  | .virtual _ | .dynamic | .custom | .plain => true

/-- A condition chooses whether an element is called. -/
theorem CallsElement.chooses {K : Context} {tag : Tag} {written : Option Content}
    {parts : List Part} {items : List Item} {kind : ElementKind} {code : Code}
    (h : CallsElement config K tag written parts items kind code) : kind.chooses := by
  cases h <;> rfl

/-- The piece that an element is itself, if it is no template. -/
def ElementKind.piece? (place : Place) (node : Node) : ElementKind → Option Piece
  | .template => none
  | .outlet => some (.outlet place node)
  | .virtual _ | .dynamic | .custom | .plain => some (.content place node)

section

variable (config)

/-- The kind of an element. What is no element is no piece by itself either, as a template. -/
def Node.kind : Node → ElementKind
  | .element pos tag attributes children =>
    elementKind tag ((Node.element pos tag attributes children).readings config)
  | .text .. | .placeholder .. | .fragment .. | .literal .. | .attr _ | .template .. => .template

def Node.iteration? (place : Place) : Node → Option Piece
  | .element pos tag attributes children =>
    if attributes.any Attribute.iterates then
      some (.iteration place (.element pos tag attributes children))
    else none
  | .text .. | .placeholder .. | .fragment .. | .literal .. | .attr _ | .template .. => none

def Node.condition? (place : Place) (node : Node) : Option Piece :=
  (Reading.condition? (node.readings config)).map fun _ => .condition place node

/-- The pieces of an element but for those of its children. -/
def Node.ownPieces (place : Place) (node : Node) : List Piece :=
  (node.iteration? place).toList ++
    ((if (node.kind config).chooses then node.condition? config place else none).toList ++
      ((node.kind config).piece? place node).toList)

mutual

/-- The pieces of a node that stands around a place behind some number of elements. -/
def Node.pieces (around : Place) (before : Nat) : Node → List Piece
  | .text pos value =>
    if (Text.collapse value).isEmpty then [] else [.content around (.text pos value)]
  | .placeholder _ none => []
  | .placeholder pos (some e) => [.content around (.placeholder pos (some e))]
  | .fragment _ children => piecesOf around before children
  | .element pos tag attributes children =>
    (Node.element pos tag attributes children).ownPieces config (around ++ [before]) ++
      piecesOf (around ++ [before]) 0 children
  | .literal .. | .attr _ | .template .. => []

def piecesOf (around : Place) (before : Nat) : List Node → List Piece
  | [] => []
  | node :: rest =>
    node.pieces around before ++ piecesOf around (before + node.elements.length) rest

end

/-- The pieces of a template are those of its root. -/
def Template.pieces (t : Template) : List Piece :=
  (t.root?.map fun root => root.ownPieces config [] ++ piecesOf config [] 0 root.children).getD []

end

end TemplateCompiler
