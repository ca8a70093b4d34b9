import Mathlib.Algebra.BigOperators.Group.Multiset.Basic
import Mathlib.Tactic.Abel
import TemplateCompiler.Proofs.Layout

/-!
# Generated code read as a layout

Generated code is read as layouts, whose pieces say what the code is at the places that they have in
the markup. A declared function is read where an iteration calls it, and the functions that are read
on the way are kept in a multiset, so that one that is read twice would be in it twice. The pieces
of a layout correspond one to one to those of the code and of the functions that it is read through
(`Reads.census`).
-/

namespace TemplateCompiler

variable {env : Env} {t : Template} {m : Module} {config : Config}

/-! ## The relation -/

mutual

/-- Code of content reads as some layouts, through some of the functions that are declared. -/
inductive Reads (env : Env) (t : Template) (m : Module) :
    Code → List Layout → Multiset Function → Prop where
  | text {s p} (coded : p.CodedAs env t m (.text s)) : Reads env t m (.text s) [.piece p []] 0
  | shown {value p} (plain : Plain env.config value)
      (coded : p.CodedAs env t m (env.config.callPrimitive env.config.primitives.text [value])) :
      Reads env t m (env.config.callPrimitive env.config.primitives.text [value]) [.piece p []] 0
  | empty : Reads env t m (env.config.callPrimitive env.config.primitives.empty []) [] 0
  | plain {tag attributes children p ls used} (plain : ∀ e ∈ attributes, Plain env.config e.2)
      (listed : children.text? = none)
      (coded : p.CodedAs env t m (env.config.callPrimitive env.config.primitives.element
        [.text tag, .dict attributes, children]))
      (reads : Reads env t m children ls used) :
      Reads env t m (env.config.callPrimitive env.config.primitives.element
        [.text tag, .dict attributes, children]) [.piece p ls] used
  | component {component attributes children p ls used}
      (plainComponent : Plain env.config component)
      (plain : ∀ e ∈ attributes, Plain env.config e.2) (listed : children.text? = none)
      (coded : p.CodedAs env t m (env.config.callPrimitive env.config.primitives.virtualElement
        [component, .dict attributes, children]))
      (reads : Reads env t m children ls used) :
      Reads env t m (env.config.callPrimitive env.config.primitives.virtualElement
        [component, .dict attributes, children]) [.piece p ls] used
  | custom {path component attributes slots p contents used}
      (plainComponent : Plain env.config component)
      (plain : ∀ e ∈ attributes, Plain env.config e.2)
      (coded : p.CodedAs env t m (env.config.callPrimitive env.config.primitives.customElement
        [.text path, component,
          .dict (attributes ++ if slots.isEmpty then [] else [("slotset", .dict slots)])]))
      (reads : ReadsSlots env t m slots contents used) :
      Reads env t m (env.config.callPrimitive env.config.primitives.customElement
        [.text path, component,
          .dict (attributes ++ if slots.isEmpty then [] else [("slotset", .dict slots)])])
        [.slotted p contents] used
  | choose {test body alternative place node ls ls' used used'} (plain : Plain env.config test)
      (tests : node.Tests env t place test) (reads : Reads env t m body ls used)
      (readsAlternative : Reads env t m alternative ls' used') :
      Reads env t m (.conditional test body alternative)
        [.choice (.condition place node) ls ls'] (used + used')
  | guarded {name code ls used} (reads : Reads env t m code ls used) :
      Reads env t m (.and (.ref name) code) ls used
  | outlet {key code p ls used} (listed : code.text? = none)
      (coded : p.CodedAs env t m (.call (.refMember env.config.slotsetParam "get") [.text key]))
      (reads : Reads env t m code ls used) :
      Reads env t m (.or (.call (.refMember env.config.slotsetParam "get") [.text key]) code)
        [.piece p ls] used
  | row {codes ls used} (reads : ReadsRow env t m codes ls used) :
      Reads env t m (.list codes) ls used
  | flattened {code ls used} (listed : code.text? = none) (reads : Reads env t m code ls used) :
      Reads env t m (env.config.callPrimitive env.config.primitives.flatten [code]) ls used
  | inline {loop : Loop} {body place node ls used} (plain : Plain env.config loop.iterable)
      (repeats : node.Repeats env t place loop) (reads : Reads env t m body ls used) :
      Reads env t m (env.config.callPrimitive env.config.primitives.iterator
        [loop.iterable, .lambda loop.place loop.parameters body])
        [.piece (.iteration place node) ls] used
  | declared {loop : Loop} {f : Function} {place node ls used}
      (plain : Plain env.config loop.iterable) (repeats : node.Repeats env t place loop)
      (sited : f.place = loop.place) (binds : f.parameters = loop.parameters)
      (reads : Reads env t m f.result ls used) :
      Reads env t m (env.config.callPrimitive env.config.primitives.iterator
        [loop.iterable, .ref f.name]) [.piece (.iteration place node) ls] (f ::ₘ used)

inductive ReadsRow (env : Env) (t : Template) (m : Module) :
    List Code → List Layout → Multiset Function → Prop where
  | nil : ReadsRow env t m [] [] 0
  | cons {code codes ls ls' used used'} (head : Reads env t m code ls used)
      (tail : ReadsRow env t m codes ls' used') :
      ReadsRow env t m (code :: codes) (ls ++ ls') (used + used')

inductive ReadsSlots (env : Env) (t : Template) (m : Module) :
    List (String × Code) → List (String × List Layout) → Multiset Function → Prop where
  | nil : ReadsSlots env t m [] [] 0
  | cons {slot code slots ls contents used used'} (listed : code.text? = none)
      (head : Reads env t m code ls used) (tail : ReadsSlots env t m slots contents used') :
      ReadsSlots env t m ((slot, code) :: slots) ((slot, ls) :: contents) (used + used')

end

/-! ## Functions and their pieces -/

def Declaration.function? : Declaration → Option Function
  | .assign .. => none
  | .define f => some f

/-- The functions that statements declare, those inside of others too. -/
def functionsOf (ds : List Declaration) : Multiset Function :=
  (allDeclarations ds).filterMap Declaration.function?

/-- The pieces that functions give, apart from what they declare. -/
def resultPieces (config : Config) (fs : Multiset Function) : Multiset Code :=
  (fs.map fun f => (f.result.contents config : Multiset Code)).sum

@[simp]
theorem resultPieces_zero : resultPieces config 0 = 0 := rfl

@[simp]
theorem resultPieces_add (fs fs' : Multiset Function) :
    resultPieces config (fs + fs') = resultPieces config fs + resultPieces config fs' := by
  simp [resultPieces]

@[simp]
theorem resultPieces_cons (f : Function) (fs : Multiset Function) :
    resultPieces config (f ::ₘ fs) = f.result.contents config + resultPieces config fs := by
  simp [resultPieces]

/-- Statements declare some functions, and test what makes no content. -/
structure Declares (config : Config) (ds : List Declaration) (fs : Multiset Function) : Prop where
  functions : functionsOf ds = fs
  plain : ∀ name value, .assign name value ∈ allDeclarations ds → Plain config value

namespace Declares

variable {ds ds' : List Declaration} {fs fs' : Multiset Function}

theorem nil : Declares config [] 0 :=
  ⟨rfl, by simp [allDeclarations]⟩

theorem append (h : Declares config ds fs) (h' : Declares config ds' fs') :
    Declares config (ds ++ ds') (fs + fs') := by
  constructor
  · rw [← h.functions, ← h'.functions]
    simp [functionsOf, allDeclarations_append]
  · intro name value hmem
    rw [allDeclarations_append, List.mem_append] at hmem
    exact hmem.elim (h.plain name value) (h'.plain name value)

theorem define {f : Function} (h : Declares config f.declarations fs) :
    Declares config [.define f] (f ::ₘ fs) := by
  constructor
  · rw [← h.functions]
    simp [functionsOf, allDeclarations, Declaration.all, Declaration.function?, Function.inner_eq]
  · intro name value hmem
    simp only [allDeclarations, Declaration.all, Function.inner_eq, List.append_nil, List.mem_cons,
      reduceCtorEq, false_or] at hmem
    exact h.plain name value hmem

theorem assign {name : String} {test : Code} (h : Plain config test) :
    Declares config [.assign name (.or test (.constant none .null))] 0 := by
  constructor
  · rfl
  · intro name' value hmem
    simp only [allDeclarations, Declaration.all, List.append_nil, List.mem_singleton,
      Declaration.assign.injEq] at hmem
    rw [hmem.2]
    exact .or h .constant

theorem eq_zero (h : Declares config [] fs) : fs = 0 :=
  h.functions.symm

end Declares

mutual

/-- The pieces in a function are those that it gives and those that the functions in it give. -/
theorem Function.coe_pieces (hconfig : config = {}) : ∀ f : Function,
    (∀ name value, .assign name value ∈ f.inner → Plain config value) →
    (f.pieces config : Multiset Code) =
      f.result.contents config + resultPieces config (functionsOf f.declarations)
  | ⟨_, _, _, ds, result⟩, h => by
    rw [Function.inner] at h
    rw [Function.pieces, ← Multiset.coe_add, coe_statementPieces hconfig ds h, add_comm]

theorem Declaration.coe_pieces (hconfig : config = {}) : ∀ d : Declaration,
    (∀ name value, .assign name value ∈ d.all → Plain config value) →
    (d.pieces config : Multiset Code) = resultPieces config (functionsOf [d])
  | .assign name value, h => by
    rw [Declaration.pieces, (h name value (by simp [Declaration.all])).pieces_eq_nil hconfig]
    rfl
  | .define f, h => by
    have hinner : ∀ name value, .assign name value ∈ f.inner → Plain config value :=
      fun name value hmem => h name value (by simp [Declaration.all, hmem])
    have hfunctions : functionsOf [.define f] = f ::ₘ functionsOf f.declarations := by
      simp [functionsOf, allDeclarations, Declaration.all, Declaration.function?, Function.inner_eq]
    rw [Declaration.pieces, Function.coe_pieces hconfig f hinner, hfunctions, resultPieces_cons]

theorem coe_statementPieces (hconfig : config = {}) : ∀ ds : List Declaration,
    (∀ name value, .assign name value ∈ allDeclarations ds → Plain config value) →
    (statementPieces config ds : Multiset Code) = resultPieces config (functionsOf ds)
  | [], _ => rfl
  | d :: rest, h => by
    have happend : functionsOf (d :: rest) = functionsOf [d] + functionsOf rest := by
      simp [functionsOf, allDeclarations]
    rw [allDeclarations] at h
    rw [statementPieces, ← Multiset.coe_add, happend, resultPieces_add,
      Declaration.coe_pieces hconfig d fun name value hmem =>
        h name value (List.mem_append_left _ hmem),
      coe_statementPieces hconfig rest fun name value hmem =>
        h name value (List.mem_append_right _ hmem)]

end

/-! ## The census -/

theorem layoutPieces_piece (p : Piece) (ls : List Layout) :
    layoutPieces [.piece p ls] = p :: layoutPieces ls := by
  simp [layoutPieces, Layout.pieces]

/-- The pieces of layouts correspond to pieces of code one to one. -/
abbrev Matches (env : Env) (t : Template) (m : Module) :
    Multiset Piece → Multiset Code → Prop :=
  Multiset.Rel (Piece.CodedAs env t m)

/-- A piece is counted on both sides. -/
theorem Matches.cons {p : Piece} {code : Code} {ps : List Piece} {codes : List Code}
    {more : Multiset Code} (hp : p.CodedAs env t m code)
    (h : Matches env t m ps (codes + more)) :
    Matches env t m (p :: ps : List Piece) ((code :: codes : List Code) + more) := by
  rw [← Multiset.cons_coe, ← Multiset.cons_coe, Multiset.cons_add]
  exact Multiset.Rel.cons hp h

/-- Parts that correspond do so together. -/
theorem Matches.append {ps ps' : List Piece} {codes codes' : List Code}
    {more more' : Multiset Code} (h : Matches env t m ps (codes + more))
    (h' : Matches env t m ps' (codes' + more')) :
    Matches env t m (ps ++ ps' : List Piece) ((codes ++ codes' : List Code) + (more + more')) := by
  have hsum := Multiset.Rel.add h h'
  rwa [Multiset.coe_add, add_add_add_comm, Multiset.coe_add] at hsum

namespace Code

/-- A call of the interface that makes content is a piece, with those of its operands. -/
theorem contents_callPrimitive {name : String}
    (h : name ∈ [config.primitives.element, config.primitives.customElement,
      config.primitives.virtualElement, config.primitives.text, config.primitives.iterator])
    (arguments : List Code) :
    (config.callPrimitive name arguments).contents config =
      config.callPrimitive name arguments :: operandPieces config arguments := by
  rw [contents_of_text? rfl, pieces_callPrimitive, ownPiece_callPrimitive h]
  rfl

variable (hconfig : config = {})

include hconfig

/-- The pieces among the operands of what makes an element are those of its children. -/
theorem operandPieces_element {component children : Code} {attributes : List (String × Code)}
    (hcomponent : component.pieces config = []) (hattributes : ∀ e ∈ attributes, Plain config e.2)
    (hlisted : children.text? = none) :
    operandPieces config [component, .dict attributes, children] = children.contents config := by
  subst hconfig
  have hdict : entryPieces {} attributes = [] :=
    entryPieces_eq_nil fun e he => (hattributes e he).pieces_eq_nil rfl
  simp [operandPieces, pieces, hcomponent, hdict, contents_of_text? hlisted]

theorem operandPieces_custom {component : Code} {path : String}
    {attributes slots : List (String × Code)} (hcomponent : Plain config component)
    (hattributes : ∀ e ∈ attributes, Plain config e.2) :
    operandPieces config [.text path, component,
        .dict (attributes ++ if slots.isEmpty then [] else [("slotset", .dict slots)])] =
      entryPieces config slots := by
  subst hconfig
  have hdict : entryPieces {} attributes = [] :=
    entryPieces_eq_nil fun e he => (hattributes e he).pieces_eq_nil rfl
  cases slots with
  | nil => simp [operandPieces, pieces, hcomponent.pieces_eq_nil rfl, hdict, entryPieces, text]
  | cons =>
    simp [operandPieces, pieces, hcomponent.pieces_eq_nil rfl, hdict, entryPieces_append,
      entryPieces, text]

/-- What flattens has the pieces of what is flattened. -/
theorem contents_flatten {code : Code} (hlisted : code.text? = none) :
    (config.callPrimitive config.primitives.flatten [code]).contents config =
      code.contents config := by
  subst hconfig
  rw [contents_of_text? rfl, pieces_callPrimitive, contents_of_text? hlisted]
  simp [operandPieces, ownPiece, isPiece, Config.callPrimitive, Config.primitive, refMember]

/-- A lookup in the slots is a piece, with those of what stands for it. -/
theorem contents_outlet {key : String} {code : Code} (hlisted : code.text? = none) :
    (Code.or (.call (.refMember config.slotsetParam "get") [.text key]) code).contents config =
      .call (.refMember config.slotsetParam "get") [.text key] :: code.contents config := by
  subst hconfig
  rw [contents_of_text? hlisted]
  rfl

theorem contents_empty :
    (config.callPrimitive config.primitives.empty []).contents config = [] := by
  subst hconfig
  rfl

end Code

mutual

/-- The pieces of a layout correspond to those of the code and of what the code is read through. -/
theorem Reads.census (hconfig : env.config = {}) :
    ∀ {code : Code} {ls : List Layout} {used : Multiset Function}, Reads env t m code ls used →
      Matches env t m (layoutPieces ls)
        (code.contents env.config + resultPieces env.config used)
  | _, _, _, .text coded => .cons coded .zero
  | _, _, _, .shown plain coded => by
    rw [Code.contents_callPrimitive (by simp), Code.operandPieces, plain.pieces_eq_nil hconfig]
    exact .cons coded .zero
  | _, _, _, .empty => by
    rw [Code.contents_empty hconfig]
    exact .zero
  | _, _, _, .plain plain listed coded reads => by
    have ih := reads.census hconfig
    rw [Code.contents_callPrimitive (by simp), Code.operandPieces_element hconfig rfl plain listed,
      layoutPieces_piece]
    exact .cons coded ih
  | _, _, _, .component plainComponent plain listed coded reads => by
    have ih := reads.census hconfig
    rw [Code.contents_callPrimitive (by simp), Code.operandPieces_element hconfig
      (plainComponent.pieces_eq_nil hconfig) plain listed, layoutPieces_piece]
    exact .cons coded ih
  | _, _, _, .custom plainComponent plain coded reads => by
    have ih := reads.census hconfig
    rw [Code.contents_callPrimitive (by simp),
      Code.operandPieces_custom hconfig plainComponent plain, layoutPieces, layoutPieces,
      List.append_nil, Layout.pieces]
    exact .cons coded ih
  | .conditional test body alternative, _, _, .choose plain tests reads readsAlternative => by
    have ih := reads.census hconfig
    have ih' := readsAlternative.census hconfig
    have hcontents : (Code.conditional test body alternative).contents env.config =
        .conditional test body alternative ::
          (body.contents env.config ++ alternative.contents env.config) := by
      rw [Code.contents_of_text? rfl, Code.pieces, plain.pieces_eq_nil hconfig, List.nil_append]
      rfl
    rw [hcontents, layoutPieces, layoutPieces, List.append_nil, Layout.pieces, resultPieces_add]
    exact .cons (.condition tests) (ih.append ih')
  | _, _, _, .guarded reads => reads.census hconfig
  | _, _, _, .outlet listed coded reads => by
    rw [Code.contents_outlet hconfig listed, layoutPieces_piece]
    exact .cons coded (reads.census hconfig)
  | _, _, _, .row reads => reads.census hconfig
  | _, _, _, .flattened listed reads => by
    rw [Code.contents_flatten hconfig listed]
    exact reads.census hconfig
  | _, _, _, .inline plain repeats reads => by
    have ih := reads.census hconfig
    rw [Code.contents_callPrimitive (by simp), Code.operandPieces, plain.pieces_eq_nil hconfig,
      Code.operandPieces, Code.operandPieces, List.append_nil, layoutPieces_piece]
    exact .cons (.iteration repeats) ih
  | _, _, _, .declared plain repeats _ _ reads => by
    have ih := reads.census hconfig
    rw [Code.contents_callPrimitive (by simp), Code.operandPieces, plain.pieces_eq_nil hconfig,
      layoutPieces_piece, resultPieces_cons]
    exact .cons (.iteration repeats) ((Multiset.zero_add _).symm ▸ ih)

theorem ReadsRow.census (hconfig : env.config = {}) :
    ∀ {codes : List Code} {ls : List Layout} {used : Multiset Function},
      ReadsRow env t m codes ls used → Matches env t m (layoutPieces ls)
        (Code.itemPieces env.config codes + resultPieces env.config used)
  | _, _, _, .nil => .zero
  | _, _, _, .cons head tail => by
    rw [Code.itemPieces_cons, layoutPieces_append, resultPieces_add]
    exact (head.census hconfig).append (tail.census hconfig)

theorem ReadsSlots.census (hconfig : env.config = {}) :
    ∀ {slots : List (String × Code)} {contents : List (String × List Layout)}
      {used : Multiset Function}, ReadsSlots env t m slots contents used →
        Matches env t m (slotPieces contents)
          (Code.entryPieces env.config slots + resultPieces env.config used)
  | _, _, _, .nil => .zero
  | _, _, _, .cons listed head tail => by
    have ih := head.census hconfig
    rw [Code.contents_of_text? listed] at ih
    rw [Code.entryPieces, slotPieces, resultPieces_add]
    exact ih.append (tail.census hconfig)

end

end TemplateCompiler
