import Mathlib.Data.List.Infix
import TemplateCompiler.Proofs.Compilation
import TemplateCompiler.Proofs.Readings

/-!
# What the markup binds where

An element of a template is found by its place. The elements around a site are those at the places
outward from it, and a name means what the innermost of them binds that repeats for the name. What
an element iterates over is outside of its own iteration, all else about it inside.
-/

namespace TemplateCompiler

/-- A place and the places of the elements around it, innermost first. -/
def Place.outward (p : Place) : List Place :=
  p.inits.reverse

theorem Place.outward_append (p : Place) (i : Nat) :
    Place.outward (p ++ [i]) = (p ++ [i]) :: p.outward := by
  simp [Place.outward, List.inits_append]

theorem Place.mem_outward {p q : Place} : q ∈ p.outward ↔ q <+: p := by
  simp [Place.outward]

/-- The elements whose iterations a site is in, innermost first. -/
def Site.enclosing (s : Site) : List Place :=
  if s.inIterable then s.place.outward.tail else s.place.outward

theorem Site.prefix_of_mem_enclosing {s : Site} {p : Place} (h : p ∈ s.enclosing) :
    p <+: s.place := by
  unfold Site.enclosing at h
  split at h
  · exact Place.mem_outward.1 (List.mem_of_mem_tail h)
  · exact Place.mem_outward.1 h

theorem Site.enclosing_iterable (p : Place) (i : Nat) :
    Site.enclosing ⟨p ++ [i], true⟩ = Site.enclosing ⟨p, false⟩ := by
  simp [Site.enclosing, Place.outward_append]

/-- Inside an element, its own iteration counts too. -/
theorem Site.enclosing_inside (p : Place) :
    Site.enclosing ⟨p, false⟩ = p :: Site.enclosing ⟨p, true⟩ := by
  rcases List.eq_nil_or_concat p with rfl | ⟨q, i, rfl⟩
  · rfl
  · simp [Site.enclosing, Place.outward_append]

/-! ## Elements by their places -/

def Node.children : Node → List Node
  | .element _ _ _ children => children
  | _ => []

def Node.child? (node : Node) (i : Nat) : Option Node :=
  (elementsOf node.children)[i]?

def Template.elementAt? (t : Template) (p : Place) : Option Node :=
  t.root?.bind (p.foldlM Node.child?)

theorem Template.elementAt?_append (t : Template) (p : Place) (i : Nat) :
    t.elementAt? (p ++ [i]) = (t.elementAt? p).bind (Node.child? · i) := by
  simp only [Template.elementAt?, List.foldlM_append, List.foldlM_cons, List.foldlM_nil]
  rcases t.root? with _ | root
  · rfl
  · simp

mutual

/-- The elements in a node, those inside of others too. -/
def Node.allElements : Node → List Node
  | .element pos tag attributes children =>
    .element pos tag attributes children :: allElementsOf children
  | .fragment _ children => allElementsOf children
  | .text .. | .placeholder .. | .literal .. | .attr _ | .template .. => []

def allElementsOf : List Node → List Node
  | [] => []
  | node :: rest => node.allElements ++ allElementsOf rest

end

theorem allElementsOf_eq_flatMap :
    ∀ nodes, allElementsOf nodes = nodes.flatMap Node.allElements :=
  eq_flatMap rfl fun _ _ => rfl

/-- The elements of a template, its root included. -/
def Template.elements (t : Template) : List Node :=
  (t.root?.map Node.allElements).getD []

mutual

theorem Node.allElements_subset : ∀ {node e : Node}, e ∈ node.elements →
    e.allElements ⊆ node.allElements
  | .element .., _, h => by
    rw [Node.elements, List.mem_singleton] at h
    exact h ▸ List.Subset.refl _
  | .fragment _ children, _, h => by
    rw [Node.allElements]
    exact allElements_subset_of_mem h
  | .text .., _, h | .placeholder .., _, h | .literal .., _, h | .attr _, _, h
  | .template .., _, h => by simp [Node.elements] at h

theorem allElements_subset_of_mem : ∀ {nodes : List Node} {e : Node}, e ∈ elementsOf nodes →
    e.allElements ⊆ allElementsOf nodes
  | node :: rest, _, h => by
    rw [elementsOf] at h
    rw [allElementsOf]
    rcases List.mem_append.1 h with h | h
    · exact List.subset_append_of_subset_left _ (Node.allElements_subset h)
    · exact List.subset_append_of_subset_right _ (allElements_subset_of_mem h)

end

theorem Node.allElements_subset_of_child? {node child : Node} {i : Nat}
    (h : node.child? i = some child) : child.allElements ⊆ node.allElements := by
  have hmem : child ∈ elementsOf node.children := List.mem_of_getElem? h
  cases node with
  | element =>
    rw [Node.allElements]
    exact List.subset_cons_of_subset _ (allElements_subset_of_mem hmem)
  | _ => simp [Node.children, elementsOf] at hmem

/-- An element that is at some place is one of the template's. -/
theorem Template.mem_elements {t : Template} {p : Place} {pos : Position} {tag : Tag}
    {attributes : List Attribute} {children : List Node}
    (h : t.elementAt? p = some (.element pos tag attributes children)) :
    .element pos tag attributes children ∈ t.elements := by
  have hdescend : ∀ (p : Place) (root node : Node), p.foldlM Node.child? root = some node →
      node.allElements ⊆ root.allElements := by
    intro p
    induction p with
    | nil =>
      intro root node h
      rw [Option.some.inj h]
      exact List.Subset.refl _
    | cons i rest ih =>
      intro root node h
      obtain ⟨child, hchild, hrest⟩ := Option.bind_eq_some_iff.1 h
      exact List.Subset.trans (ih child node hrest) (Node.allElements_subset_of_child? hchild)
  obtain ⟨root, hroot, hnode⟩ := Option.bind_eq_some_iff.1 h
  rw [elements, hroot, Option.map_some, Option.getD_some]
  exact hdescend p root _ hnode List.mem_cons_self

namespace Reading

def isCondition : Reading → Bool
  | condition _ => true
  | _ => false

def isAlternative : Reading → Bool
  | alternative _ => true
  | _ => false

/-- The names that an element repeats for, none if it does not repeat. -/
def parameters (readings : List Reading) : List String :=
  match LoopPart.iterable? (loopParts readings), LoopPart.parameters (loopParts readings) with
  | .ok (some _), .ok names => names
  | _, _ => []

end Reading

def Node.readings (config : Config) : Node → List Reading
  | .element _ _ attributes _ =>
    match Reading.ofAttributes config [] attributes with
    | .ok readings => readings
    | .error _ => []
  | _ => []

namespace Template

variable (config : Config) (t : Template)

def readingsAt (p : Place) : List Reading :=
  ((t.elementAt? p).map (Node.readings config)).getD []

def binderAt (p : Place) : Binder :=
  ⟨p, Reading.parameters (t.readingsAt config p)⟩

end Template

/-- The binder that a name means, of binders given innermost first. -/
def nearest (binders : List Binder) (name : String) : Option Binder :=
  binders.find? fun b => b.parameters.contains name

theorem isSome_nearest (binders : List Binder) (name : String) :
    (nearest binders name).isSome = binds binders name := by
  simp [nearest, binds, List.isSome_find?]

theorem nearest_append (inner outer : List Binder) (name : String) :
    nearest (inner ++ outer) name = (nearest inner name).or (nearest outer name) :=
  List.find?_append

namespace Template

variable (config : Config) (t : Template)

/-- The binder that the markup gives a name at a site. -/
def binder? (s : Site) (name : String) : Option Binder :=
  nearest (s.enclosing.map (t.binderAt config)) name

/-- A site in an element that is marked as an else and follows, among the elements of one parent,
the element at a place, which has an if. -/
def InElseOf (q : Place) (s : Site) : Prop :=
  ∃ around i j, q = around ++ [i] ∧ i < j ∧ around ++ [j] <+: s.place ∧
    (t.readingsAt config q).any Reading.isCondition ∧
    (t.readingsAt config (around ++ [j])).any Reading.isAlternative

variable {config t}

/-- What such a site is in is beside the element with the if, and so nothing in it is bound
there. -/
theorem InElseOf.binder?_ne {q : Place} {s : Site} (h : t.InElseOf config q s) {b : Binder}
    (hb : b.place = q) (name : String) : t.binder? config s name ≠ some b := by
  obtain ⟨around, i, j, rfl, hij, hj, -, -⟩ := h
  intro hn
  obtain ⟨p, hp, rfl⟩ := List.mem_map.1 (List.mem_of_find?_eq_some hn)
  have hi : around ++ [i] <+: s.place := hb ▸ Site.prefix_of_mem_enclosing hp
  have heq : around ++ [i] = around ++ [j] :=
    (List.prefix_of_prefix_length_le hi hj (by simp)).eq_of_length (by simp)
  simp only [List.append_cancel_left_eq, List.cons.injEq, and_true] at heq
  omega

end Template

/-! ## Names an iteration may not bind -/

/-- The names that a part of an iteration binds. -/
def LoopPart.names : LoopPart → List String
  | .statement s => s.parameters
  | .item name | .index name => [name]
  | .each _ | .idle => []

namespace Reading

variable {config : Config}

theorem notMem_reserved_of_checkParameters {names : List String} {u : Unit}
    (h : checkParameters config names = .ok u) : ∀ x ∈ names, x ∉ config.reserved := by
  unfold checkParameters at h
  split at h
  · simp at h
  · rename_i hnone
    intro x hx
    simpa using List.find?_eq_none.1 hnone x hx

theorem notMem_reserved_of_parameterName {m : Modifier} {content : Content} {name : String}
    (h : parameterName config m content = .ok name) : name ∉ config.reserved := by
  unfold parameterName at h
  split at h
  · rename_i text _
    split at h
    · rcases hc : checkParameters config [text] with problem | u
      · simp [hc, bind, Except.bind] at h
      · simp only [hc, bind, Except.bind, pure, Except.pure, Except.ok.injEq] at h
        exact h ▸ notMem_reserved_of_checkParameters hc text (by simp)
    · simp at h
  · simp at h

theorem notMem_reserved_of_isRead {a : Attribute} {part : LoopPart}
    (h : a.IsRead config (.iteration part)) : ∀ x ∈ part.names, x ∉ config.reserved := by
  obtain ⟨_, _, -, -, hread⟩ := h
  cases hread with
  | iteration reads =>
    cases reads with
    | statement _ _ free => exact notMem_reserved_of_checkParameters free
    | item names | index names =>
      simpa [LoopPart.names] using notMem_reserved_of_parameterName names
    | each | idle => simp [LoopPart.names]

theorem mem_names_of_mem_parameters {readings : List Reading} {x : String}
    (h : x ∈ parameters readings) : ∃ part, .iteration part ∈ readings ∧ x ∈ part.names := by
  have hparts : ∀ part ∈ loopParts readings, .iteration part ∈ readings := by
    intro part hpart
    obtain ⟨r, hr, hsome⟩ := List.mem_filterMap.1 hpart
    cases r <;> simp at hsome
    exact hsome ▸ hr
  unfold parameters at h
  split at h
  · rename_i names _ hnames
    unfold LoopPart.parameters at hnames
    split at hnames
    · rename_i s hs
      simp only [Except.ok.injEq] at hnames
      obtain ⟨part, hpart, hsome⟩ := List.exists_of_findSome?_eq_some hs
      cases part <;> simp at hsome
      exact ⟨_, hparts _ hpart, by simpa [LoopPart.names, hsome, hnames] using h⟩
    · simp only at hnames
      split at hnames
      · simp only [Except.ok.injEq] at hnames
        rw [← hnames, List.mem_append] at h
        rcases h with h | h
        · obtain ⟨part, hpart, hsome⟩ :=
            List.exists_of_findSome?_eq_some (Option.mem_toList.1 h)
          cases part <;> simp at hsome
          exact ⟨_, hparts _ hpart, by simp [LoopPart.names, hsome]⟩
        · obtain ⟨part, hpart, hsome⟩ :=
            List.exists_of_findSome?_eq_some (Option.mem_toList.1 h)
          cases part <;> simp at hsome
          exact ⟨_, hparts _ hpart, by simp [LoopPart.names, hsome]⟩
      · simp at hnames
  · simp at h

end Reading

/-- What an element repeats for is never a name the module binds itself. -/
theorem Template.notMem_reserved {config : Config} {t : Template} {p : Place} {x : String}
    (h : x ∈ (t.binderAt config p).parameters) : x ∉ config.reserved := by
  obtain ⟨part, hpart, hx⟩ := Reading.mem_names_of_mem_parameters h
  unfold Template.readingsAt at hpart
  rcases hnode : t.elementAt? p with _ | node
  · simp [hnode] at hpart
  · simp only [hnode, Option.map_some, Option.getD_some] at hpart
    cases node with
    | element pos tag attributes children =>
      simp only [Node.readings] at hpart
      split at hpart
      · rename_i hread
        obtain ⟨_, -, hattribute⟩ := Reading.exists_attribute_of_mem hread hpart
        exact Reading.notMem_reserved_of_isRead hattribute x hx
      · simp at hpart
    | text | placeholder | fragment | literal | attr | template => simp [Node.readings] at hpart

/-! ## Templates written out -/

namespace Attribute

/-- An attribute with a namespace and a text. -/
def text (ns name value : String) : Attribute :=
  ⟨⟨none, none⟩, ⟨some ns, name⟩, .node (.literal ⟨none, none⟩ (.text value))⟩

def named (name value : String) : Attribute :=
  ⟨⟨none, none⟩, ⟨none, name⟩, .node (.literal ⟨none, none⟩ (.text value))⟩

def bare (ns name : String) : Attribute :=
  ⟨⟨none, none⟩, ⟨some ns, name⟩, .bare⟩

end Attribute

namespace Node

def plain (name : String) (attributes : List Attribute) (children : List Node) : Node :=
  .element ⟨none, none⟩ ⟨none, name⟩ attributes children

def name (id : String) : Node :=
  .placeholder ⟨none, none⟩ (some (.name none id))

end Node

def Template.ofRoot (children : List Node) : Template :=
  ⟨⟨none, none⟩, [.plain "template" [] children]⟩

def Env.default : Env :=
  ⟨{}, none, none, none⟩

end TemplateCompiler
