import TemplateCompiler.Proofs.Place

/-!
# Rewriting markup

A template is rewritten by replacing one row of children in it, at any depth. If lowering cannot
tell the rows apart, compilation cannot tell the templates apart (`Template.Rewrites.sameOutcome`),
but for one thing: a message that refuses a node as an attribute's value shows the node with all
that is in it, unless the node is an element.
-/

namespace TemplateCompiler

/-- A row of children somewhere in a node is rewritten. Of the values of attributes only those that
are allowed are gone into. -/
inductive Rewrites (allowed : Node → Prop) (R : List Node → List Node → Prop) :
    Node → Node → Prop where
  | children {pos tag attributes nodes nodes'} (h : R nodes nodes') :
      Rewrites allowed R (.element pos tag attributes nodes) (.element pos tag attributes nodes')
  | members {pos nodes nodes'} (h : R nodes nodes') :
      Rewrites allowed R (.fragment pos nodes) (.fragment pos nodes')
  | child {pos tag attributes left n n' right} (h : Rewrites allowed R n n') :
      Rewrites allowed R (.element pos tag attributes (left ++ n :: right))
        (.element pos tag attributes (left ++ n' :: right))
  | member {pos left n n' right} (h : Rewrites allowed R n n') :
      Rewrites allowed R (.fragment pos (left ++ n :: right)) (.fragment pos (left ++ n' :: right))
  | body {pos left n n' right} (h : Rewrites allowed R n n') :
      Rewrites allowed R (.template pos (left ++ n :: right)) (.template pos (left ++ n' :: right))
  | value {pos tag left place name n n' right nodes} (h : Rewrites allowed R n n')
      (ha : allowed n) :
      Rewrites allowed R (.element pos tag (left ++ ⟨place, name, .node n⟩ :: right) nodes)
        (.element pos tag (left ++ ⟨place, name, .node n'⟩ :: right) nodes)
  | attr {place name n n'} (h : Rewrites allowed R n n') :
      Rewrites allowed R (.attr ⟨place, name, .node n⟩) (.attr ⟨place, name, .node n'⟩)

def Template.Rewrites (allowed : Node → Prop) (R : List Node → List Node → Prop)
    (t t' : Template) : Prop :=
  TemplateCompiler.Rewrites allowed R (.template t.pos t.body) (.template t'.pos t'.body)

/-- Rows that lowering does not tell apart. -/
structure Unnoticed (env : Env) (nodes nodes' : List Node) : Prop where
  length : (elementsOf nodes').length = (elementsOf nodes).length
  lowers : ∀ around before, CompileM.lowerNodes env around before nodes' =
    CompileM.lowerNodes env around before nodes

namespace CompileM

variable {env : Env} {around : Place}

/-- A row is lowered part by part; elements are counted on. -/
theorem lowerNodes_append : ∀ (nodes nodes' : List Node) (before : Nat),
    lowerNodes env around before (nodes ++ nodes') = (do
      let siblings ← lowerNodes env around before nodes
      let more ← lowerNodes env around (before + (elementsOf nodes).length) nodes'
      return siblings ++ more)
  | [], nodes', before => by simp [lowerNodes, elementsOf]
  | node :: rest, nodes', before => by
    rw [List.cons_append, lowerNodes, lowerNodes, elementsOf]
    simp [lowerNodes_append rest, Nat.add_assoc, ← List.append_assoc]

/-! ## Steps that agree -/

/-- Steps that come to the same, or refuse as an attribute's value a node and what it is rewritten
to. -/
def Agrees (allowed : Node → Prop) (R : List Node → List Node → Prop) {α : Type}
    (m m' : CompileM α) : Prop :=
  ∀ c, m'.run c = m.run c ∨ ∃ v v' qualified pos c', Rewrites allowed R v v' ∧ allowed v ∧
    m.run c = .error (.violation (.notAValue qualified v.shown) pos) c' ∧
    m'.run c = .error (.violation (.notAValue qualified v'.shown) pos) c'

variable {allowed : Node → Prop} {R : List Node → List Node → Prop} {α β : Type}

theorem Agrees.of_eq {m m' : CompileM α} (h : m' = m) : Agrees allowed R m m' :=
  fun c => .inl (by rw [h])

theorem Agrees.refl (m : CompileM α) : Agrees allowed R m m :=
  .of_eq rfl

theorem Agrees.bind {m m' : CompileM α} {f f' : α → CompileM β} (h : Agrees allowed R m m')
    (hf : ∀ a, Agrees allowed R (f a) (f' a)) : Agrees allowed R (m >>= f) (m' >>= f') := by
  intro c
  rw [EStateM.run_bind, EStateM.run_bind]
  rcases h c with heq | ⟨v, v', qualified, pos, c', hv, ha, hm, hm'⟩
  · rw [heq]
    rcases m.run c with ⟨a, c₁⟩ | ⟨failure, c₁⟩
    · exact hf a c₁
    · exact .inl rfl
  · exact .inr ⟨v, v', qualified, pos, c', hv, ha, by rw [hm], by rw [hm']⟩

theorem Agrees.then {m m' : CompileM α} (h : Agrees allowed R m m') (f : α → CompileM β) :
    Agrees allowed R (m >>= f) (m' >>= f) :=
  h.bind fun a => .refl (f a)

end CompileM

variable {allowed : Node → Prop} {R : List Node → List Node → Prop} {env : Env} {n n' : Node}

/-! ## Attributes -/

theorem Rewrites.ofAttribute (h : Rewrites allowed R n n') (place : Position) (name : Tag) :
    Content.ofAttribute ⟨place, name, .node n⟩ = .error (.notAValue name.qualified n.shown) ∧
      Content.ofAttribute ⟨place, name, .node n'⟩ =
        .error (.notAValue name.qualified n'.shown) := by
  cases h <;> exact ⟨rfl, rfl⟩

/-- Where a rewritten node is an attribute's value, it is refused or not come to. -/
theorem Rewrites.ofAttributes (h : Rewrites allowed R n n') (config : Config) (place : Position)
    (name : Tag) (right : List Attribute) : ∀ (left : List Attribute) (taken : List Modifier),
      Reading.ofAttributes config taken (left ++ ⟨place, name, .node n'⟩ :: right) =
          Reading.ofAttributes config taken (left ++ ⟨place, name, .node n⟩ :: right) ∨
        Reading.ofAttributes config taken (left ++ ⟨place, name, .node n⟩ :: right) =
            .error (.notAValue name.qualified n.shown, place) ∧
          Reading.ofAttributes config taken (left ++ ⟨place, name, .node n'⟩ :: right) =
            .error (.notAValue name.qualified n'.shown, place)
  | [], taken => by
    obtain ⟨hn, hn'⟩ := h.ofAttribute place name
    simp only [List.nil_append, Reading.ofAttributes, Reading.ofAttribute, hn, hn']
    rcases Role.ofTag name with problem | role
    · exact .inl rfl
    · exact .inr ⟨rfl, rfl⟩
  | a :: left, taken => by
    simp only [List.cons_append, Reading.ofAttributes]
    split
    · exact .inl rfl
    · rename_i reading m _
      rcases h.ofAttributes config place name right left (m.toList ++ taken) with heq | ⟨hn, hn'⟩
      · exact .inl (by rw [heq])
      · exact .inr ⟨by rw [hn]; rfl, by rw [hn']; rfl⟩

namespace CompileM

theorem readElement_agrees (h : Rewrites allowed R n n') (ha : allowed n) (pos : Position)
    (tag : Tag) (left right : List Attribute) (place : Position) (name : Tag) :
    Agrees allowed R (readElement env pos tag (left ++ ⟨place, name, .node n⟩ :: right))
      (readElement env pos tag (left ++ ⟨place, name, .node n'⟩ :: right)) := by
  unfold readElement
  rcases h.ofAttributes env.config place name right left [] with heq | ⟨hn, hn'⟩
  · rw [heq]
    exact .refl _
  · rw [hn, hn']
    dsimp only
    split
    · exact fun c => .inl rfl
    · exact fun c => .inr ⟨n, n', name.qualified, place, c, h, ha, rfl, rfl⟩

/-- An element is lowered by how its attributes are read and how its children are lowered. -/
theorem lowerElement_agrees {place : Place} {pos : Position} {tag : Tag}
    {attributes attributes' : List Attribute} {children children' : CompileM (List Sibling)}
    (hread : Agrees allowed R (readElement env pos tag attributes)
      (readElement env pos tag attributes'))
    (hchildren : Agrees allowed R children children') :
    Agrees allowed R (lowerElement env place pos tag attributes children)
      (lowerElement env place pos tag attributes' children') := by
  refine hread.bind fun readings => ?_
  refine .bind (.refl _) fun loop => .bind (.refl _) fun parts => ?_
  exact hchildren.then _

end CompileM

/-! ## Nodes -/

/-- What a rewriting of a node leaves as it is. -/
theorem Rewrites.length_elements (h : Rewrites allowed R n n')
    (hR : ∀ {nodes nodes'}, R nodes nodes' → Unnoticed env nodes nodes') :
    n'.elements.length = n.elements.length := by
  induction h with
  | members h => simpa only [Node.elements] using (hR h).length
  | member _ ih =>
    simp only [Node.elements, elementsOf_append, elementsOf, List.length_append, ih]
  | children | child | body | value | attr => rfl

namespace CompileM

theorem lowerNodes_agrees {around : Place} {before : Nat} (left right : List Node)
    (hlength : n'.elements.length = n.elements.length)
    (h : ∀ before, Agrees allowed R (lowerNode env around before n)
      (lowerNode env around before n')) :
    Agrees allowed R (lowerNodes env around before (left ++ n :: right))
      (lowerNodes env around before (left ++ n' :: right)) := by
  rw [lowerNodes_append, lowerNodes_append]
  refine .bind (.refl _) fun siblings => Agrees.then ?_ _
  rw [lowerNodes, lowerNodes, hlength]
  exact (h _).then _

end CompileM

open CompileM in
theorem Rewrites.agrees (h : Rewrites allowed R n n')
    (hR : ∀ {nodes nodes'}, R nodes nodes' → Unnoticed env nodes nodes') :
    ∀ (around : Place) (before : Nat),
      Agrees allowed R (lowerNode env around before n) (lowerNode env around before n') := by
  induction h with
  | children h =>
    intro around before
    rw [lowerNode, lowerNode]
    exact (lowerElement_agrees (.refl _) (.of_eq ((hR h).lowers _ _))).then _
  | members h =>
    intro around before
    rw [lowerNode, lowerNode]
    exact .of_eq ((hR h).lowers _ _)
  | @child _ _ _ left _ _ right h ih =>
    intro around before
    rw [lowerNode, lowerNode]
    refine (lowerElement_agrees (.refl _) ?_).then _
    exact lowerNodes_agrees left right (h.length_elements hR) (ih _)
  | @member _ left _ _ right h ih =>
    intro around before
    rw [lowerNode, lowerNode]
    exact lowerNodes_agrees left right (h.length_elements hR) (ih _)
  | @value pos tag left place name _ _ right _ h ha ih =>
    intro around before
    rw [lowerNode, lowerNode]
    refine (lowerElement_agrees ?_ (.refl _)).then _
    exact readElement_agrees h ha pos tag left right place name
  | body | attr =>
    intro around before
    rw [lowerNode, lowerNode]
    exact .refl _

/-! ## Units -/

theorem Template.Rewrites.exists_node {t t' : Template} (h : t.Rewrites allowed R t') :
    ∃ left n n' right, TemplateCompiler.Rewrites allowed R n n' ∧ t'.pos = t.pos ∧
      t.body = left ++ n :: right ∧ t'.body = left ++ n' :: right := by
  obtain ⟨pos, body⟩ := t
  obtain ⟨pos', body'⟩ := t'
  cases h with
  | body h => exact ⟨_, _, _, _, h, rfl, rfl, rfl⟩

theorem Rewrites.pos_eq (h : Rewrites allowed R n n') : n'.pos = n.pos := by
  cases h <;> rfl

theorem Rewrites.not_isBlank (h : Rewrites allowed R n n') :
    n.isBlank = false ∧ n'.isBlank = false := by
  cases h <;> exact ⟨rfl, rfl⟩

namespace CompileM

theorem lowerElement_agrees_of_rewrites {pos pos' : Position} {tag tag' : Tag}
    {attributes attributes' : List Attribute} {nodes nodes' : List Node}
    (h : Rewrites allowed R (.element pos tag attributes nodes)
      (.element pos' tag' attributes' nodes'))
    (hR : ∀ {nodes nodes'}, R nodes nodes' → Unnoticed env nodes nodes') :
    tag' = tag ∧ ∀ place,
      Agrees allowed R (lowerElement env place pos tag attributes (lowerNodes env place 0 nodes))
        (lowerElement env place pos' tag' attributes' (lowerNodes env place 0 nodes')) := by
  cases h with
  | children h =>
    exact ⟨rfl, fun place => lowerElement_agrees (.refl _) (.of_eq ((hR h).lowers _ _))⟩
  | child h =>
    exact ⟨rfl, fun place => lowerElement_agrees (.refl _)
      (lowerNodes_agrees _ _ (h.length_elements hR) (h.agrees hR _))⟩
  | value h ha =>
    exact ⟨rfl, fun place => lowerElement_agrees (readElement_agrees h ha _ _ _ _ _ _) (.refl _)⟩

/-- The code of a node that is a unit's root. -/
def rootCode (env : Env) : Node → CompileM Code
  | .element pos ⟨none, "template"⟩ attributes children => do
    let root ← lowerElement env [] pos ⟨none, "template"⟩ attributes (lowerNodes env [] 0 children)
    return root.item.code
  | root => reject .rootNotTemplate root.pos

theorem lowerRoot_eq (env : Env) (t : Template) :
    lowerRoot env t = match t.body.filter fun node => !node.isBlank with
      | [] => reject .missingRoot t.pos
      | [root] => rootCode env root
      | _ :: second :: _ => reject .unexpectedToken second.pos := by
  unfold lowerRoot rootCode
  generalize t.body.filter (fun node => !node.isBlank) = nodes
  rcases nodes with _ | ⟨root, _ | ⟨second, others⟩⟩
  · rfl
  · symm
    dsimp only
    split
    · rfl
    · simp
  · rfl

/-- A node with another in its place is the root, or is never come to. -/
theorem lowerRoot_replace (env : Env) {t t' : Template} {left right : List Node} {n n' : Node}
    (hbody : t.body = left ++ n :: right) (hbody' : t'.body = left ++ n' :: right)
    (hpos : t'.pos = t.pos) (hn : n'.pos = n.pos) (hblank : n.isBlank = false)
    (hblank' : n'.isBlank = false) :
    lowerRoot env t = rootCode env n ∧ lowerRoot env t' = rootCode env n' ∨
      lowerRoot env t' = lowerRoot env t := by
  rw [lowerRoot_eq, lowerRoot_eq, hpos, hbody, hbody', List.filter_append, List.filter_append,
    List.filter_cons_of_pos (by simp [hblank]), List.filter_cons_of_pos (by simp [hblank'])]
  generalize left.filter (fun node => !node.isBlank) = before
  generalize right.filter (fun node => !node.isBlank) = after
  rcases before with _ | ⟨first, _ | ⟨second, others⟩⟩
  · rcases after with _ | ⟨second, others⟩
    · exact .inl ⟨rfl, rfl⟩
    · exact .inr rfl
  · exact .inr (by simp [hn])
  · exact .inr rfl

theorem rootCode_agrees (h : Rewrites allowed R n n')
    (hR : ∀ {nodes nodes'}, R nodes nodes' → Unnoticed env nodes nodes') :
    Agrees allowed R (rootCode env n) (rootCode env n') := by
  have hpos := h.pos_eq
  unfold rootCode
  split
  · cases n' with
    | element =>
      obtain ⟨rfl, hagrees⟩ := lowerElement_agrees_of_rewrites h hR
      exact (hagrees []).then _
    | _ => cases h
  · rename_i hroot
    split
    · cases h <;> exact absurd rfl (hroot _ _ _)
    · exact .of_eq (by rw [hpos])

theorem lowerRoot_agrees {t t' : Template} (h : t.Rewrites allowed R t')
    (hR : ∀ {nodes nodes'}, R nodes nodes' → Unnoticed env nodes nodes') :
    Agrees allowed R (lowerRoot env t) (lowerRoot env t') := by
  obtain ⟨left, n, n', right, hn, hpos, hbody, hbody'⟩ := h.exists_node
  obtain ⟨hblank, hblank'⟩ := hn.not_isBlank
  obtain ⟨hroot, hroot'⟩ | heq := lowerRoot_replace env hbody hbody' hpos hn.pos_eq hblank hblank'
  · rw [hroot, hroot']
    exact rootCode_agrees hn hR
  · exact .of_eq heq

end CompileM

/-- Compilations with one outcome, or that refuse as an attribute's value a node and what it is
rewritten to. -/
def SameOutcome (allowed : Node → Prop) (R : List Node → List Node → Prop)
    (outcome outcome' : Except Failure Compiled × List Event) : Prop :=
  outcome' = outcome ∨ ∃ v v' qualified pos log, Rewrites allowed R v v' ∧ allowed v ∧
    outcome = (.error (.violation (.notAValue qualified v.shown) pos), log) ∧
    outcome' = (.error (.violation (.notAValue qualified v'.shown) pos), log)

/-- Where lowering does not tell rows of children apart, compiling does not tell apart templates
with the one and with the other somewhere in them. -/
theorem Template.Rewrites.sameOutcome {t t' : Template} (h : t.Rewrites allowed R t')
    (hR : ∀ {nodes nodes'}, R nodes nodes' → Unnoticed env nodes nodes') :
    SameOutcome allowed R (compile env t) (compile env t') := by
  have hunit : CompileM.Agrees allowed R (CompileM.compileUnit env t)
      (CompileM.compileUnit env t') := by
    unfold CompileM.compileUnit
    exact .bind (.refl _) fun _ => .bind (.refl _) fun _ =>
      (CompileM.lowerRoot_agrees h hR).then _
  unfold compile
  rcases hunit .initial with heq | ⟨v, v', qualified, pos, c, hv, ha, hm, hm'⟩
  · exact .inl (by rw [heq])
  · exact .inr ⟨v, v', qualified, pos, c.log, hv, ha, by rw [hm], by rw [hm']⟩

def Node.IsElement : Node → Prop
  | .element .. => True
  | _ => False

/-- An element that is refused as a value is not shown with what is in it. -/
theorem SameOutcome.eq {outcome outcome' : Except Failure Compiled × List Event}
    (h : SameOutcome Node.IsElement R outcome outcome') : outcome' = outcome := by
  obtain heq | ⟨v, v', qualified, pos, log, hv, ha, rfl, rfl⟩ := h
  · exact heq
  · cases hv with
    | children | child | value => rfl
    | members | member | body | attr => exact ha.elim

end TemplateCompiler
