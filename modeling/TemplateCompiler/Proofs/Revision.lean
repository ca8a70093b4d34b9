import TemplateCompiler.Proofs.Compilation
import TemplateCompiler.Proofs.Readings
import TemplateCompiler.Proofs.Rewriting

/-!
# Writing the attributes of an element in another way

A template is revised by other attributes on one of its elements, wherever the element stands. If
the element is lowered alike with the one row of attributes and with the other, then the templates
compile to the same or both do not (`Template.Revises.ok_iff`). Only what is said of a failure may
differ.
-/

namespace TemplateCompiler

/-- The attributes of an element somewhere in a node are revised. -/
inductive Revises (A : List Attribute → List Attribute → Prop) : Node → Node → Prop where
  | attributes {pos tag attributes attributes' nodes} (h : A attributes attributes') :
      Revises A (.element pos tag attributes nodes) (.element pos tag attributes' nodes)
  | child {pos tag attributes left n n' right} (h : Revises A n n') :
      Revises A (.element pos tag attributes (left ++ n :: right))
        (.element pos tag attributes (left ++ n' :: right))
  | member {pos left n n' right} (h : Revises A n n') :
      Revises A (.fragment pos (left ++ n :: right)) (.fragment pos (left ++ n' :: right))
  | body {pos left n n' right} (h : Revises A n n') :
      Revises A (.template pos (left ++ n :: right)) (.template pos (left ++ n' :: right))
  | value {pos tag left place name n n' right nodes} (h : Revises A n n') :
      Revises A (.element pos tag (left ++ ⟨place, name, .node n⟩ :: right) nodes)
        (.element pos tag (left ++ ⟨place, name, .node n'⟩ :: right) nodes)
  | attr {place name n n'} (h : Revises A n n') :
      Revises A (.attr ⟨place, name, .node n⟩) (.attr ⟨place, name, .node n'⟩)

def Template.Revises (A : List Attribute → List Attribute → Prop) (t t' : Template) : Prop :=
  TemplateCompiler.Revises A (.template t.pos t.body) (.template t'.pos t'.body)

namespace CompileM

variable {α β : Type} {m m' : CompileM α}

/-! ## Steps that succeed alike -/

/-- Steps that succeed in the same contexts, with one result and one effect. -/
def SucceedsLike (m m' : CompileM α) : Prop :=
  ∀ c a c', Yields m' c a c' ↔ Yields m c a c'

theorem SucceedsLike.refl (m : CompileM α) : SucceedsLike m m :=
  fun _ _ _ => Iff.rfl

theorem SucceedsLike.symm (h : SucceedsLike m m') : SucceedsLike m' m :=
  fun c a c' => (h c a c').symm

theorem SucceedsLike.of_eq (h : m' = m) : SucceedsLike m m' :=
  h ▸ .refl m

theorem SucceedsLike.of_never (h : ∀ {c a c'}, ¬ Yields m c a c')
    (h' : ∀ {c a c'}, ¬ Yields m' c a c') : SucceedsLike m m' :=
  fun _ _ _ => iff_of_false h' h

theorem SucceedsLike.bind {f f' : α → CompileM β} (h : SucceedsLike m m')
    (hf : ∀ a, SucceedsLike (f a) (f' a)) : SucceedsLike (m >>= f) (m' >>= f') := by
  intro c b c'
  rw [yields_bind, yields_bind]
  exact exists_congr fun a => exists_congr fun c₁ => and_congr (h c a c₁) (hf a c₁ b c')

theorem SucceedsLike.then (h : SucceedsLike m m') (f : α → CompileM β) :
    SucceedsLike (m >>= f) (m' >>= f) :=
  h.bind fun a => .refl (f a)

end CompileM

/-- Rows of attributes with which any element is lowered alike. -/
def Interchangeable (env : Env) (attributes attributes' : List Attribute) : Prop :=
  ∀ place pos tag children, CompileM.SucceedsLike
    (CompileM.lowerElement env place pos tag attributes children)
    (CompileM.lowerElement env place pos tag attributes' children)

variable {A : List Attribute → List Attribute → Prop} {env : Env} {n n' : Node}

/-! ## Elements -/

/-- Readings with which the same is done to an element. -/
structure Reading.Alike (env : Env) (readings readings' : List Reading) : Prop where
  component : component? readings' = component? readings
  isDirective : readings'.any Reading.isDirective = readings.any Reading.isDirective
  slot : slotOf readings' = slotOf readings
  outlet : outletName readings' = outletName readings
  loop : ∀ place pos, CompileM.SucceedsLike (CompileM.openLoop env place pos readings)
    (CompileM.openLoop env place pos readings')
  parts : ∀ site pos isComponent, CompileM.SucceedsLike
    (CompileM.resolveReadings env site pos isComponent readings)
    (CompileM.resolveReadings env site pos isComponent readings')

theorem Reading.Alike.symm {readings readings' : List Reading}
    (h : Reading.Alike env readings readings') : Reading.Alike env readings' readings :=
  ⟨h.component.symm, h.isDirective.symm, h.slot.symm, h.outlet.symm,
    fun place pos => (h.loop place pos).symm,
    fun site pos isComponent => (h.parts site pos isComponent).symm⟩

namespace CompileM

variable {attributes attributes' : List Attribute} {readings readings' : List Reading}

theorem readElement_of_alike {pos : Position} {tag : Tag} {found : List Reading}
    {kind : ElementKind} {c c' : Context}
    (h : Yields (readElement env pos tag attributes) c (found, kind) c')
    (hread : Reading.ofAttributes env.config [] attributes = .ok readings)
    (hread' : Reading.ofAttributes env.config [] attributes' = .ok readings')
    (halike : Reading.Alike env readings readings') :
    found = readings ∧ Yields (readElement env pos tag attributes') c (readings', kind) c' := by
  have hfound := (readElement_yields h).1
  rw [hread] at hfound
  obtain rfl := Except.ok.inj hfound
  refine ⟨rfl, ?_⟩
  unfold readElement at h ⊢
  rw [hread] at h
  rw [hread']
  dsimp only at h ⊢
  rw [halike.component, halike.isDirective]
  by_cases htag : tag.name.toList.contains '.'
  · simp only [htag, if_true, yields_bind, yields_reject, false_and, exists_false] at h
  · simp only [htag, Bool.false_eq_true, if_false, yields_ite, yields_bind, yields_reject,
      yields_pure, false_and, exists_false, Prod.mk.injEq, true_and] at h ⊢
    exact h

theorem exists_readings {place : Place} {pos : Position} {tag : Tag}
    {children : CompileM (List Sibling)} {s : Sibling} {c c' : Context}
    (h : Yields (lowerElement env place pos tag attributes children) c s c') :
    ∃ readings, Reading.ofAttributes env.config [] attributes = .ok readings := by
  rw [lowerElement, yields_bind] at h
  obtain ⟨⟨readings, kind⟩, _, hread, -⟩ := h
  exact ⟨readings, (readElement_yields hread).1⟩

/-- An element is lowered by its readings. -/
theorem lowerElement_of_alike {place : Place} {pos : Position} {tag : Tag}
    {children : CompileM (List Sibling)} {s : Sibling} {c c' : Context}
    (h : Yields (lowerElement env place pos tag attributes children) c s c')
    (hread : Reading.ofAttributes env.config [] attributes = .ok readings)
    (hread' : Reading.ofAttributes env.config [] attributes' = .ok readings')
    (halike : Reading.Alike env readings readings') :
    Yields (lowerElement env place pos tag attributes' children) c s c' := by
  rw [lowerElement, yields_bind] at h ⊢
  obtain ⟨⟨found, kind⟩, c₁, hfound, h⟩ := h
  obtain ⟨rfl, hfound'⟩ := readElement_of_alike hfound hread hread' halike
  refine ⟨_, c₁, hfound', ?_⟩
  dsimp only at h ⊢
  rw [halike.component, halike.slot, halike.outlet]
  refine (SucceedsLike.bind (halike.loop place pos) (fun loop => ?_) c₁ s c').2 h
  exact (halike.parts ⟨place, false⟩ pos kind.isComponent).then _

end CompileM

/-- Attributes are interchangeable if both rows can be read, and alike, or neither can. -/
theorem interchangeable_of_alike {attributes attributes' : List Attribute}
    (h : ∀ {readings}, Reading.ofAttributes env.config [] attributes = .ok readings →
      ∃ readings', Reading.ofAttributes env.config [] attributes' = .ok readings' ∧
        Reading.Alike env readings readings')
    (h' : ∀ {readings'}, Reading.ofAttributes env.config [] attributes' = .ok readings' →
      ∃ readings, Reading.ofAttributes env.config [] attributes = .ok readings) :
    Interchangeable env attributes attributes' := by
  intro place pos tag children c s c'
  constructor
  · intro hyields
    obtain ⟨_, hread'⟩ := CompileM.exists_readings hyields
    obtain ⟨_, hread⟩ := h' hread'
    obtain ⟨_, hsame, halike⟩ := h hread
    exact CompileM.lowerElement_of_alike hyields hsame hread halike.symm
  · intro hyields
    obtain ⟨_, hread⟩ := CompileM.exists_readings hyields
    obtain ⟨_, hread', halike⟩ := h hread
    exact CompileM.lowerElement_of_alike hyields hread hread' halike

/-- Attributes are interchangeable between others if they can be read in the same cases, and alike
between any readings of the others. -/
theorem interchangeable_between {left right middle middle' : List Attribute}
    (hnodup : ((left ++ middle' ++ right).filterMap Attribute.modifier?).Nodup ↔
      ((left ++ middle ++ right).filterMap Attribute.modifier?).Nodup)
    (h : ∀ {M}, List.Forall₂ (Attribute.IsRead env.config) middle M →
      ∃ M', List.Forall₂ (Attribute.IsRead env.config) middle' M' ∧
        ∀ {L R}, List.Forall₂ (Attribute.IsRead env.config) left L →
          List.Forall₂ (Attribute.IsRead env.config) right R →
          Reading.Alike env (L ++ M ++ R) (L ++ M' ++ R))
    (h' : ∀ {M'}, List.Forall₂ (Attribute.IsRead env.config) middle' M' →
      ∃ M, List.Forall₂ (Attribute.IsRead env.config) middle M) :
    Interchangeable env (left ++ middle ++ right) (left ++ middle' ++ right) := by
  refine interchangeable_of_alike (fun hread => ?_) fun hread => ?_
  · obtain ⟨hreads, hmodifiers⟩ := Reading.ofAttributes_eq_ok_iff.1 hread
    obtain ⟨LM, R, rfl, hLM, hR⟩ := forall₂_append_left hreads
    obtain ⟨L, M, rfl, hL, hM⟩ := forall₂_append_left hLM
    obtain ⟨M', hM', halike⟩ := h hM
    exact ⟨_, Reading.ofAttributes_eq_ok_iff.2
      ⟨List.rel_append (List.rel_append hL hM') hR, hnodup.2 hmodifiers⟩, halike hL hR⟩
  · obtain ⟨hreads, hmodifiers⟩ := Reading.ofAttributes_eq_ok_iff.1 hread
    obtain ⟨LM, R, rfl, hLM, hR⟩ := forall₂_append_left hreads
    obtain ⟨L, M', rfl, hL, hM'⟩ := forall₂_append_left hLM
    obtain ⟨M, hM⟩ := h' hM'
    exact ⟨_, Reading.ofAttributes_eq_ok_iff.2
      ⟨List.rel_append (List.rel_append hL hM) hR, hnodup.1 hmodifiers⟩⟩

/-! ## Nodes -/

/-- A node in which attributes can be revised is no value of an attribute, revised or not. -/
theorem Revises.ofAttribute (h : Revises A n n') (place : Position) (name : Tag)
    (content : Content) : Content.ofAttribute ⟨place, name, .node n⟩ ≠ .ok content ∧
      Content.ofAttribute ⟨place, name, .node n'⟩ ≠ .ok content := by
  cases h <;> exact ⟨by simp [Content.ofAttribute], by simp [Content.ofAttribute]⟩

theorem Revises.length_elements (h : Revises A n n') :
    n'.elements.length = n.elements.length := by
  induction h with
  | member _ ih =>
    simp only [Node.elements, elementsOf_append, elementsOf, List.length_append, ih]
  | attributes | child | body | value | attr => rfl

namespace CompileM

/-- An element is not lowered with an attribute that has no content. -/
theorem not_yields_lowerElement {place : Place} {pos : Position} {tag : Tag}
    {attributes : List Attribute} {children : CompileM (List Sibling)} {a : Attribute}
    (ha : a ∈ attributes) (h : ∀ content, Content.ofAttribute a ≠ .ok content)
    {c : Context} {s : Sibling} {c' : Context} :
    ¬ Yields (lowerElement env place pos tag attributes children) c s c' := by
  intro hyields
  obtain ⟨readings, hread⟩ := exists_readings hyields
  obtain ⟨-, -, -, content, -, hcontent, -⟩ := Reading.exists_reading_of_mem hread ha
  exact h content hcontent

theorem lowerElement_succeedsLike (place : Place) (pos : Position) (tag : Tag)
    (attributes : List Attribute) {children children' : CompileM (List Sibling)}
    (h : SucceedsLike children children') :
    SucceedsLike (lowerElement env place pos tag attributes children)
      (lowerElement env place pos tag attributes children') :=
  .bind (.refl _) fun _ => .bind (.refl _) fun _ => .bind (.refl _) fun _ => h.then _

theorem lowerNodes_succeedsLike {around : Place} {before : Nat} (left right : List Node)
    (hlength : n'.elements.length = n.elements.length)
    (h : ∀ before, SucceedsLike (lowerNode env around before n) (lowerNode env around before n')) :
    SucceedsLike (lowerNodes env around before (left ++ n :: right))
      (lowerNodes env around before (left ++ n' :: right)) := by
  rw [lowerNodes_append, lowerNodes_append]
  refine .bind (.refl _) fun siblings => SucceedsLike.then ?_ _
  rw [lowerNodes, lowerNodes, hlength]
  exact (h _).then _

end CompileM

open CompileM in
theorem Revises.succeedsLike (h : Revises A n n')
    (hA : ∀ {attributes attributes'}, A attributes attributes' →
      Interchangeable env attributes attributes') :
    ∀ (around : Place) (before : Nat),
      SucceedsLike (lowerNode env around before n) (lowerNode env around before n') := by
  induction h with
  | attributes h =>
    intro around before
    rw [lowerNode, lowerNode]
    exact (hA h _ _ _ _).then _
  | @child _ _ _ left _ _ right h ih =>
    intro around before
    rw [lowerNode, lowerNode]
    refine (lowerElement_succeedsLike _ _ _ _ ?_).then _
    exact lowerNodes_succeedsLike left right h.length_elements (ih _)
  | @member _ left _ _ right h ih =>
    intro around before
    rw [lowerNode, lowerNode]
    exact lowerNodes_succeedsLike left right h.length_elements (ih _)
  | @value _ _ _ place name _ _ _ _ h ih =>
    intro around before
    rw [lowerNode, lowerNode]
    have hrefused := h.ofAttribute place name
    refine SucceedsLike.then (.of_never ?_ ?_) _
    · exact not_yields_lowerElement (by simp) fun content => (hrefused content).1
    · exact not_yields_lowerElement (by simp) fun content => (hrefused content).2
  | body | attr =>
    intro around before
    rw [lowerNode, lowerNode]
    exact .refl _

/-! ## Units -/

theorem Template.Revises.exists_node {t t' : Template} (h : t.Revises A t') :
    ∃ left n n' right, TemplateCompiler.Revises A n n' ∧ t'.pos = t.pos ∧
      t.body = left ++ n :: right ∧ t'.body = left ++ n' :: right := by
  obtain ⟨pos, body⟩ := t
  obtain ⟨pos', body'⟩ := t'
  cases h with
  | body h => exact ⟨_, _, _, _, h, rfl, rfl, rfl⟩

theorem Revises.not_isBlank (h : Revises A n n') : n.isBlank = false ∧ n'.isBlank = false := by
  cases h <;> exact ⟨rfl, rfl⟩

theorem Revises.pos_eq (h : Revises A n n') : n'.pos = n.pos := by
  cases h <;> rfl

namespace CompileM

section

variable (hA : ∀ {attributes attributes'}, A attributes attributes' →
  Interchangeable env attributes attributes')
include hA

theorem lowerElement_of_revises {pos pos' : Position} {tag tag' : Tag}
    {attributes attributes' : List Attribute} {nodes nodes' : List Node}
    (h : Revises A (.element pos tag attributes nodes) (.element pos' tag' attributes' nodes')) :
    tag' = tag ∧ ∀ place, SucceedsLike
      (lowerElement env place pos tag attributes (lowerNodes env place 0 nodes))
      (lowerElement env place pos' tag' attributes' (lowerNodes env place 0 nodes')) := by
  cases h with
  | attributes h => exact ⟨rfl, fun place => hA h _ _ _ _⟩
  | child h =>
    refine ⟨rfl, fun place => lowerElement_succeedsLike _ _ _ _ ?_⟩
    exact lowerNodes_succeedsLike _ _ h.length_elements (h.succeedsLike hA _)
  | @value _ _ _ place name _ _ _ _ h =>
    have hrefused := h.ofAttribute place name
    refine ⟨rfl, fun _ => .of_never ?_ ?_⟩
    · exact not_yields_lowerElement (by simp) fun content => (hrefused content).1
    · exact not_yields_lowerElement (by simp) fun content => (hrefused content).2

theorem rootCode_succeedsLike (h : Revises A n n') :
    SucceedsLike (rootCode env n) (rootCode env n') := by
  have hpos := h.pos_eq
  unfold rootCode
  split
  · cases n' with
    | element =>
      obtain ⟨rfl, hlike⟩ := lowerElement_of_revises hA h
      exact (hlike []).then _
    | _ => cases h
  · rename_i hroot
    split
    · cases h <;> exact absurd rfl (hroot _ _ _)
    · exact .of_eq (by rw [hpos])

theorem lowerRoot_succeedsLike {t t' : Template} (h : t.Revises A t') :
    SucceedsLike (lowerRoot env t) (lowerRoot env t') := by
  obtain ⟨left, n, n', right, hn, hpos, hbody, hbody'⟩ := h.exists_node
  obtain ⟨hblank, hblank'⟩ := hn.not_isBlank
  obtain ⟨hroot, hroot'⟩ | heq := lowerRoot_replace env hbody hbody' hpos hn.pos_eq hblank hblank'
  · rw [hroot, hroot']
    exact rootCode_succeedsLike hA hn
  · exact .of_eq heq

end

end CompileM

theorem ok_iff_exists_yields {t : Template} {compiled : Compiled} :
    (compile env t).1 = .ok compiled ↔
      ∃ K, CompileM.Yields (CompileM.compileUnit env t) .initial compiled K := by
  refine ⟨exists_run_of_ok, fun ⟨K, h⟩ => ?_⟩
  have hrun : (CompileM.compileUnit env t).run .initial = .ok compiled K := h
  rw [compile, hrun]

/-- Where attributes are interchangeable, a template with the one and a template with the other
somewhere in it compile to the same module, or neither of them compiles. -/
theorem Template.Revises.ok_iff {t t' : Template} (h : t.Revises A t')
    (hA : ∀ {attributes attributes'}, A attributes attributes' →
      Interchangeable env attributes attributes') (compiled : Compiled) :
    (compile env t').1 = .ok compiled ↔ (compile env t).1 = .ok compiled := by
  have hunit : CompileM.SucceedsLike (CompileM.compileUnit env t)
      (CompileM.compileUnit env t') := by
    unfold CompileM.compileUnit
    exact .bind (.refl _) fun _ => .bind (.refl _) fun _ =>
      (CompileM.lowerRoot_succeedsLike hA h).then _
  rw [ok_iff_exists_yields, ok_iff_exists_yields]
  exact exists_congr fun K => hunit .initial compiled K

end TemplateCompiler
