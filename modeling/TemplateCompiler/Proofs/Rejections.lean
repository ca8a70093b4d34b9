import TemplateCompiler.Proofs.Compilation
import TemplateCompiler.Proofs.Failing

/-!
# What a unit that does not compile is told

Where there is no module, either a node that is no content stands among the children, or a violation
is reported at the unit, at one of its nodes or at one of their attributes
(`ok_or_rejected_at_node`). An expression has positions of its own, and none of them is ever told:
what is wrong in it is told of the node that holds it.
-/

namespace TemplateCompiler

/-! ## Positions and strays -/

mutual

/-- The positions of a node, of its attributes and of the nodes in it. Nothing in an attribute's
value is one of them. -/
def Node.positions : Node → List Position
  | .element pos _ attributes children =>
    pos :: (attributes.map Attribute.pos ++ positionsOf children)
  | .fragment pos children => pos :: positionsOf children
  | .text pos _ | .placeholder pos _ | .literal pos _ | .template pos _ => [pos]
  | .attr a => [a.pos]

def positionsOf : List Node → List Position
  | [] => []
  | node :: rest => node.positions ++ positionsOf rest

end

theorem positionsOf_eq_flatMap : ∀ nodes, positionsOf nodes = nodes.flatMap Node.positions :=
  eq_flatMap rfl fun _ _ => rfl

mutual

/-- What stands where content is expected and is none. -/
def Node.strays : Node → List Misplaced
  | .element _ _ _ children | .fragment _ children => straysOf children
  | .literal .. => [.literal]
  | .attr _ => [.attr]
  | .template .. => [.template]
  | .text .. | .placeholder .. => []

def straysOf : List Node → List Misplaced
  | [] => []
  | node :: rest => node.strays ++ straysOf rest

end

theorem straysOf_eq_flatMap : ∀ nodes, straysOf nodes = nodes.flatMap Node.strays :=
  eq_flatMap rfl fun _ _ => rfl

namespace Template

def positions (t : Template) : List Position :=
  t.pos :: positionsOf t.body

/-- What stands among the children in the root element, at any depth, and is no content. -/
def strays (t : Template) : List Misplaced :=
  match t.root? with
  | some (.element _ _ _ children) => straysOf children
  | _ => []

end Template

theorem Node.pos_mem_positions (node : Node) : node.pos ∈ node.positions := by
  cases node <;> simp [Node.pos, Node.positions]

theorem positions_subset_of_mem {node : Node} {nodes : List Node} (h : node ∈ nodes) :
    node.positions ⊆ positionsOf nodes := by
  rw [positionsOf_eq_flatMap]
  exact fun _ => List.mem_flatMap_of_mem h

/-- A failure that is put down to one of the given positions or strays. -/
inductive Failure.Within (positions : List Position) (strays : List Misplaced) :
    Failure → Prop where
  | violation {problem : Problem} {pos : Position} (reported : pos ∈ positions) :
      Within positions strays (.violation problem pos)
  | misplaced {kind : Misplaced} (stray : kind ∈ strays) : Within positions strays (.misplaced kind)

namespace Failure

variable {e : Failure} {positions positions' : List Position} {strays strays' : List Misplaced}

theorem IsAt.within {pos : Position} (h : e.IsAt pos) (hpos : pos ∈ positions) :
    e.Within positions strays := by
  obtain ⟨problem, rfl⟩ := h
  exact .violation hpos

theorem Within.mono (h : e.Within positions strays) (hpositions : positions ⊆ positions')
    (hstrays : strays ⊆ strays') : e.Within positions' strays' := by
  cases h with
  | violation reported => exact .violation (hpositions reported)
  | misplaced stray => exact .misplaced (hstrays stray)

end Failure

/-! ## Where siblings stand -/

section Siblings

variable {env : Env} {K : Context} {binders : List Binder} {ds : List Declaration}
  {n n' : Numbering}

theorem SealsElement.pos_eq {config : Config} {pos : Position} {tag : Tag}
    {readings : List Reading} {parts : List Part} {items : List Item} {kind : ElementKind}
    {loop : Option Loop} {sibling : Sibling} {outer : List Declaration}
    (h : SealsElement config K pos tag readings parts items ds kind loop sibling outer n n') :
    sibling.pos = pos := by
  cases h <;> rfl

theorem LowersElement.pos_eq {place : Place} {pos : Position} {tag : Tag}
    {attributes : List Attribute} {children : List Node} {sibling : Sibling}
    (h : LowersElement env K binders place pos tag attributes children sibling ds n n') :
    sibling.pos = pos := by
  cases h with
  | mk reads opens lowersReadings lowersChildren finishes seals => exact seals.pos_eq

mutual

theorem LowersNode.strays_eq_nil_and_pos_mem :
    ∀ {node : Node} {binders around before siblings ds n n'},
      LowersNode env K binders around before node siblings ds n n' →
        node.strays = [] ∧ ∀ s ∈ siblings, s.pos ∈ node.positions
  | .text .., _, _, _, _, _, _, _, h => by
    cases h with
    | blank => exact ⟨rfl, by simp⟩
    | text => exact ⟨rfl, List.forall_mem_singleton.2 List.mem_cons_self⟩
  | .placeholder .., _, _, _, _, _, _, _, h => by
    cases h with
    | nothing => exact ⟨rfl, by simp⟩
    | placeholder => exact ⟨rfl, List.forall_mem_singleton.2 List.mem_cons_self⟩
  | .fragment _ children, _, _, _, _, _, _, _, h => by
    cases h with
    | fragment lowersChildren =>
      obtain ⟨hstrays, hsites⟩ := LowersNodes.strays_eq_nil_and_pos_mem lowersChildren
      exact ⟨hstrays, fun s hs => List.mem_cons_of_mem _ (hsites s hs)⟩
  | .element _ _ _ children, _, _, _, _, _, _, _, h => by
    cases h with
    | element lowers =>
      refine ⟨?_, List.forall_mem_singleton.2 (lowers.pos_eq ▸ List.mem_cons_self)⟩
      cases lowers with
      | mk _ _ _ lowersChildren => exact (LowersNodes.strays_eq_nil_and_pos_mem lowersChildren).1
  | .literal .., _, _, _, _, _, _, _, h => nomatch h
  | .attr .., _, _, _, _, _, _, _, h => nomatch h
  | .template .., _, _, _, _, _, _, _, h => nomatch h

/-- What is lowered is content, and a sibling stands where one of the nodes does. -/
theorem LowersNodes.strays_eq_nil_and_pos_mem :
    ∀ {nodes : List Node} {binders around before siblings ds n n'},
      LowersNodes env K binders around before nodes siblings ds n n' →
        straysOf nodes = [] ∧ ∀ s ∈ siblings, s.pos ∈ positionsOf nodes
  | [], _, _, _, _, _, _, _, h => by
    cases h
    exact ⟨rfl, by simp⟩
  | node :: rest, _, _, _, _, _, _, _, h => by
    cases h with
    | cons head tail =>
      obtain ⟨hstrays, hsites⟩ := LowersNode.strays_eq_nil_and_pos_mem head
      obtain ⟨hstrays', hsites'⟩ := LowersNodes.strays_eq_nil_and_pos_mem tail
      rw [straysOf, positionsOf, hstrays, hstrays']
      refine ⟨rfl, List.forall_mem_append.2 ⟨fun s hs => ?_, fun s hs => ?_⟩⟩
      · exact List.mem_append_left _ (hsites s hs)
      · exact List.mem_append_right _ (hsites' s hs)

end

end Siblings

/-! ## Lowering -/

namespace CompileM

variable {env : Env} {c c' : Context} {e : Failure} {pos : Position}

/-- Any open frames bind what some binders do. -/
theorem exists_binders (c : Context) : ∃ binders, c.scope.isBound = binds binders := by
  refine ⟨[⟨[], Frame.boundIn c.scope.frames⟩], funext fun name => ?_⟩
  simp [Scope.isBound, binds]

theorem lowerElement_fails {place : Place} {tag : Tag} {attributes : List Attribute}
    {nodes : List Node}
    (hchildren : ∀ c, c.scope.frames ≠ [] → Fails (lowerNodes env place 0 nodes) c e →
      e.Within (positionsOf nodes) (straysOf nodes))
    (hc : c.scope.frames ≠ [])
    (h : Fails (lowerElement env place pos tag attributes (lowerNodes env place 0 nodes)) c e) :
    e.Within (Node.element pos tag attributes nodes).positions (straysOf nodes) := by
  have hpos : ∀ {e : Failure}, e.IsAt pos →
      e.Within (Node.element pos tag attributes nodes).positions (straysOf nodes) :=
    fun h => h.within List.mem_cons_self
  have hinner : positionsOf nodes ⊆ (Node.element pos tag attributes nodes).positions := by
    rw [Node.positions]
    exact List.Subset.trans (List.subset_append_right _ _) (List.subset_cons_self _ _)
  simp only [lowerElement, fails_bind] at h
  rcases h with h | ⟨⟨readings, kind⟩, c₀, hr, h | ⟨loop, c₁, ho, h | ⟨parts, c₂, hp, h |
    ⟨siblings, c₃, hs, h | ⟨items, c₄, hi, h⟩⟩⟩⟩⟩
  · obtain ⟨found, hfound, h⟩ := readElement_fails h
    refine h.within ?_
    rw [Node.positions, ← List.cons_append]
    exact List.mem_append_left _ hfound
  · exact hpos (openLoop_fails h)
  · exact hpos (resolveReadings_fails h)
  -- the children are lowered with a frame open: that of the loop, or else those around
  all_goals
    obtain ⟨-, -, -, rfl⟩ := readElement_yields hr
    obtain ⟨binders, hbound⟩ := exists_binders c₀
    obtain ⟨-, hf₁, -⟩ := openLoop_yields ho hbound
    obtain ⟨ha₂, -⟩ := resolveReadings_yields hp
    have hc₂ : c₂.scope.frames ≠ [] := by
      rw [ha₂.frames, queued_nil, hf₁]
      cases loop with
      | none => exact hc
      | some loop => simp [opened]
  · exact (hchildren c₂ hc₂ h).mono hinner (List.Subset.refl _)
  all_goals
    obtain ⟨binders₂, hbound₂⟩ := exists_binders c₂
    obtain ⟨ds₃, ha₃, hl⟩ := lowerNodes_yields hs hbound₂
  · obtain ⟨s, hs, h⟩ := finishSiblings_fails (ha₃.frames_ne_nil hc₂) h
    exact h.within (hinner ((hl c₃ (.refl env c₃)).strays_eq_nil_and_pos_mem.2 s hs))
  · -- after the children the frames are those around, so that closing the loop's does not fail
    obtain ⟨ds₄, ha₄, -⟩ := finishChains_yields hi
    have hf₄ : c₄.scope.frames = queued (opened loop c₀.scope.frames) (ds₃ ++ ds₄) := by
      rw [ha₄.frames, ha₃.frames, ha₂.frames, hf₁, queued_nil, queued_queued]
    dsimp only at h
    split at h
    · exact absurd h (not_fails_templateSibling hf₄ hc)
    · exact absurd h not_fails_pure
    · simp only [fails_bind, not_fails_pure, and_false, exists_false, or_false] at h
      rcases h with h | ⟨code, c₅, hcall, h⟩
      · exact hpos (elementCall_fails h)
      · rename_i hnt hno
        obtain ⟨hk, -⟩ := elementCall_yields hcall ⟨hnt, hno⟩
        rw [← hk.scope] at hf₄
        exact absurd h (not_fails_elementForm hf₄)

mutual

theorem lowerNode_fails {around : Place} {before : Nat} : ∀ (node : Node) (c : Context),
    c.scope.frames ≠ [] → Fails (lowerNode env around before node) c e →
      e.Within node.positions node.strays
  | .text pos value => by
    intro c _ h
    simp only [lowerNode, ← apply_ite pure, not_fails_pure] at h
  | .placeholder pos none => by
    intro c _ h
    simp only [lowerNode, not_fails_pure] at h
  | .placeholder pos (some expression) => by
    intro c _ h
    simp only [lowerNode, fails_bind, not_fails_qualify, not_fails_pure, and_false, exists_false,
      or_false] at h
    exact (check_fails h).within List.mem_cons_self
  | .fragment pos children => by
    intro c hc h
    simp only [lowerNode] at h
    exact (lowerNodes_fails children c hc h).mono (List.subset_cons_self _ _) (List.Subset.refl _)
  | .element pos tag attributes children => by
    intro c hc h
    simp only [lowerNode, fails_bind, not_fails_pure, and_false, exists_false, or_false] at h
    exact lowerElement_fails (lowerNodes_fails children) hc h
  | .literal .. | .attr _ | .template .. => by
    intro c _ h
    simp only [lowerNode, fails_throw] at h
    exact h ▸ .misplaced List.mem_cons_self

theorem lowerNodes_fails {around : Place} {before : Nat} : ∀ (nodes : List Node) (c : Context),
    c.scope.frames ≠ [] → Fails (lowerNodes env around before nodes) c e →
      e.Within (positionsOf nodes) (straysOf nodes)
  | [] => by
    intro c _ h
    simp only [lowerNodes, not_fails_pure] at h
  | node :: rest => by
    intro c hc h
    simp only [lowerNodes, fails_bind, not_fails_pure, and_false, exists_false, or_false] at h
    rw [positionsOf, straysOf]
    rcases h with h | ⟨siblings, c₁, hhead, h⟩
    · exact (lowerNode_fails node c hc h).mono (List.subset_append_left _ _)
        (List.subset_append_left _ _)
    · obtain ⟨binders, hbound⟩ := exists_binders c
      obtain ⟨ds, ha, -⟩ := lowerNode_yields hhead hbound
      exact (lowerNodes_fails rest c₁ (ha.frames_ne_nil hc) h).mono (List.subset_append_right _ _)
        (List.subset_append_right _ _)

end

/-! ## Units -/

theorem lowerRoot_fails {t : Template} (hc : c.scope.frames ≠ [])
    (h : Fails (lowerRoot env t) c e) : e.Within t.positions t.strays := by
  have hbody : ∀ node ∈ t.body.filter fun node => !node.isBlank, node.positions ⊆ t.positions :=
    fun node hnode => List.Subset.trans (positions_subset_of_mem (List.mem_of_mem_filter hnode))
      (List.subset_cons_self _ _)
  have hat : ∀ node ∈ t.body.filter fun node => !node.isBlank, ∀ {problem : Problem},
      Failure.violation problem node.pos = e → e.Within t.positions t.strays :=
    fun node hnode _ he => he ▸ .violation (hbody node hnode node.pos_mem_positions)
  unfold lowerRoot at h
  split at h
  · exact fails_reject.1 h ▸ .violation List.mem_cons_self
  · rename_i first second rest hroot
    exact hat second (by simp [hroot]) (fails_reject.1 h)
  · rename_i pos attributes children hroot
    simp only [fails_bind, not_fails_pure, and_false, exists_false, or_false] at h
    have hstrays : t.strays = straysOf children := by simp [Template.strays, Template.root?, hroot]
    rw [hstrays]
    exact (lowerElement_fails (lowerNodes_fails children) hc h).mono
      (hbody _ (by simp [hroot])) (List.Subset.refl _)
  · rename_i root _ hroot
    exact hat root (by simp [hroot]) (fails_reject.1 h)

theorem not_fails_importsOf {paths : List String} : ¬ Fails (importsOf env paths) c e := by
  induction paths generalizing c with
  | nil => exact not_fails_pure
  | cons path rest ih => simp [importsOf, importOf, ih]

theorem compileUnit_fails {t : Template} (h : Fails (compileUnit env t) .initial e) :
    e.Within t.positions t.strays := by
  simp only [compileUnit, fails_bind, not_fails_note, not_fails_openScope, not_fails_get,
    not_fails_importsOf, not_fails_pure, and_false, exists_false, or_false, false_or] at h
  obtain ⟨_, c₁, hn, _, c₂, ho, h⟩ := h
  have hk₁ : Keeps env _ c₁ := note_keeps hn
  obtain ⟨hf₂, -⟩ := openScope_yields env ho
  rw [hk₁.scope] at hf₂
  have hc₂ : c₂.scope.frames ≠ [] := by simp [hf₂]
  rcases h with h | ⟨code, c₃, hroot, h⟩
  · exact lowerRoot_fails hc₂ h
  · have hbound : c₂.scope.isBound = binds [] := by
      funext name
      rw [Scope.isBound, hf₂]
      rfl
    obtain ⟨-, -, -, -, ds, -, -, ha₃, -⟩ := lowerRoot_yields hroot hbound
    exact absurd h (not_fails_closeScope (ha₃.frames_ne_nil hc₂))

end CompileM

theorem within_of_error {env : Env} {t : Template} {e : Failure}
    (h : (compile env t).1 = .error e) : e.Within t.positions t.strays := by
  unfold compile at h
  split at h
  · simp at h
  · rename_i failure c' hrun
    obtain rfl : failure = e := by simpa using h
    exact CompileM.compileUnit_fails ⟨c', hrun⟩

theorem strays_eq_nil_of_ok {env : Env} {t : Template} {compiled : Compiled}
    (h : (compile env t).1 = .ok compiled) : t.strays = [] := by
  obtain ⟨K, sibling, ds, n, hcompiles⟩ := compiles_of_ok h
  obtain ⟨pos, attributes, children, hroot, hl⟩ := hcompiles.root
  rw [Template.strays, hroot]
  cases hl with
  | mk reads opens lowersReadings lowersChildren => exact lowersChildren.strays_eq_nil_and_pos_mem.1

/-- A unit compiles, and then all that stands in its root is content; or it does not because
something among the children is no content; or else a violation with a code is reported where the
unit, one of its nodes or an attribute of one stands. There is no other way for a compilation to
end. -/
theorem ok_or_rejected_at_node (env : Env) (t : Template) :
    ((∃ compiled, (compile env t).1 = .ok compiled) ∧ t.strays = []) ∨
      (∃ kind ∈ t.strays, (compile env t).1 = .error (.misplaced kind)) ∨
      ∃ problem pos, (compile env t).1 = .error (.violation problem pos) ∧
        (env.rejection problem pos).code.isSome ∧
          (env.rejection problem pos).pos ∈ t.positions := by
  rcases h : (compile env t).1 with e | compiled
  · right
    cases within_of_error h with
    | violation reported => exact .inr ⟨_, _, rfl, rfl, reported⟩
    | misplaced stray => exact .inl ⟨_, stray, rfl⟩
  · exact .inl ⟨⟨compiled, rfl⟩, strays_eq_nil_of_ok h⟩

end TemplateCompiler
