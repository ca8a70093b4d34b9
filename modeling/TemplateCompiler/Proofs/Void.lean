import TemplateCompiler.Proofs.Temporaries

/-!
# Markup that contributes nothing

Blank text, an empty placeholder and a template of such nodes leave no item. A template that repeats
leaves one even then, and so does every other element. What is void is read off the markup; that
just the void nodes leave no items is what the relation says.
-/

namespace TemplateCompiler

mutual

/-- Whether a node leaves nothing among the children around it. -/
def Node.isVoid : Node → Bool
  | .element _ tag attributes children =>
    tag == ⟨none, "template"⟩ && !attributes.any Attribute.iterates && allVoid children
  | .text _ value => (Text.collapse value).isEmpty
  | .placeholder _ e => e.isNone
  | .fragment _ children => allVoid children
  | .literal .. | .attr _ | .template .. => true

def allVoid : List Node → Bool
  | [] => true
  | node :: rest => node.isVoid && allVoid rest

end

variable {env : Env} {config : Config} {K : Context} {n n' : Numbering}

/-! ## Elements that repeat -/

theorem Role.iterates_of_ofTag {tag : Tag} {role : Role} (h : Role.ofTag tag = .ok role)
    (hns : (Text.given tag.ns).bind Directive.ofNamespace? = some .iterate) :
    (∃ m, role = .modifier .iterate m) ∨ (∃ key, role = .event .iterate key) ∨
      ∃ key, role = .directed .iterate key := by
  rw [Role.ofTag_of_directive hns, Except.ok.injEq, Role.ofDirective] at h
  split at h <;> subst h
  · exact .inl ⟨_, rfl⟩
  · exact .inr (.inl ⟨_, rfl⟩)
  · exact .inr (.inr ⟨_, rfl⟩)

namespace Reading

/-- An attribute that makes its element repeat is read as a part of the iteration. -/
theorem loopParts_ne_nil {attributes : List Attribute} {readings : List Reading}
    (h : ofAttributes config [] attributes = .ok readings)
    (hiterates : attributes.any Attribute.iterates) : loopParts readings ≠ [] := by
  obtain ⟨a, ha, hdirective⟩ := List.any_eq_true.1 hiterates
  obtain ⟨reading, hr, role, content, hrole, -, hread⟩ := exists_reading_of_mem h ha
  simp only [Attribute.iterates, beq_iff_eq] at hdirective
  have hpart : ∃ part, reading = .iteration part := by
    rcases Role.iterates_of_ofTag hrole hdirective with ⟨m, rfl⟩ | ⟨key, rfl⟩ | ⟨key, rfl⟩
    · cases hread with
      | iteration => exact ⟨_, rfl⟩
      | condition directive | alternative directive | modifier directive =>
        exact absurd rfl directive
    · cases hread with
      | event directive => exact absurd rfl directive
    · cases hread with
      | directed directive => exact absurd rfl directive
  obtain ⟨part, rfl⟩ := hpart
  exact List.ne_nil_of_mem (List.mem_filterMap.2 ⟨_, hr, rfl⟩)

end Reading

/-- Nothing is iterated over only where nothing tells so. -/
theorem LoopPart.eq_nil_of_iterable? {parts : List LoopPart} (h : iterable? parts = .ok none) :
    parts = [] := by
  unfold iterable? at h
  split at h
  · rename_i hempty
    exact List.isEmpty_iff.1 hempty
  · split at h
    · split at h <;> simp at h
    · split at h
      · simp at h
      · split at h <;> simp at h

theorem OpensLoop.eq_none_iff {binders : List Binder} {place : Place}
    {attributes : List Attribute} {readings : List Reading} {loop : Option Loop}
    (h : OpensLoop config binders place readings loop)
    (hreads : Reading.ofAttributes config [] attributes = .ok readings) :
    loop = none ↔ attributes.any Attribute.iterates = false := by
  refine ⟨fun hloop => ?_, h.eq_none hreads⟩
  by_contra hiterates
  have hparts := Reading.loopParts_ne_nil hreads (by simpa using hiterates)
  cases h with
  | once reads => exact hparts (LoopPart.eq_nil_of_iterable? reads)
  | repeated => simp at hloop

/-! ## Siblings without items -/

/-- A sibling that leaves no item. -/
def Sibling.IsVoid (s : Sibling) : Prop :=
  s.form = .spliced []

theorem FinishesChain.eq_nil_iff {chain : List Sibling} {items : List Item}
    {ds : List Declaration} (h : FinishesChain config chain items ds n n')
    (hchain : chain.IsChain fun s next => s.continues next) :
    items = [] ↔ ∀ s ∈ chain, s.IsVoid := by
  cases h with
  | nil => simp
  | @spliced s rest kept _ _ form =>
    -- a template takes no alternative, so it is a chain of its own
    obtain rfl := Sibling.eq_nil_of_isChain hchain (by rw [Sibling.takesAlternative, form])
    simp [Sibling.IsVoid, form]
  | @branches s rest item _ _ _ _ form _ =>
    simp only [reduceCtorEq, List.mem_cons, forall_eq_or_imp, Sibling.IsVoid, false_iff, not_and]
    exact fun hform => absurd hform (form [])

theorem FinishesChains.eq_nil_iff {chains : List (List Sibling)} {items : List Item}
    {ds : List Declaration} (h : FinishesChains config chains items ds n n')
    (hchains : ∀ chain ∈ chains, chain.IsChain fun s next => s.continues next) :
    items = [] ↔ ∀ s ∈ chains.flatten, s.IsVoid := by
  induction h with
  | nil => simp
  | cons head _ ih =>
    rw [List.forall_mem_cons] at hchains
    rw [List.append_eq_nil_iff, head.eq_nil_iff hchains.1, ih hchains.2, List.flatten_cons,
      List.forall_mem_append]

theorem GuardsItems.eq_nil_iff {condition : Option Code} {items kept : List Item}
    {ds : List Declaration} (h : GuardsItems condition items kept ds n n') :
    kept = [] ↔ items = [] := by
  cases h with
  | unconditional => rfl
  | nothing => rfl
  | guarded => exact List.map_eq_nil_iff

theorem SealsElement.isVoid_iff {pos : Position} {tag : Tag} {readings : List Reading}
    {parts : List Part} {items : List Item} {ds outer : List Declaration} {kind : ElementKind}
    {loop : Option Loop} {sibling : Sibling}
    (h : SealsElement config K pos tag readings parts items ds kind loop sibling outer n n') :
    sibling.IsVoid ↔ kind = .template ∧ loop = none ∧ items = [] := by
  cases h with
  | spliced guarded => simp [Sibling.IsVoid, guarded.eq_nil_iff]
  | iterated => simp [Sibling.IsVoid]
  | outlet => simp [Sibling.IsVoid]
  | fixed _ calls | guarded _ calls | repeated calls => cases calls <;> simp [Sibling.IsVoid]

theorem elementKind_eq_template_iff {tag : Tag} {readings : List Reading} :
    elementKind tag readings = .template ↔ tag = ⟨none, "template"⟩ := by
  obtain ⟨ns, name⟩ := tag
  unfold elementKind ElementKind.ofTag
  rcases ns with _ | ns
  · by_cases hname : name = "template"
    · simp [hname]
    · simp only [hname, if_false, Tag.mk.injEq, true_and, iff_false]
      split_ifs <;> simp
  · simp

/-! ## Nodes -/

theorem LowersElement.isVoid_iff {binders : List Binder} {place : Place} {pos : Position}
    {tag : Tag} {attributes : List Attribute} {children : List Node} {sibling : Sibling}
    {ds : List Declaration}
    (h : LowersElement env K binders place pos tag attributes children sibling ds n n')
    (hchildren : ∀ {binders siblings ds n n'},
      LowersNodes env K binders place 0 children siblings ds n n' →
        ((∀ s ∈ siblings, s.IsVoid) ↔ allVoid children)) :
    sibling.IsVoid ↔ (Node.element pos tag attributes children).isVoid := by
  cases h with
  | @mk _ _ _ _ _ _ readings loop _ siblings items _ _ _ _ _ _ _ _ _ reads opens _ lowersChildren
      finishes seals =>
    have hitems : items = [] ↔ allVoid children := by
      rw [finishes.eq_nil_iff fun _ => List.isChain_of_mem_splitBy, Sibling.chains,
        List.flatten_splitBy]
      exact hchildren lowersChildren
    rw [seals.isVoid_iff, elementKind_eq_template_iff, opens.eq_none_iff reads, hitems]
    simp [Node.isVoid, and_assoc]

mutual

theorem LowersNode.isVoid_iff :
    ∀ {node : Node} {binders around before siblings ds n n'},
      LowersNode env K binders around before node siblings ds n n' →
        ((∀ s ∈ siblings, s.IsVoid) ↔ node.isVoid)
  | .text .., _, _, _, _, _, _, _, h => by
    cases h with
    | blank empty => simp [Node.isVoid, empty]
    | text shown => simp [Node.isVoid, shown, Sibling.IsVoid]
  | .placeholder .., _, _, _, _, _, _, _, h => by
    cases h with
    | nothing => simp [Node.isVoid]
    | placeholder => simp [Node.isVoid, Sibling.IsVoid]
  | .fragment _ children, _, _, _, _, _, _, _, h => by
    cases h with
    | fragment lowersChildren =>
      rw [Node.isVoid]
      exact LowersNodes.isVoid_iff lowersChildren
  | .element .., _, _, _, _, _, _, _, h => by
    cases h with
    | element lowers =>
      rw [List.forall_mem_singleton]
      exact lowers.isVoid_iff fun h => LowersNodes.isVoid_iff h
  | .literal .., _, _, _, _, _, _, _, h => nomatch h
  | .attr .., _, _, _, _, _, _, _, h => nomatch h
  | .template .., _, _, _, _, _, _, _, h => nomatch h

theorem LowersNodes.isVoid_iff :
    ∀ {nodes : List Node} {binders around before siblings ds n n'},
      LowersNodes env K binders around before nodes siblings ds n n' →
        ((∀ s ∈ siblings, s.IsVoid) ↔ allVoid nodes)
  | [], _, _, _, _, _, _, _, h => by
    cases h
    simp [allVoid]
  | node :: rest, _, _, _, _, _, _, _, h => by
    cases h with
    | cons head tail =>
      rw [List.forall_mem_append, LowersNode.isVoid_iff head, LowersNodes.isVoid_iff tail, allVoid,
        Bool.and_eq_true]

end

end TemplateCompiler
