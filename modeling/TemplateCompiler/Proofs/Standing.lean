import TemplateCompiler.Proofs.Accepted
import TemplateCompiler.Proofs.Tally

/-!
# Where the code of an element stands

From the code of a function down to that of an element inside of its template: what a sibling is
finished as stands in the function around it, so what it is finished from does too, its items, the
alternative behind it and what waits for its iteration. An else stands in a conditional of the
sibling in front of it. So the code of every element of a unit is in the unit's function
(`Compiles.exists_lowered`).
-/

namespace TemplateCompiler

variable {env : Env} {config : Config} {K : Context} {f : Function} {n n' : Numbering}

/-! ## What code is made of -/

theorem iterationCall_stands {loop : Loop} {function : Code} {flatten : Bool}
    (h : iterationCall config loop function flatten ∈ f.subterms) : function ∈ f.subterms := by
  have hcall : function ∈
      (config.callPrimitive config.primitives.iterator [loop.iterable, function]).subterms :=
    Code.mem_subterms_of_mem_arguments (by simp) function.mem_subterms_self
  refine Function.mem_subterms_of_mem h ?_
  unfold iterationCall
  cases flatten with
  | false => exact hcall
  | true => exact Code.mem_subterms_of_mem_arguments List.mem_cons_self hcall

/-- The statements of an iteration are in the function that is declared for it, if there are any. -/
theorem Iterates.inner_subset {loop : Loop} {body code : Code} {flatten : Bool}
    {ds outer : List Declaration} (h : Iterates config loop body flatten ds code outer n n')
    (houter : allDeclarations outer ⊆ f.inner) : allDeclarations ds ⊆ f.inner := by
  cases h with
  | inline => simp [allDeclarations]
  | declared =>
    have hdefined := houter (subset_allDeclarations _ List.mem_cons_self)
    have hinner := Function.inner_subset_inner f hdefined
    rwa [Function.inner_eq] at hinner

/-- What an iteration gives stands where it is called or in the function that is declared for it. -/
theorem Iterates.stands {loop : Loop} {body code : Code} {flatten : Bool}
    {ds outer : List Declaration} (h : Iterates config loop body flatten ds code outer n n')
    (hcode : code ∈ f.subterms) (houter : allDeclarations outer ⊆ f.inner) :
    body ∈ f.subterms ∧ allDeclarations ds ⊆ f.inner := by
  refine ⟨?_, h.inner_subset houter⟩
  cases h with
  | inline =>
    refine Function.mem_subterms_of_mem (iterationCall_stands hcode) ?_
    exact Code.mem_subterms_of_mem_parts List.mem_cons_self body.mem_subterms_self
  | declared =>
    exact Function.code_mem_subterms (houter (subset_allDeclarations _ List.mem_cons_self))

theorem GuardsItems.stands {condition : Option Code} {items kept : List Item}
    {guards : List Declaration} (h : GuardsItems condition items kept guards n n')
    (hkept : ∀ i ∈ kept, i.code ∈ f.subterms) : ∀ i ∈ items, i.code ∈ f.subterms := by
  cases h with
  | unconditional => exact hkept
  | nothing => exact hkept
  | guarded =>
    intro i hi
    refine Function.mem_subterms_of_mem (hkept _ (List.mem_map_of_mem hi)) ?_
    exact Code.mem_subterms_of_mem_parts (by simp [CompileM.guardItem, Code.parts, Code.operands])
      i.code.mem_subterms_self

theorem CallsElement.stands {tag : Tag} {written : Option Content} {parts : List Part}
    {items : List Item} {kind : ElementKind} {code : Code}
    (h : CallsElement config K tag written parts items kind code) (hcode : code ∈ f.subterms) :
    ∀ i ∈ items, i.code ∈ f.subterms := by
  intro i hi
  refine Function.mem_subterms_of_mem hcode ?_
  have hlist : i.code ∈ (Item.assemble config items).subterms := Item.code_mem_assemble hi
  cases h with
  | virtual | named | computed | plain =>
    exact Code.mem_subterms_of_mem_arguments (by simp) hlist
  | custom =>
    refine Code.mem_subterms_of_mem_arguments
      (List.mem_cons_of_mem _ (List.mem_cons_of_mem _ List.mem_cons_self)) ?_
    have hslots : ("slotset", Code.dict (Item.slots config items)) ∈
        if items.isEmpty then [] else [("slotset", Code.dict (Item.slots config items))] := by
      cases items with
      | nil => simp at hi
      | cons => exact List.mem_cons_self
    exact Code.mem_subterms_of_mem_entries (List.mem_append_right _ hslots) (Item.code_mem_slots hi)

/-! ## Siblings -/

/-- A sibling stands in a function: its items do if they are spliced, or else what it is finished
as. As an else in a row, it stands in a conditional. -/
inductive Sibling.Stands (config : Config) (f : Function) (inRow : Prop) (s : Sibling) : Prop where
  | spliced {items} (form : s.form = .spliced items) (codes : ∀ i ∈ items, i.code ∈ f.subterms)
  | finished {alternative item ds n n'}
      (finishes : FinishesSibling config s alternative item ds n n')
      (code : item.code ∈ f.subterms) (inner : allDeclarations ds ⊆ f.inner)
      (answers : inRow → s.isAlternative →
        ∃ test body, .conditional test body item.code ∈ f.subterms)

/-- What a sibling is finished as holds the conditional with the alternative behind it. -/
theorem FinishesSibling.choice_stands {s : Sibling} {alternative : Option Item} {item : Item}
    {ds : List Declaration} (h : FinishesSibling config s alternative item ds n n')
    (hcode : item.code ∈ f.subterms) (hds : allDeclarations ds ⊆ f.inner) :
    ∀ choice ∈ s.choice? alternative, choice ∈ f.subterms := by
  intro choice hchoice
  unfold Sibling.choice? Sibling.test? at hchoice
  cases h with
  | fixed form | spliced form | repeated form => simp [form] at hchoice
  | guarded form =>
    cases alternative with
    | none => simp [form] at hchoice
    | some i =>
      rw [form] at hchoice
      obtain rfl := Option.some.inj hchoice
      exact hcode
  | filtered form iterates =>
    cases alternative with
    | none => simp [form] at hchoice
    | some i =>
      rw [form] at hchoice
      obtain rfl := Option.some.inj hchoice
      exact (iterates.stands hcode hds).1

theorem Sibling.exists_choice {s : Sibling} (h : s.takesAlternative) (i : Item) :
    ∃ test, s.choice? (some i) = some (.conditional test s.item.code i.code) := by
  unfold takesAlternative at h
  unfold choice? test?
  cases hform : s.form with
  | fixed | spliced => simp [hform] at h
  | guarded test => exact ⟨test, rfl⟩
  | repeated loop ds condition =>
    rw [hform] at h
    obtain ⟨test, rfl⟩ := Option.isSome_iff_exists.1 h
    exact ⟨test, rfl⟩

theorem FinishesBranches.stands {siblings : List Sibling} {item : Option Item}
    {ds : List Declaration} (h : FinishesBranches config siblings item ds n n')
    (hitem : ∀ i ∈ item, i.code ∈ f.subterms) (hds : allDeclarations ds ⊆ f.inner)
    (hchain : siblings.IsChain fun s next => s.continues next)
    (hanswers : ∀ s ∈ siblings.head?, s.isAlternative → ∀ i ∈ item,
      ∃ test body, .conditional test body i.code ∈ f.subterms) :
    ∀ s ∈ siblings, s.Stands config f True := by
  induction h with
  | nil => simp
  | @cons s rest alternative item ds₁ ds₂ _ _ _ tail head ih =>
    rw [allDeclarations_append, List.append_subset] at hds
    have hcode := hitem _ rfl
    have hchoice := head.choice_stands hcode hds.2
    -- behind a sibling that takes none, there is no alternative
    have halternative : ∀ i ∈ alternative, ∃ test,
        .conditional test s.item.code i.code ∈ f.subterms := by
      rintro i rfl
      have htakes : s.takesAlternative := by
        by_contra hnot
        simpa using tail.eq_none_of_isChain hchain (by simpa using hnot)
      obtain ⟨test, htest⟩ := Sibling.exists_choice htakes i
      exact ⟨test, hchoice _ htest⟩
    refine List.forall_mem_cons.2
      ⟨.finished head hcode hds.2 fun _ halt => ?_, ih ?_ hds.1 hchain.tail ?_⟩
    · exact hanswers s rfl halt _ rfl
    · intro i hi
      obtain ⟨test, htest⟩ := halternative i hi
      exact Function.mem_subterms_of_mem htest (Code.mem_subterms_of_mem_parts
        (by simp [Code.parts, Code.operands]) i.code.mem_subterms_self)
    · intro _ _ _ i hi
      obtain ⟨test, htest⟩ := halternative i hi
      exact ⟨test, _, htest⟩

theorem FinishesChain.stands {chain : List Sibling} {items : List Item} {ds : List Declaration}
    (h : FinishesChain config chain items ds n n') (hitems : ∀ i ∈ items, i.code ∈ f.subterms)
    (hds : allDeclarations ds ⊆ f.inner)
    (hchain : chain.IsChain fun s next => s.continues next) :
    ∀ s ∈ chain, s.Stands config f True := by
  cases h with
  | nil => simp
  | spliced _ form =>
    obtain rfl := Sibling.eq_nil_of_isChain hchain (by rw [Sibling.takesAlternative, form])
    refine List.forall_mem_singleton.2 (.spliced form fun i hi => ?_)
    exact hitems (i.inSlot _) (List.mem_map_of_mem hi)
  | branches head _ branches =>
    refine branches.stands (by simpa using hitems) hds hchain ?_
    rintro s ⟨⟩ halternative
    simp [head] at halternative

theorem FinishesChains.stands {chains : List (List Sibling)} {items : List Item}
    {ds : List Declaration} (h : FinishesChains config chains items ds n n')
    (hitems : ∀ i ∈ items, i.code ∈ f.subterms) (hds : allDeclarations ds ⊆ f.inner)
    (hchains : ∀ chain ∈ chains, chain.IsChain fun s next => s.continues next) :
    ∀ s ∈ chains.flatten, s.Stands config f True := by
  induction h with
  | nil => simp
  | cons head _ ih =>
    rw [List.forall_mem_append] at hitems
    rw [allDeclarations_append, List.append_subset] at hds
    rw [List.forall_mem_cons] at hchains
    rw [List.flatten_cons, List.forall_mem_append]
    exact ⟨head.stands hitems.1 hds.1 hchains.1, ih hitems.2 hds.2 hchains.2⟩

/-! ## Elements -/

/-- A call by itself, or chosen by a condition. -/
inductive Chosen (call : Code) : Option Code → Code → Prop where
  | always : Chosen call none call
  | tested {test other} : Chosen call (some test) (.conditional test call other)

/-- Code by itself, or called by the iterator for each item: as a lambda, or as a function that is
declared in the one around it. -/
inductive Repeated (config : Config) (f : Function) (body : Code) : Option Loop → Code → Prop where
  | once : Repeated config f body none body
  | inline {loop flatten} : Repeated config f body (some loop)
      (iterationCall config loop (.lambda loop.place loop.parameters body) flatten)
  | declared {loop name ds flatten}
      (inner : .define ⟨name, loop.place, loop.parameters, ds, body⟩ ∈ f.inner) :
      Repeated config f body (some loop) (iterationCall config loop (.ref name) flatten)

theorem Iterates.repeated {loop : Loop} {body code : Code} {flatten : Bool}
    {ds outer : List Declaration} (h : Iterates config loop body flatten ds code outer n n')
    (houter : allDeclarations outer ⊆ f.inner) : Repeated config f body (some loop) code := by
  cases h with
  | inline => exact .inline
  | declared => exact .declared (houter (subset_allDeclarations _ List.mem_cons_self))

theorem Chosen.stands {call chosen : Code} {condition : Option Code}
    (h : Chosen call condition chosen) (hchosen : chosen ∈ f.subterms) : call ∈ f.subterms := by
  cases h with
  | always => exact hchosen
  | tested =>
    exact Function.mem_subterms_of_mem hchosen (Code.mem_subterms_of_mem_parts
      (by simp [Code.parts, Code.operands]) call.mem_subterms_self)

/-- The code of an element that is called: the call, what its condition makes of it, and what its
iteration makes of that, which stands in the function. -/
structure CallStands (config : Config) (f : Function) (condition : Option Code)
    (loop : Option Loop) (call chosen own : Code) : Prop where
  choice : Chosen call condition chosen
  iteration : Repeated config f chosen loop own
  code : own ∈ f.subterms
  body : chosen ∈ f.subterms

theorem SealsElement.call_stands {pos : Position} {tag : Tag} {readings : List Reading}
    {parts : List Part} {items : List Item} {ds outer : List Declaration} {kind : ElementKind}
    {loop : Option Loop} {sibling : Sibling} {inRow : Prop}
    (h : SealsElement config K pos tag readings parts items ds kind loop sibling outer n n')
    (hkind : kind.chooses) (hs : sibling.Stands config f inRow)
    (houter : allDeclarations outer ⊆ f.inner) :
    ∃ call chosen own,
      CallsElement config K tag (Reading.component? readings) parts items kind call ∧
      CallStands config f (Part.condition? parts) loop call chosen own ∧
      (inRow → sibling.isAlternative → ∃ test body, .conditional test body own ∈ f.subterms) ∧
      allDeclarations ds ⊆ f.inner := by
  cases h with
  | spliced | iterated | outlet => simp [ElementKind.chooses] at hkind
  | fixed condition calls =>
    rw [condition]
    cases hs with
    | spliced form => simp at form
    | finished finishes code inner answers =>
      cases finishes with
      | fixed => exact ⟨_, _, _, calls, ⟨.always, .once, code, code⟩, answers, houter⟩
      | spliced form | guarded form | repeated form | filtered form => simp at form
  | guarded condition calls =>
    rw [condition]
    cases hs with
    | spliced form => simp at form
    | finished finishes code inner answers =>
      cases finishes with
      | guarded form =>
        obtain rfl := Form.guarded.inj form
        exact ⟨_, _, _, calls, ⟨.tested, .once, code, code⟩, answers, houter⟩
      | fixed form | spliced form | repeated form | filtered form => simp at form
  | repeated calls =>
    cases hs with
    | spliced form => simp at form
    | finished finishes code inner answers =>
      cases finishes with
      | repeated form iterates =>
        obtain ⟨rfl, rfl, hcondition⟩ := Form.repeated.inj form
        rw [hcondition]
        obtain ⟨hbody, hds⟩ := iterates.stands code inner
        exact ⟨_, _, _, calls, ⟨.always, iterates.repeated inner, code, hbody⟩, answers, hds⟩
      | filtered form iterates =>
        obtain ⟨rfl, rfl, hcondition⟩ := Form.repeated.inj form
        rw [hcondition]
        obtain ⟨hbody, hds⟩ := iterates.stands code inner
        exact ⟨_, _, _, calls, ⟨.tested, iterates.repeated inner, code, hbody⟩, answers, hds⟩
      | fixed form | spliced form | guarded form => simp at form

theorem assemble_stands {items : List Item} (h : Item.assemble config items ∈ f.subterms) :
    ∀ i ∈ items, i.code ∈ f.subterms :=
  fun _ hi => Function.mem_subterms_of_mem h (Item.code_mem_assemble hi)

/-- What is put together in an element stands where its sibling does. -/
theorem SealsElement.stands {pos : Position} {tag : Tag} {readings : List Reading}
    {parts : List Part} {items : List Item} {ds outer : List Declaration} {kind : ElementKind}
    {loop : Option Loop} {sibling : Sibling} {inRow : Prop}
    (h : SealsElement config K pos tag readings parts items ds kind loop sibling outer n n')
    (hs : sibling.Stands config f inRow) (houter : allDeclarations outer ⊆ f.inner) :
    (∀ i ∈ items, i.code ∈ f.subterms) ∧ allDeclarations ds ⊆ f.inner := by
  by_cases hkind : kind.chooses
  · obtain ⟨call, chosen, own, calls, hcall, -, hds⟩ := h.call_stands hkind hs houter
    exact ⟨calls.stands (hcall.choice.stands hcall.body), hds⟩
  · cases h with
    | spliced guarded =>
      rw [allDeclarations_append, List.append_subset] at houter
      refine ⟨guarded.stands ?_, houter.1⟩
      cases hs with
      | spliced form codes => exact Form.spliced.inj form ▸ codes
      | finished finishes code =>
        cases finishes with
        | spliced => exact assemble_stands code
        | fixed form | guarded form | repeated form | filtered form => simp at form
    | iterated guarded iterates =>
      cases hs with
      | spliced form => simp at form
      | finished finishes code =>
        cases finishes with
        | fixed =>
          obtain ⟨hbody, hinner⟩ := iterates.stands code houter
          rw [allDeclarations_append, List.append_subset] at hinner
          refine ⟨guarded.stands fun i hi => ?_, hinner.1⟩
          exact Function.mem_subterms_of_mem hbody (Item.code_mem_iteratedBody hi)
        | spliced form | guarded form | repeated form | filtered form => simp at form
    | outlet =>
      refine ⟨?_, houter⟩
      cases hs with
      | spliced form => simp at form
      | finished finishes code =>
        cases finishes with
        | fixed =>
          have hlist : Item.assemble config items ∈
              (CompileM.outletCode config (Reading.outletName readings) items).subterms :=
            Code.mem_subterms_of_mem_parts
              (by simp [CompileM.outletCode, Code.parts, Code.operands]) (Code.mem_subterms_self _)
          exact assemble_stands (Function.mem_subterms_of_mem code hlist)
        | spliced form | guarded form | repeated form | filtered form => simp at form
    | fixed _ calls | guarded _ calls | repeated calls =>
      cases calls <;> exact absurd rfl hkind

/-! ## Nodes -/

theorem allDeclarations_subset_append {inner ds ds' : List Declaration}
    (h : allDeclarations inner ⊆ allDeclarations ds ∨
      allDeclarations inner ⊆ allDeclarations ds') :
    allDeclarations inner ⊆ allDeclarations (ds ++ ds') := by
  rw [allDeclarations_append]
  rcases h with h | h
  · exact List.subset_append_of_subset_left _ h
  · exact List.subset_append_of_subset_right _ h

mutual

theorem LowersNode.exists_lowered :
    ∀ {node : Node} {binders around before siblings ds n n'},
      LowersNode env K binders around before node siblings ds n n' →
      ∀ {i pos tag attributes children},
        node.elements[i]? = some (.element pos tag attributes children) →
        ∃ sibling ∈ siblings, ∃ inner m m', allDeclarations inner ⊆ allDeclarations ds ∧
          LowersElement env K binders (around ++ [before + i]) pos tag attributes children sibling
            inner m m'
  | .text .., _, _, _, _, _, _, _, _, _, _, _, _, _, hi => by simp [Node.elements] at hi
  | .placeholder .., _, _, _, _, _, _, _, _, _, _, _, _, _, hi => by simp [Node.elements] at hi
  | .fragment _ children, _, _, _, _, _, _, _, h, _, _, _, _, _, hi => by
    cases h with
    | fragment lowersChildren => exact LowersNodes.exists_lowered lowersChildren hi
  | .element .., _, _, _, _, _, _, _, h, i, _, _, _, _, hi => by
    cases h with
    | element lowers =>
      obtain ⟨hlength, heq⟩ := List.getElem?_eq_some_iff.1 hi
      obtain rfl : i = 0 := by simpa [Node.elements] using hlength
      obtain ⟨rfl, rfl, rfl, rfl⟩ := Node.element.inj heq
      exact ⟨_, List.mem_cons_self, _, _, _, List.Subset.refl _, lowers⟩
  | .literal .., _, _, _, _, _, _, _, h, _, _, _, _, _, _ => nomatch h
  | .attr .., _, _, _, _, _, _, _, h, _, _, _, _, _, _ => nomatch h
  | .template .., _, _, _, _, _, _, _, h, _, _, _, _, _, _ => nomatch h

/-- Every element of a row is lowered to one of its siblings. -/
theorem LowersNodes.exists_lowered :
    ∀ {nodes : List Node} {binders around before siblings ds n n'},
      LowersNodes env K binders around before nodes siblings ds n n' →
      ∀ {i pos tag attributes children},
        (elementsOf nodes)[i]? = some (.element pos tag attributes children) →
        ∃ sibling ∈ siblings, ∃ inner m m', allDeclarations inner ⊆ allDeclarations ds ∧
          LowersElement env K binders (around ++ [before + i]) pos tag attributes children sibling
            inner m m'
  | [], _, _, _, _, _, _, _, _, _, _, _, _, _, hi => by simp [elementsOf] at hi
  | node :: rest, _, _, _, _, _, _, _, h, i, _, _, _, _, hi => by
    cases h with
    | cons head tail =>
      rw [elementsOf] at hi
      by_cases hlt : i < node.elements.length
      · rw [List.getElem?_append_left hlt] at hi
        obtain ⟨sibling, hmem, inner, m, m', hinner, hl⟩ := LowersNode.exists_lowered head hi
        exact ⟨sibling, List.mem_append_left _ hmem, inner, m, m',
          allDeclarations_subset_append (.inl hinner), hl⟩
      · rw [List.getElem?_append_right (by omega)] at hi
        obtain ⟨sibling, hmem, inner, m, m', hinner, hl⟩ := LowersNodes.exists_lowered tail hi
        rw [Nat.add_assoc, Nat.add_sub_cancel' (by omega)] at hl
        exact ⟨sibling, List.mem_append_right _ hmem, inner, m, m',
          allDeclarations_subset_append (.inr hinner), hl⟩

end

/-! ## Units -/

/-- An element of a unit, as it is lowered within the binders around it to a sibling that stands in
the unit's function. -/
structure LoweredIn (env : Env) (K : Context) (t : Template) (f : Function) (place : Place)
    (pos : Position) (tag : Tag) (attributes : List Attribute) (children : List Node)
    (binders : List Binder) (sibling : Sibling) (ds : List Declaration) (n n' : Numbering) :
    Prop where
  lowers : LowersElement env K binders place pos tag attributes children sibling ds n n'
  binders : t.Binds env.config binders (Site.enclosing ⟨place, true⟩)
  inner : allDeclarations ds ⊆ f.inner
  stands : sibling.Stands env.config f (place ≠ [])

variable {t : Template} {compiled : Compiled}

/-- What is inside of an element is within the binders that the markup has around it. -/
theorem OpensLoop.binds_enclosing {binders : List Binder} {place : Place} {readings : List Reading}
    {loop : Option Loop} (h : OpensLoop env.config binders place readings loop)
    (hb : t.Binds env.config binders (Site.enclosing ⟨place, true⟩))
    (hread : t.readingsAt env.config place = readings) :
    t.Binds env.config (inside loop binders) (Site.enclosing ⟨place, false⟩) :=
  (@OpensLoop.fits env .initial t binders [] place readings loop h hb hread).2

/-- A template is no call, and so its code stands if that is what a function gives. -/
theorem SealsElement.root_stands {pos : Position} {tag : Tag} {readings : List Reading}
    {parts : List Part} {items : List Item} {ds outer : List Declaration} {loop : Option Loop}
    {sibling : Sibling}
    (h : SealsElement config K pos tag readings parts items ds .template loop sibling outer n n')
    (hcode : sibling.item.code ∈ f.subterms) : sibling.Stands config f False := by
  cases h with
  | spliced => exact .spliced rfl (assemble_stands hcode)
  | iterated =>
    exact @Sibling.Stands.finished config f False _ none _ [] n n (.fixed rfl) hcode
      (List.nil_subset _) False.elim
  | fixed _ calls | guarded _ calls | repeated calls => nomatch calls

theorem Compiles.exists_lowered {sibling : Sibling} {ds : List Declaration}
    (hc : Compiles env t compiled K sibling ds n) (place : Place) {pos : Position} {tag : Tag}
    {attributes : List Attribute} {children : List Node}
    (h : t.elementAt? place = some (.element pos tag attributes children)) :
    ∃ binders s inner m m', LoweredIn env K t compiled.module.function place pos tag attributes
      children binders s inner m m' := by
  induction place using List.reverseRecOn generalizing pos tag attributes children with
  | nil =>
    obtain ⟨_, _, _, hroot, hl⟩ := hc.root
    rw [Template.elementAt?, hroot] at h
    obtain ⟨rfl, rfl, rfl, rfl⟩ := Node.element.inj (Option.some.inj h)
    have hresult : sibling.item.code ∈ compiled.module.function.subterms := by
      rw [hc.function]
      exact Function.result_mem_subterms _
    have hinner : allDeclarations ds ⊆ compiled.module.function.inner := by
      rw [hc.function, Function.inner_eq]
      exact List.Subset.refl _
    refine ⟨_, _, _, _, _, hl, fun _ => rfl, hinner, ?_⟩
    cases hl with
    | mk _ _ _ _ _ seals =>
      rw [elementKind_eq_template_iff.2 rfl] at seals
      simpa using seals.root_stands hresult
  | append_singleton around i ih =>
    rw [Template.elementAt?_append] at h
    obtain ⟨parent, hparent, hchild⟩ := Option.bind_eq_some_iff.1 h
    cases parent with
    | element pos' tag' attributes' children' =>
      obtain ⟨binders, s, inner, m, m', hl⟩ := ih hparent
      cases hl.lowers with
      | mk reads opens lowersReadings lowersChildren finishes seals =>
        obtain ⟨hitems, hinner⟩ := seals.stands hl.stands hl.inner
        rw [allDeclarations_append, List.append_subset] at hinner
        have hrow := finishes.stands hitems hinner.2 fun _ => List.isChain_of_mem_splitBy
        rw [Sibling.chains, List.flatten_splitBy] at hrow
        obtain ⟨s', hs', inner', k, k', hinner', hl'⟩ := lowersChildren.exists_lowered hchild
        rw [Nat.zero_add] at hl'
        have hbinds := opens.binds_enclosing hl.binders (Template.readingsAt_element hparent reads)
        rw [← Site.enclosing_iterable around i] at hbinds
        refine ⟨_, s', inner', k, k', hl', hbinds, List.Subset.trans hinner' hinner.1, ?_⟩
        simpa using hrow s' hs'
    | text | placeholder | fragment | literal | attr | template =>
      simp [Node.child?, Node.children, elementsOf] at hchild

end TemplateCompiler
