import TemplateCompiler.Proofs.Derivation

/-!
# How code is put together

Items become one list of children, the siblings of a row are finished one after the other, and an
element becomes a call of a primitive. A property that these keep is followed through them here:
`Assembles` is what it needs for the items, `Finishing` what it needs for the siblings.
-/

namespace TemplateCompiler

variable {config : Config} {K : Context} {P : Code → Prop} {n n' : Numbering}

/-! ## Items -/

/-- Children are the only item by itself, or the list of all of them, flattened or not. -/
theorem Item.assemble_cases (config : Config) (items : List Item) :
    (∃ item, items = [item] ∧ Item.assemble config items = item.code) ∨
      Item.assemble config items = .list (items.map Item.code) ∨
      Item.assemble config items =
        config.callPrimitive config.primitives.flatten [.list (items.map Item.code)] := by
  unfold Item.assemble
  split
  · rename_i item
    simp only
    split
    · exact .inr (.inr rfl)
    · split
      · exact .inl ⟨item, rfl, rfl⟩
      · exact .inr (.inl rfl)
  · simp only
    split
    · exact .inr (.inr rfl)
    · exact .inr (.inl rfl)

/-- A property that lists and dicts have if their members do, and that flattening keeps. -/
structure Assembles (config : Config) (P : Code → Prop) : Prop where
  list : ∀ {codes}, (∀ c ∈ codes, P c) → P (.list codes)
  dict : ∀ {entries}, (∀ e ∈ entries, P e.2) → P (.dict entries)
  flatten : ∀ {code}, P code → P (config.callPrimitive config.primitives.flatten [code])

namespace Assembles

variable (h : Assembles config P) {items : List Item}

include h

theorem assemble (hitems : ∀ i ∈ items, P i.code) : P (Item.assemble config items) := by
  have hlist : P (.list (items.map Item.code)) := h.list (List.forall_mem_map.2 hitems)
  obtain ⟨item, rfl, heq⟩ | heq | heq := Item.assemble_cases config items
  · exact heq ▸ hitems item List.mem_cons_self
  · exact heq ▸ hlist
  · exact heq ▸ h.flatten hlist

theorem slots (hitems : ∀ i ∈ items, P i.code) : ∀ e ∈ Item.slots config items, P e.2 :=
  List.forall_mem_map.2 fun _ _ => h.assemble fun i hi => hitems i (List.mem_filter.1 hi).1

theorem iteratedBody (hitems : ∀ i ∈ items, P i.code) :
    P (CompileM.iteratedBody config items).1 := by
  unfold CompileM.iteratedBody
  split
  · exact hitems _ List.mem_cons_self
  · exact h.assemble hitems

theorem iterationCall {loop : Loop} {function : Code} {flatten : Bool}
    (hcall : P (config.callPrimitive config.primitives.iterator [loop.iterable, function])) :
    P (iterationCall config loop function flatten) := by
  unfold TemplateCompiler.iterationCall
  cases flatten with
  | false => exact hcall
  | true => exact h.flatten hcall

/-- An element is made by a call of a primitive. What is passed are the items and the attributes,
together with names of components and texts. -/
theorem exists_arguments {tag : Tag} {written : Option Content} {parts : List Part}
    {kind : ElementKind} {code : Code}
    (hcalls : CallsElement config K tag written parts items kind code)
    (halias : ∀ {path localName}, Imported K path localName → P (.ref localName))
    (htext : ∀ s, P (.text s)) (hcomponent : ∀ c ∈ Part.component? parts, P c)
    (hattributes : ∀ e ∈ Entry.attributes .dict (Part.entries parts), P e.2)
    (hitems : ∀ i ∈ items, P i.code) :
    ∃ name ∈ [config.primitives.element, config.primitives.virtualElement,
        config.primitives.customElement], ∃ arguments,
      code = config.callPrimitive name arguments ∧ ∀ a ∈ arguments, P a := by
  have hchildren := h.assemble hitems
  have hpassed : ∀ {component : Code}, P component →
      ∀ a ∈ [component, .dict (Entry.attributes .dict (Part.entries parts)),
        Item.assemble config items], P a := by
    intro component hcomponent
    simpa using ⟨hcomponent, h.dict hattributes, hchildren⟩
  cases hcalls with
  | virtual imported | named _ imported =>
    exact ⟨_, by simp, _, rfl, hpassed (halias imported)⟩
  | computed _ _ component =>
    exact ⟨_, by simp, _, rfl, hpassed (hcomponent _ component)⟩
  | custom imported =>
    have hcontent : ∀ e ∈ (if items.isEmpty then []
        else [("slotset", Code.dict (Item.slots config items))]), P e.2 := by
      split
      · simp
      · exact List.forall_mem_singleton.2 (h.dict (h.slots hitems))
    refine ⟨_, by simp, _, rfl, ?_⟩
    simp only [List.forall_mem_cons]
    exact ⟨htext _, halias imported, h.dict (List.forall_mem_append.2 ⟨hattributes, hcontent⟩),
      by simp⟩
  | plain => exact ⟨_, by simp, _, rfl, hpassed (htext _)⟩

end Assembles

/-! ## Siblings -/

/-- A property that finishing a sibling passes on to the item made of it, if the alternative behind
it has it too, and one of what is declared for this. -/
structure Finishing (config : Config) (S : Sibling → Prop) (D : Declaration → Prop)
    (I : Item → Prop) : Prop where
  sibling : ∀ {s alternative item ds n n'},
    FinishesSibling config s alternative item ds n n' → S s → (∀ i ∈ alternative, I i) →
      (∀ d ∈ ds, D d) ∧ I item
  spliced : ∀ {s items}, s.form = .spliced items → S s → ∀ i ∈ items, I (i.inSlot s.item.slot)

namespace Finishing

variable {S : Sibling → Prop} {D : Declaration → Prop} {I : Item → Prop}
  (h : Finishing config S D I) {ds : List Declaration}

include h

theorem branches {siblings : List Sibling} {item : Option Item}
    (hf : FinishesBranches config siblings item ds n n') (hs : ∀ s ∈ siblings, S s) :
    (∀ d ∈ ds, D d) ∧ ∀ i ∈ item, I i := by
  induction hf with
  | nil => exact ⟨by simp, by simp⟩
  | cons _ head ih =>
    rw [List.forall_mem_cons] at hs
    obtain ⟨hds, halternative⟩ := ih hs.2
    obtain ⟨hds', hitem⟩ := h.sibling head hs.1 halternative
    refine ⟨List.forall_mem_append.2 ⟨hds, hds'⟩, ?_⟩
    rintro i hi
    exact Option.some.inj hi ▸ hitem

theorem chain {chain : List Sibling} {items : List Item}
    (hf : FinishesChain config chain items ds n n') (hs : ∀ s ∈ chain, S s) :
    (∀ d ∈ ds, D d) ∧ ∀ i ∈ items, I i := by
  cases hf with
  | nil => exact ⟨by simp, by simp⟩
  | spliced _ form =>
    exact ⟨by simp, List.forall_mem_map.2 (h.spliced form (hs _ List.mem_cons_self))⟩
  | branches _ _ branches =>
    obtain ⟨hds, hitem⟩ := h.branches branches hs
    exact ⟨hds, List.forall_mem_singleton.2 (hitem _ rfl)⟩

theorem chains {chains : List (List Sibling)} {items : List Item}
    (hf : FinishesChains config chains items ds n n') (hs : ∀ s ∈ chains.flatten, S s) :
    (∀ d ∈ ds, D d) ∧ ∀ i ∈ items, I i := by
  induction hf with
  | nil => exact ⟨by simp, by simp⟩
  | cons head _ ih =>
    rw [List.flatten_cons, List.forall_mem_append] at hs
    obtain ⟨hds, hitems⟩ := h.chain head hs.1
    obtain ⟨hds', hmore⟩ := ih hs.2
    exact ⟨List.forall_mem_append.2 ⟨hds, hds'⟩, List.forall_mem_append.2 ⟨hitems, hmore⟩⟩

end Finishing

end TemplateCompiler
