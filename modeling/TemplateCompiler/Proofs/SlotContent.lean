import TemplateCompiler.Proofs.Accounting
import TemplateCompiler.Proofs.Slots

/-!
# Content is emitted in its slot

The code of what is passed to a component is followed from the sibling that it is lowered in through
the item that this is finished as: guards, iterations and conditionals are put around it, and the
slot is passed on or dropped as the markup tells. So all content is emitted in the slot that is left
for it, and that is the slot that it names unless one is named inside of what makes one item
(`content_in_slot`).
-/

namespace TemplateCompiler

variable {env : Env} {config : Config} {K : Context} {t : Template} {n n' : Numbering}

/-! ## Where content is emitted -/

/-- Some code is emitted by other code: it is that, or it is emitted by what that gives, as an item
of a list, behind a guard, on a branch, flattened, or for each item of an iteration. What a call of
an element is given is inside of the element, and not emitted by the call. -/
inductive Function.Emits (config : Config) (f : Function) (part : Code) : Code → Prop where
  | self : Emits config f part part
  | item {items item} (mem : item ∈ items) (emits : Emits config f part item) :
      Emits config f part (.list items)
  | guarded {test code} (emits : Emits config f part code) : Emits config f part (.and test code)
  | body {test body other} (emits : Emits config f part body) :
      Emits config f part (.conditional test body other)
  | alternative {test body other} (emits : Emits config f part other) :
      Emits config f part (.conditional test body other)
  | flattened {code} (emits : Emits config f part code) :
      Emits config f part (config.callPrimitive config.primitives.flatten [code])
  | inline {iterable place parameters body} (emits : Emits config f part body) :
      Emits config f part (config.callPrimitive config.primitives.iterator
        [iterable, .lambda place parameters body])
  | declared {iterable} {g : Function} (declared : .define g ∈ f.inner)
      (emits : Emits config f part g.result) :
      Emits config f part (config.callPrimitive config.primitives.iterator [iterable, .ref g.name])

section

variable {f : Function}

theorem Function.Emits.trans {code inner part : Code} (h : f.Emits config inner code)
    (hinner : f.Emits config part inner) : f.Emits config part code := by
  induction h with
  | self => exact hinner
  | item mem _ ih => exact .item mem ih
  | guarded _ ih => exact .guarded ih
  | body _ ih => exact .body ih
  | alternative _ ih => exact .alternative ih
  | flattened _ ih => exact .flattened ih
  | inline _ ih => exact .inline ih
  | declared declared _ ih => exact .declared declared ih

/-! ### What code is put together -/

theorem emits_assemble {items : List Item} {i : Item} (hi : i ∈ items) :
    f.Emits config i.code (Item.assemble config items) := by
  have hlist : f.Emits config i.code (.list (items.map Item.code)) :=
    .item (List.mem_map_of_mem hi) .self
  obtain ⟨item, rfl, heq⟩ | heq | heq := Item.assemble_cases config items
  · rw [heq, List.mem_singleton.1 hi]
    exact .self
  · rwa [heq]
  · rw [heq]
    exact .flattened hlist

theorem emits_iteratedBody {items : List Item} {i : Item} (hi : i ∈ items) :
    f.Emits config i.code (CompileM.iteratedBody config items).1 := by
  unfold CompileM.iteratedBody
  split
  · rw [List.mem_singleton.1 hi]
    exact .self
  · exact emits_assemble hi

theorem emits_iterationCall {loop : Loop} {function part : Code} {flatten : Bool}
    (h : f.Emits config part
      (config.callPrimitive config.primitives.iterator [loop.iterable, function])) :
    f.Emits config part (iterationCall config loop function flatten) := by
  unfold iterationCall
  cases flatten with
  | false => exact h
  | true => exact .flattened h

/-- What an iteration gives is emitted where it is called. -/
theorem Iterates.emits {loop : Loop} {body code : Code} {flatten : Bool}
    {ds outer : List Declaration} (h : Iterates config loop body flatten ds code outer n n')
    (houter : allDeclarations outer ⊆ f.inner) : f.Emits config body code := by
  cases h with
  | inline => exact emits_iterationCall (.inline .self)
  | declared =>
    have hdeclared := houter (subset_allDeclarations _ List.mem_cons_self)
    exact emits_iterationCall (.declared hdeclared .self)

theorem emits_choose {test body : Code} {alternative : Option Item} :
    f.Emits config body (Sibling.choose config test body alternative) ∧
      ∀ i ∈ alternative, f.Emits config i.code (Sibling.choose config test body alternative) := by
  refine ⟨.body .self, ?_⟩
  rintro i rfl
  exact .alternative .self

/-- What a sibling is finished as stays in its slot, and emits it and the alternative behind it. -/
theorem FinishesSibling.emits {s : Sibling} {alternative : Option Item} {item : Item}
    {ds : List Declaration} (h : FinishesSibling config s alternative item ds n n')
    (hds : allDeclarations ds ⊆ f.inner) :
    item.slot = s.item.slot ∧ f.Emits config s.item.code item.code ∧
      (s.takesAlternative → ∀ i ∈ alternative, f.Emits config i.code item.code) := by
  cases h with
  | fixed form | spliced form =>
    refine ⟨rfl, .self, fun htakes => ?_⟩
    simp [Sibling.takesAlternative, form] at htakes
  | guarded form => exact ⟨rfl, emits_choose.1, fun _ => emits_choose.2⟩
  | repeated form iterates =>
    refine ⟨rfl, iterates.emits hds, fun htakes => ?_⟩
    simp [Sibling.takesAlternative, form] at htakes
  | filtered form iterates =>
    have hcall := iterates.emits hds
    exact ⟨rfl, hcall.trans emits_choose.1, fun _ i hi => hcall.trans (emits_choose.2 i hi)⟩

/-- All siblings of a row of elses are emitted in what the first is finished as, in its slot. -/
theorem FinishesBranches.emits {siblings : List Sibling} {item : Option Item}
    {ds : List Declaration} (h : FinishesBranches config siblings item ds n n')
    (hds : allDeclarations ds ⊆ f.inner)
    (hchain : siblings.IsChain fun s next => s.continues next) :
    ∀ i ∈ item, (∀ s ∈ siblings.head?, i.slot = s.item.slot) ∧
      ∀ s ∈ siblings, f.Emits config s.item.code i.code := by
  induction h with
  | nil => simp
  | @cons s rest alternative item ds₁ ds₂ _ _ _ tail head ih =>
    rw [allDeclarations_append, List.append_subset] at hds
    obtain ⟨hslot, hitem, halternative⟩ := head.emits hds.2
    rintro _ ⟨⟩
    refine ⟨by simpa using hslot, List.forall_mem_cons.2 ⟨hitem, fun s' hs' => ?_⟩⟩
    cases tail with
    | nil => nomatch hs'
    | @cons next rest' alternative' i ds' ds'' _ _ _ tail' head' =>
      have htakes : s.takesAlternative :=
        ((Bool.and_eq_true ..).mp (List.isChain_cons_cons.1 hchain).1).1
      exact (halternative htakes i rfl).trans ((ih hds.1 hchain.tail i rfl).2 s' hs')

end

/-! ## Items that hold content -/

/-- Some of the items, in the slot that content is left in, emits the content. -/
def Holds (env : Env) (t : Template) (m : Module) (items : List Item) (p : Passed) : Prop :=
  ∃ code, p.node.CodedAs env t m p.place code ∧
    ∃ i ∈ items, i.slot = p.slot? ∧ m.function.Emits env.config code i.code

/-- The items that a sibling puts into the row by itself. -/
def Sibling.own (s : Sibling) : List Item :=
  match s.form with
  | .spliced items => items.map fun i => i.inSlot s.item.slot
  | _ => [s.item]

/-- A sibling is made of what is offered to a component. -/
structure Sibling.Makes (env : Env) (t : Template) (m : Module) (s : Sibling) (o : Offer) :
    Prop where
  alternative : s.isAlternative = o.isElse
  slot : s.item.slot = o.slot
  holds : ∀ p ∈ o.passed, Holds env t m s.own p
  whole : ∀ i ∈ s.own, m.function.Emits env.config i.code s.item.code

theorem Holds.mono {m : Module} {items items' : List Item} {p : Passed}
    (h : Holds env t m items p) (hsub : items ⊆ items') : Holds env t m items' p := by
  obtain ⟨code, hcode, i, hi, hrest⟩ := h
  exact ⟨code, hcode, i, hsub hi, hrest⟩

/-! ## Rows -/

section

variable {m : Module}

theorem Sibling.own_of_form {s : Sibling} (h : ∀ items, s.form ≠ .spliced items) :
    s.own = [s.item] := by
  unfold own
  split
  · exact absurd ‹_› (h _)
  · rfl

/-- What a sibling is made of, an item of its slot that emits it holds. -/
theorem Sibling.Makes.holds_in {s : Sibling} {o : Offer} (h : s.Makes env t m o)
    (form : ∀ items, s.form ≠ .spliced items) {item : Item} (hslot : item.slot = s.item.slot)
    (hemits : m.function.Emits env.config s.item.code item.code) :
    ∀ p ∈ o.passed, Holds env t m [item] p := by
  intro p hp
  obtain ⟨code, hcode, i, hi, hown, hinner⟩ := h.holds p hp
  rw [Sibling.own_of_form form, List.mem_singleton] at hi
  subst hi
  exact ⟨code, hcode, item, List.mem_singleton_self _, hslot.trans hown, hemits.trans hinner⟩

/-- What an else is made of, the item of the first if in front of it holds, spliced or not. -/
theorem Sibling.Makes.holds_behind {s : Sibling} {o : Offer} (h : s.Makes env t m o) {item : Item}
    (hemits : m.function.Emits env.config s.item.code item.code) {q : Passed} (hq : q ∈ o.passed)
    {ifs : List (Option String)} (hlast : ifs.getLast? = some item.slot) :
    Holds env t m [item] (q.within (ifs.map .choice)) := by
  obtain ⟨code, hcode, i, hi, -, hinner⟩ := h.holds q hq
  refine ⟨code, hcode, item, List.mem_singleton_self _, (Passed.slot?_choices q hlast).symm, ?_⟩
  exact hemits.trans ((h.whole i hi).trans hinner)

theorem FinishesChain.holds {chain : List Sibling} {items : List Item} {ds : List Declaration}
    {os : List Offer} (h : FinishesChain env.config chain items ds n n')
    (hds : allDeclarations ds ⊆ m.function.inner)
    (hchain : chain.IsChain fun s next => s.continues next)
    (hos : List.Forall₂ (Sibling.Makes env t m) chain os) (ifs : List (Option String)) :
    ∀ p ∈ Offer.row ifs os, Holds env t m items p := by
  cases h with
  | nil =>
    cases hos
    nofun
  | spliced head form =>
    obtain rfl := Sibling.eq_nil_of_isChain hchain (by rw [Sibling.takesAlternative, form])
    cases hos with
    | cons makes hnil =>
      cases hnil
      have hown := makes.holds
      rw [Sibling.own, form] at hown
      simpa [Offer.row, ← makes.alternative, head] using hown
  | @branches s rest item _ _ _ head form branches =>
    cases hos with
    | @cons _ o _ os makes hos =>
      obtain ⟨hslot, hemits⟩ := branches.emits hds hchain item rfl
      have hslot : item.slot = o.slot := (hslot s rfl).trans makes.slot
      have helse : ∀ o' ∈ os, o'.isElse := by
        intro o' ho'
        obtain ⟨s', hs', makes'⟩ := exists_of_mem_forall₂ hos.flip ho'
        rw [← makes'.alternative]
        exact Sibling.isAlternative_of_isChain hchain s' hs'
      rw [Offer.row, ← makes.alternative, head]
      simp only [Bool.false_eq_true, if_false]
      refine List.forall_mem_append.2 ⟨fun p hp => ?_, fun p hp => ?_⟩
      · exact makes.holds_in form (hslot.trans makes.slot.symm) (hemits s List.mem_cons_self) p
          (by simpa using hp)
      · -- the slot of an else is passed over: its item is the one of the if
        have hfirst : [o.slot].getLast? = some item.slot := by rw [hslot]; rfl
        obtain ⟨o', ho', q, hq, nearer, rfl, hlast⟩ := Offer.exists_of_mem_row helse hfirst hp
        obtain ⟨s', hs', makes'⟩ := exists_of_mem_forall₂ hos.flip ho'
        exact makes'.holds_behind (hemits s' (List.mem_cons_of_mem _ hs')) hq hlast

theorem FinishesChains.holds {chains : List (List Sibling)} {items : List Item}
    {ds : List Declaration} (h : FinishesChains env.config chains items ds n n')
    (hds : allDeclarations ds ⊆ m.function.inner)
    (hchains : ∀ chain ∈ chains, chain.IsChain fun s next => s.continues next) :
    ∀ {os : List Offer}, List.Forall₂ (Sibling.Makes env t m) chains.flatten os →
      ∀ ifs, ∀ p ∈ Offer.row ifs os, Holds env t m items p := by
  induction h with
  | nil =>
    intro os hos
    cases hos
    nofun
  | @cons chain chains items more ds₁ ds₂ _ _ _ head tail ih =>
    intro os hos ifs p hp
    rw [allDeclarations_append, List.append_subset] at hds
    rw [List.forall_mem_cons] at hchains
    rw [List.flatten_cons] at hos
    have hhead := (List.forall₂_take_append os chain chains.flatten hos.flip).flip
    have htail := (List.forall₂_drop_append os chain chains.flatten hos.flip).flip
    obtain ⟨ifs', hrow⟩ :=
      Offer.exists_row_append ifs (os.take chain.length) (os.drop chain.length)
    rw [List.take_append_drop] at hrow
    rw [hrow] at hp
    rcases List.mem_append.1 hp with hp | hp
    · exact (head.holds hds.1 hchains.1 hhead ifs p hp).mono (List.subset_append_left ..)
    · exact (ih hds.2 hchains.2 htail ifs' p hp).mono (List.subset_append_right ..)

end

/-! ## Elements -/

theorem GuardsItems.holds {m : Module} {condition : Option Code} {items kept : List Item}
    {ds : List Declaration} (h : GuardsItems condition items kept ds n n') {p : Passed}
    (hp : Holds env t m items p) : Holds env t m kept p := by
  cases h with
  | unconditional => exact hp
  | nothing =>
    obtain ⟨_, _, _, hi, _⟩ := hp
    nomatch hi
  | guarded =>
    obtain ⟨code, hcode, i, hi, hslot, hemits⟩ := hp
    exact ⟨code, hcode, _, List.mem_map_of_mem hi, hslot, .guarded hemits⟩

section

variable {compiled : Compiled} {sibling root : Sibling} {ds ds' outer : List Declaration}
  {binders : List Binder} {place : Place} {pos : Position} {tag : Tag}
  {attributes : List Attribute} {children : List Node} {readings : List Reading}
  {parts : List Part} {items : List Item} {loop : Option Loop} {n₁ n₂ n₃ : Numbering}

/-- A template that is lowered to a sibling offers what its children pass on. -/
theorem SealsElement.makes_template {m : Module}
    (h : SealsElement env.config K pos tag readings parts items ds .template loop sibling outer n
      n')
    (houter : allDeclarations outer ⊆ m.function.inner) {ps : List Passed}
    (hps : allDeclarations ds ⊆ m.function.inner → ∀ p ∈ ps, Holds env t m items p) :
    sibling.Makes env t m
      ⟨Part.isAlternative parts, Reading.slotOf readings, ps.map fun p => p.within
        [if loop.isSome then .iteration (Reading.slotOf readings)
          else .template (Reading.slotOf readings)]⟩ := by
  cases h with
  | @spliced kept _ _ _ guarded =>
    rw [allDeclarations_append, List.append_subset] at houter
    refine ⟨rfl, rfl, List.forall_mem_map.2 fun p hp => ?_, List.forall_mem_map.2 fun i hi => ?_⟩
    · obtain ⟨code, hcode, i, hi, hslot, hemits⟩ := guarded.holds (hps houter.1 p hp)
      refine ⟨code, hcode, _, List.mem_map_of_mem hi, ?_, hemits⟩
      simp [Passed.slot?_template, Item.inSlot, hslot]
    · have hlist : m.function.Emits env.config i.code (Item.assemble env.config kept) :=
        emits_assemble hi
      exact hlist
  | iterated guarded iterates =>
    have hinner := iterates.inner_subset houter
    rw [allDeclarations_append, List.append_subset] at hinner
    refine ⟨rfl, rfl, List.forall_mem_map.2 fun p hp => ?_, ?_⟩
    · obtain ⟨code, hcode, i, hi, -, hemits⟩ := guarded.holds (hps hinner.1 p hp)
      refine ⟨code, hcode, _, List.mem_singleton_self _, ?_, ?_⟩
      · simp [Passed.slot?_iteration]
      · exact (iterates.emits houter).trans ((emits_iteratedBody hi).trans hemits)
    · exact List.forall_mem_singleton.2 .self
  | fixed _ calls | guarded _ calls | repeated calls => cases calls

/-- A sibling that is one item is made of the one thing that is coded as that. -/
theorem Sibling.makes_self {m : Module} {s : Sibling} {isElse : Bool} {slot : Option String}
    {node : Node} (hown : s.own = [s.item]) (helse : s.isAlternative = isElse)
    (hslot : s.item.slot = slot) (hcode : node.CodedAs env t m place s.item.code) :
    s.Makes env t m ⟨isElse, slot, [⟨node, place, slot, []⟩]⟩ := by
  refine ⟨helse, hslot, List.forall_mem_singleton.2 ?_, ?_⟩
  · rw [hown]
    exact ⟨_, hcode, _, List.mem_singleton_self _, hslot, .self⟩
  · rw [hown]
    exact List.forall_mem_singleton.2 .self

/-- Any other element offers itself. -/
theorem SealsElement.makes_element {m : Module}
    (h : SealsElement env.config K pos tag readings parts items ds (elementKind tag readings) loop
      sibling outer n n')
    (hkind : elementKind tag readings ≠ .template)
    (hreads : Reading.ofAttributes env.config [] attributes = .ok readings)
    (hcall : ∀ call, CallsElement env.config K tag (Reading.component? readings) parts items
      (elementKind tag readings) call →
        (Node.element pos tag attributes children).CodedAs env t m place call) :
    sibling.Makes env t m
      ⟨elementKind tag readings != .outlet && Part.isAlternative parts, Reading.slotOf readings,
        [⟨.element pos tag attributes children, place, Reading.slotOf readings, []⟩]⟩ := by
  have helse : ∀ {call}, CallsElement env.config K tag (Reading.component? readings) parts items
      (elementKind tag readings) call →
      Part.isAlternative parts =
        (elementKind tag readings != .outlet && Part.isAlternative parts) := by
    intro call calls
    have hchooses := calls.chooses
    cases hk : elementKind tag readings <;> simp_all [ElementKind.chooses]
  generalize hk : elementKind tag readings = kind at h
  cases h with
  | spliced | iterated => exact absurd hk hkind
  | outlet => exact Sibling.makes_self rfl rfl rfl (.outlet hreads hk)
  | fixed _ calls | guarded _ calls | repeated calls =>
    subst hk
    exact Sibling.makes_self rfl (helse calls) rfl (hcall _ calls)

theorem LowersElement.makes {around : Place} {before : Nat}
    (h : LowersElement env K binders (around ++ [before]) pos tag attributes children sibling ds
      n n')
    (hc : Compiles env t compiled K root ds' n₁)
    (ht : t.elementAt? (around ++ [before]) = some (.element pos tag attributes children))
    (hb : t.Binds env.config binders (Site.enclosing ⟨around ++ [before], true⟩))
    (hds : allDeclarations ds ⊆ compiled.module.function.inner)
    (hchildren : ∀ {binders siblings ds n n'},
      LowersNodes env K binders (around ++ [before]) 0 children siblings ds n n' →
      t.Shows (around ++ [before]) 0 (elementsOf children) →
      t.Binds env.config binders (Site.enclosing ⟨around ++ [before], false⟩) →
      allDeclarations ds ⊆ compiled.module.function.inner →
      List.Forall₂ (Sibling.Makes env t compiled.module) siblings
        (offersOf env.config (around ++ [before]) 0 children)) :
    List.Forall₂ (Sibling.Makes env t compiled.module) [sibling]
      ((Node.element pos tag attributes children).offers env.config around before) := by
  cases h with
  | @mk _ _ _ _ _ _ readings loop parts siblings items _ ds₁ ds₂ _ _ _ _ _ _ reads opens
      lowersReadings lowersChildren finishes seals =>
    have hinside := opens.binds_enclosing hb (Template.readingsAt_element ht reads)
    have hreadings : (Node.element pos tag attributes children).readings env.config = readings := by
      simp only [Node.readings, reads]
    have halternative := lowersReadings.isAlternative_eq
    have hloop : loop.isSome = attributes.any Attribute.iterates := by
      have hnone := opens.eq_none_iff reads
      cases loop <;> simp_all
    rw [Node.offers]
    simp only [hreadings, ← halternative, ← hloop]
    refine .cons ?_ .nil
    by_cases hkind : elementKind tag readings = .template
    · rw [hkind] at seals ⊢
      refine seals.makes_template hds fun hinner => ?_
      rw [allDeclarations_append, List.append_subset] at hinner
      have hmakes := hchildren lowersChildren (Template.shows_children ht) hinside hinner.1
      rw [← List.flatten_splitBy Sibling.continues siblings] at hmakes
      exact finishes.holds hinner.2 (fun _ => List.isChain_of_mem_splitBy) hmakes []
    · rw [if_neg hkind]
      exact seals.makes_element hkind reads fun call calls =>
        calls.codedAs hc reads lowersReadings hinside.binds_eq

end

/-! ## Nodes -/

section

variable {compiled : Compiled} {root : Sibling} {ds' : List Declaration} {n₁ : Numbering}

mutual

theorem LowersNode.makes (hc : Compiles env t compiled K root ds' n₁) :
    ∀ {node : Node} {binders around before siblings ds n n'},
      LowersNode env K binders around before node siblings ds n n' →
      t.Shows around before node.elements →
      t.Binds env.config binders (Site.enclosing ⟨around, false⟩) →
      allDeclarations ds ⊆ compiled.module.function.inner →
      List.Forall₂ (Sibling.Makes env t compiled.module) siblings
        (node.offers env.config around before)
  | .text .., _, _, _, _, _, _, _, h, _, _, _ => by
    rw [Node.offers]
    cases h with
    | blank empty =>
      rw [if_pos empty]
      exact .nil
    | text shown =>
      rw [if_neg (by simp [shown])]
      exact .cons (Sibling.makes_self rfl rfl rfl .text) .nil
  | .placeholder _ none, _, _, _, _, _, _, _, h, _, _, _ => by
    cases h with
    | nothing => exact .nil
  | .placeholder _ (some e), _, _, _, _, _, _, _, h, _, hb, _ => by
    cases h with
    | placeholder valid =>
      rw [hb.binds_eq]
      exact .cons (Sibling.makes_self rfl rfl rfl .placeholder) .nil
  | .fragment _ children, _, _, _, _, _, _, _, h, ht, hb, hds => by
    cases h with
    | fragment lowersChildren => exact LowersNodes.makes hc lowersChildren ht hb hds
  | .element _ _ _ children, _, _, _, _, _, _, _, h, ht, hb, hds => by
    cases h with
    | element lowers =>
      rw [← Site.enclosing_iterable] at hb
      exact lowers.makes hc (ht 0 _ rfl) hb hds fun h => LowersNodes.makes hc h
  | .literal .., _, _, _, _, _, _, _, h, _, _, _ => nomatch h
  | .attr .., _, _, _, _, _, _, _, h, _, _, _ => nomatch h
  | .template .., _, _, _, _, _, _, _, h, _, _, _ => nomatch h

/-- Siblings are made of what the nodes that they are lowered from offer, one for one. -/
theorem LowersNodes.makes (hc : Compiles env t compiled K root ds' n₁) :
    ∀ {nodes : List Node} {binders around before siblings ds n n'},
      LowersNodes env K binders around before nodes siblings ds n n' →
      t.Shows around before (elementsOf nodes) →
      t.Binds env.config binders (Site.enclosing ⟨around, false⟩) →
      allDeclarations ds ⊆ compiled.module.function.inner →
      List.Forall₂ (Sibling.Makes env t compiled.module) siblings
        (offersOf env.config around before nodes)
  | [], _, _, _, _, _, _, _, h, _, _, _ => by
    cases h
    exact .nil
  | node :: rest, _, _, _, _, _, _, _, h, ht, hb, hds => by
    cases h with
    | cons head tail =>
      rw [elementsOf] at ht
      rw [allDeclarations_append, List.append_subset] at hds
      exact List.rel_append (LowersNode.makes hc head ht.left hb hds.1)
        (LowersNodes.makes hc tail ht.right hb hds.2)

end

end

/-! ## Units -/

/-- The call of a custom element, with what its attributes tell and with what is passed to its
slots. -/
inductive PassesSlots (env : Env) (t : Template) (m : Module) (place : Place) (tag : Tag)
    (attributes : List Attribute) (slots : List (String × Code)) : Code → Prop where
  | mk {readings i} {es : List (Entry Code)}
      (reads : Reading.ofAttributes env.config [] attributes = .ok readings)
      (entries : List.Forall₂ (Property.IsEntry env t ⟨place, false⟩ true)
        (readings.filterMap Reading.property?) es)
      (imported : i ∈ m.imports) (path : i.path = Component.tagPath tag.name) :
      PassesSlots env t m place tag attributes slots
        (env.config.callPrimitive env.config.primitives.customElement
          [.text i.path, .ref i.localName, .dict (Entry.attributes .dict es ++
            if slots.isEmpty then [] else [("slotset", .dict slots)])])

/-- Content is emitted in the code for a slot. -/
def Passed.EmittedIn (env : Env) (t : Template) (m : Module) (p : Passed) (code : Code) : Prop :=
  ∃ own, p.node.CodedAs env t m p.place own ∧ m.function.Emits env.config own code

theorem nodup_slots (items : List Item) : ((Item.slots config items).map Prod.fst).Nodup := by
  rw [Item.slots, List.map_map]
  exact (List.map_id _).symm ▸ nodup_eraseDups _

/-- What some of the items emits is emitted in the group of its slot. -/
theorem Holds.exists_group {m : Module} {items : List Item} {p : Passed}
    (h : Holds env t m items p) : ∃ group ∈ Item.slots env.config items,
      group.1 = p.taken env.config ∧ p.EmittedIn env t m group.2 := by
  obtain ⟨own, hown, i, hi, hslot, hemits⟩ := h
  have hname : i.slotName env.config ∈ (items.map (Item.slotName env.config)).eraseDups :=
    List.mem_eraseDups.2 (List.mem_map_of_mem hi)
  refine ⟨_, List.mem_map_of_mem hname, ?_, own, hown, .trans (emits_assemble ?_) hemits⟩
  · rw [Passed.taken, ← hslot, Item.slotName]
  · exact List.mem_filter.2 ⟨hi, by simp⟩

/-- In a unit that compiles, all that is passed to a custom element is emitted in the call of it,
in the one group of the slot that is left for it. That is the slot that is named for it if and only
if whatever is named inside of an iterated template or an else is named outside of it as well. -/
theorem content_in_slot {compiled : Compiled} (h : (compile env t).1 = .ok compiled)
    {place : Place} {pos : Position} {tag : Tag} {attributes : List Attribute}
    {children : List Node}
    (helement : t.elementAt? place = some (.element pos tag attributes children))
    (hkind : elementKind tag ((Node.element pos tag attributes children).readings env.config) =
      .custom) :
    ∃ slots call, call ∈ compiled.module.function.subterms ∧
      PassesSlots env t compiled.module place tag attributes slots call ∧
      (slots.map Prod.fst).Nodup ∧
      ∀ p ∈ passedTo env.config place children,
        (∃ group ∈ slots, group.1 = p.taken env.config ∧
          p.EmittedIn env t compiled.module group.2) ∧
        (p.taken env.config = p.named env.config ↔ p.Kept env.config) := by
  obtain ⟨K, root, ds, n, hc⟩ := compiles_of_ok h
  obtain ⟨binders, s, inner, m, m', hl⟩ := hc.exists_lowered place helement
  cases hl.lowers with
  | @mk _ _ _ _ _ _ readings loop parts siblings items _ ds₁ ds₂ _ _ _ _ _ _ reads opens
      lowersReadings lowersChildren finishes seals =>
    simp only [Node.readings, reads] at hkind
    have hinside := opens.binds_enclosing hl.binders (Template.readingsAt_element helement reads)
    -- the sibling of a component is a call, what its condition and its iteration make of it aside
    rw [hkind] at seals lowersReadings
    obtain ⟨call, chosen, own, calls, hcall, -, hinner⟩ := seals.call_stands rfl hl.stands hl.inner
    rw [allDeclarations_append, List.append_subset] at hinner
    have hmakes := lowersChildren.makes hc (Template.shows_children helement) hinside hinner.1
    rw [← List.flatten_splitBy Sibling.continues siblings] at hmakes
    have hholds := finishes.holds hinner.2 (fun _ => List.isChain_of_mem_splitBy) hmakes []
    refine ⟨Item.slots env.config items, call, hcall.choice.stands hcall.body, ?_,
      nodup_slots items, fun p hp => ⟨(hholds p hp).exists_group, p.taken_eq_named_iff env.config⟩⟩
    cases calls with
    | custom imported =>
      obtain ⟨i, hi, hpath, rfl⟩ := hc.exists_import imported
      rw [← slots_isEmpty env.config items, ← hpath]
      exact .mk reads (lowersReadings.entries hinside.binds_eq) hi hpath

/-- Content in a slot of its own, under a condition, in an else, and in an iteration. -/
def slottedTemplate : Template :=
  .ofRoot [.plain "x-foo" []
    [.plain "b" [.named "slot" "main"] [],
      .plain "template" [.named "slot" "side", .text "set" "if" "c"]
        [.name "x", .plain "i" [.named "slot" "main"] []],
      .plain "p" [.text "set" "if" "a", .named "slot" "main"] [],
      .plain "template" [.bare "set" "else"] [.plain "u" [] []],
      .plain "template" [.text "repeat" "for" "y in ys", .named "slot" "side"]
        [.plain "q" [] [], .plain "template" [.text "set" "if" "y"] [.name "y"]]]]

theorem content_in_slot_slotted :
    ∃ compiled, (compile .default slottedTemplate).1 = .ok compiled ∧
      ∃ pos attributes children,
        slottedTemplate.elementAt? [0] = some (.element pos ⟨none, "x-foo"⟩ attributes children) ∧
        (passedTo {} [0] children).map (Passed.taken {}) =
          ["main", "side", "main", "main", "main", "side", "side"] ∧
        ∃ slots call, call ∈ compiled.module.function.subterms ∧
          PassesSlots .default slottedTemplate compiled.module [0] ⟨none, "x-foo"⟩ attributes slots
            call ∧
          (slots.map Prod.fst).Nodup ∧
          ∀ p ∈ passedTo {} [0] children,
            (∃ group ∈ slots, group.1 = p.taken {} ∧
              p.EmittedIn .default slottedTemplate compiled.module group.2) ∧
            (p.taken {} = p.named {} ↔ p.Kept {}) := by
  have hok : (compile .default slottedTemplate).1.toOption.map (fun _ => ()) = some () := by
    decide +kernel
  obtain ⟨compiled, hc, -⟩ := exists_ok_of_map hok
  exact ⟨compiled, hc, _, _, _, rfl, by decide +kernel, content_in_slot hc rfl (by decide +kernel)⟩

/-- The slots that code passes content to. -/
def Code.slotNames : Code → List String
  | .dict entries => entries.flatMap fun
    | ("slotset", .dict slots) => slots.map Prod.fst
    | _ => []
  | _ => []

/-- Some content that is passed to the first element of a unit names a slot, and the module passes
nothing to that slot. -/
def Template.DropsSlot (t : Template) (slot : String) : Prop :=
  ∃ compiled, (compile .default t).1 = .ok compiled ∧
    (∃ pos tag attributes children,
      t.elementAt? [0] = some (.element pos tag attributes children) ∧
      ∃ p ∈ passedTo {} [0] children, p.slot = some slot) ∧
    slot ∉ compiled.module.function.subterms.flatMap Code.slotNames

/-- An element that names a slot, in a template that repeats. -/
def iteratedSlotTemplate : Template :=
  .ofRoot [.plain "x-foo" [] [.plain "template" [.text "repeat" "for" "x in xs"]
    [.plain "b" [.named "slot" "s"] []]]]

/-- An else that names a slot. -/
def elseSlotTemplate : Template :=
  .ofRoot [.plain "x-foo" [] [.plain "p" [.text "set" "if" "a"] [],
    .plain "b" [.bare "set" "else", .named "slot" "s"] []]]

theorem named_slot_is_dropped :
    iteratedSlotTemplate.DropsSlot "s" ∧ elseSlotTemplate.DropsSlot "s" := by
  have hiterated : (compile .default iteratedSlotTemplate).1.toOption.map (fun c =>
      c.module.function.subterms.flatMap Code.slotNames) = some ["$default$"] := by
    decide +kernel
  have helse : (compile .default elseSlotTemplate).1.toOption.map (fun c =>
      c.module.function.subterms.flatMap Code.slotNames) = some ["$default$"] := by
    decide +kernel
  obtain ⟨compiled, hc, hslots⟩ := exists_ok_of_map hiterated
  obtain ⟨compiled', hc', hslots'⟩ := exists_ok_of_map helse
  refine ⟨⟨compiled, hc, ⟨_, _, _, _, rfl, _, List.mem_cons_self, ?_⟩, by simp [hslots]⟩,
    ⟨compiled', hc', ⟨_, _, _, _, rfl, _, List.mem_cons_of_mem _ List.mem_cons_self, ?_⟩,
      by simp [hslots']⟩⟩ <;> decide +kernel

end TemplateCompiler
