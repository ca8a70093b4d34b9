import TemplateCompiler.Proofs.Guards
import TemplateCompiler.Proofs.Subterms

/-!
# What generated code is composed of

The code of a module is composed of the contents that the markup is written with, the aliases of its
components, and a fixed set of forms: calls of primitives, lookups in the memo and in the slots, and
the names of its own statements. A function stands only where an iterator calls it, and is made for
an element that repeats. The contents are told by the markup (`Template.terms`), so a property that
all of them have is one of every leaf of the code (`Compiles.composed`).
-/

namespace TemplateCompiler

/-! ## The contents of markup -/

/-- What is read of an attribute and may be resolved. -/
def Reading.terms : Reading → List Term
  | iteration (.statement s) => ((Content.constant (.text s.iterable)).term? true).toList
  | iteration (.each content) => (content.term? true).toList
  | iteration (.item _) | iteration (.index _) | iteration .idle | slot _ => []
  | component content => (content.term? false).toList
  | condition content | alternative content => (content.term? true).toList
  | property p => (p.content.term? p.directive.isSome).toList

mutual

def Node.terms (config : Config) : Node → List Term
  | .element pos tag attributes children =>
    ((Node.element pos tag attributes children).readings config).flatMap Reading.terms ++
      termsOf config children
  | .placeholder _ e => e.toList.map .expression
  | .fragment _ children => termsOf config children
  | .text .. | .literal .. | .attr _ | .template .. => []

def termsOf (config : Config) : List Node → List Term
  | [] => []
  | node :: rest => node.terms config ++ termsOf config rest

end

namespace Template

def terms (config : Config) (t : Template) : List Term :=
  (t.root?.map (Node.terms config)).getD []

/-- The element at a place repeats, for the given names. -/
def RepeatsFor (config : Config) (t : Template) (place : Place) (parameters : List String) :
    Prop :=
  (∃ pos tag attributes children,
    t.elementAt? place = some (.element pos tag attributes children) ∧
      attributes.any Attribute.iterates) ∧
  parameters = (t.binderAt config place).parameters

end Template

/-! ## The forms of code -/

/-- Code that is composed of contents with a property. -/
inductive Composed (env : Env) (K : Context) (t : Template) (T : Term → Prop) : Code → Prop where
  | term {site bound term} (allowed : T term) : Composed env K t T (term.code env.config site bound)
  | constant {c} : Composed env K t T (.constant none c)
  | component {path localName} (imported : Imported K path localName) :
      Composed env K t T (.ref localName)
  | bound {target} (composed : Composed env K t T target) :
      Composed env K t T
        (.call (.ref env.config.bindHelper) [target, .ref env.config.instanceParam])
  | memoized {key value} (composed : Composed env K t T value) :
      Composed env K t T (CompileM.memoized env key value)
  | primitive {name arguments} (named : name ∈ env.config.primitives.names)
      (composed : ∀ a ∈ arguments, Composed env K t T a) :
      Composed env K t T (env.config.callPrimitive name arguments)
  | inline {iterable place parameters body} (repeats : t.RepeatsFor env.config place parameters)
      (source : Composed env K t T iterable) (each : Composed env K t T body) :
      Composed env K t T (env.config.callPrimitive env.config.primitives.iterator
        [iterable, .lambda place parameters body])
  | declared {iterable} (n : Numbering) (source : Composed env K t T iterable) :
      Composed env K t T
        (env.config.callPrimitive env.config.primitives.iterator [iterable, .ref n.loop])
  | outlet {name code} (composed : Composed env K t T code) :
      Composed env K t T (.or (.call (.refMember env.config.slotsetParam "get") [.text name]) code)
  | dict {entries} (composed : ∀ e ∈ entries, Composed env K t T e.2) :
      Composed env K t T (.dict entries)
  | list {items} (composed : ∀ i ∈ items, Composed env K t T i) : Composed env K t T (.list items)
  | choice {test body alternative} (tests : Composed env K t T test)
      (holds : Composed env K t T body) (fails : Composed env K t T alternative) :
      Composed env K t T (.conditional test body alternative)
  | guarded {code} (n : Numbering) (composed : Composed env K t T code) :
      Composed env K t T (.and (.ref n.temporary) code)
  | tested {condition} (composed : Composed env K t T condition) :
      Composed env K t T (.or condition (.constant none .null))

/-- A statement that is composed so, and a function that is made for an element that repeats. -/
inductive Declaration.Composed (env : Env) (K : Context) (t : Template) (T : Term → Prop) :
    Declaration → Prop where
  | assign {name value} (composed : TemplateCompiler.Composed env K t T value) :
      Composed env K t T (.assign name value)
  | define {f : Function} (repeats : t.RepeatsFor env.config f.place f.parameters)
      (result : TemplateCompiler.Composed env K t T f.result)
      (inside : ∀ d ∈ f.declarations, Composed env K t T d) : Composed env K t T (.define f)

def Form.Composed (env : Env) (K : Context) (t : Template) (T : Term → Prop) : Form → Prop
  | .fixed => True
  | .spliced items => ∀ i ∈ items, TemplateCompiler.Composed env K t T i.code
  | .guarded test => TemplateCompiler.Composed env K t T test
  | .repeated loop ds condition =>
    (TemplateCompiler.Composed env K t T loop.iterable ∧
      t.RepeatsFor env.config loop.place loop.parameters) ∧
    (∀ d ∈ ds, d.Composed env K t T) ∧
      ∀ test ∈ condition, TemplateCompiler.Composed env K t T test

structure Sibling.Composed (env : Env) (K : Context) (t : Template) (T : Term → Prop)
    (s : Sibling) : Prop where
  item : TemplateCompiler.Composed env K t T s.item.code
  form : s.form.Composed env K t T

variable {env : Env} {K : Context} {t : Template} {T : Term → Prop} {n n' : Numbering}

/-! ## Attributes -/

theorem composed_boundCode {target : Code} (h : Composed env K t T target) :
    Composed env K t T (boundCode env.config target) := by
  unfold boundCode
  split
  · exact h
  · exact .bound h

theorem BindsCallback.composed {bound : String → Bool} {target code : Code}
    (h : BindsCallback env K bound target code n n') (htarget : Composed env K t T target) :
    Composed env K t T code := by
  cases h with
  | kept => exact .memoized (composed_boundCode htarget)
  | passed => exact composed_boundCode htarget

theorem Entry.composed_ofProperty {isComponent : Bool} {p : Property} {code : Code}
    (h : Composed env K t T code) : Composed env K t T (ofProperty isComponent p code).value := by
  unfold ofProperty
  split
  · unfold topValue
    split
    · split
      · exact .dict (List.forall_mem_map.2 fun _ _ => .constant)
      · exact h
    · exact h
  · exact h

theorem LowersReading.composed {bound : String → Bool} {site : Site} {isComponent : Bool}
    {reading : Reading} {parts : List Part}
    (h : LowersReading env K bound site isComponent reading parts n n')
    (hT : ∀ term ∈ reading.terms, T term) : PartsAll (Composed env K t T) parts := by
  intro part hpart
  cases h with
  | iteration | slot => simp at hpart
  | component reads | condition reads =>
    obtain rfl := List.mem_singleton.1 hpart
    exact .term (hT _ (Option.mem_toList.2 reads))
  | alternative =>
    obtain rfl := List.mem_singleton.1 hpart
    trivial
  | property lowers =>
    obtain rfl := List.mem_singleton.1 hpart
    cases lowers with
    | callback reads _ callback =>
      exact Entry.composed_ofProperty (callback.composed (.term (hT _ (Option.mem_toList.2 reads))))
    | value reads => exact Entry.composed_ofProperty (.term (hT _ (Option.mem_toList.2 reads)))

theorem LowersReadings.composed {bound : String → Bool} {site : Site} {isComponent : Bool}
    {readings : List Reading} {parts : List Part}
    (h : LowersReadings env K bound site isComponent readings parts n n')
    (hT : ∀ term ∈ readings.flatMap Reading.terms, T term) :
    PartsAll (Composed env K t T) parts := by
  induction h with
  | nil => simp [PartsAll]
  | cons head _ ih =>
    rw [List.flatMap_cons, List.forall_mem_append] at hT
    intro part hpart
    rcases List.mem_append.1 hpart with hpart | hpart
    · exact head.composed hT.1 part hpart
    · exact ih hT.2 part hpart

/-- What an element iterates over is a content of one of its attributes. -/
theorem LoopPart.exists_of_iterable? {readings : List Reading} {content : Content} {term : Term}
    (h : iterable? (Reading.loopParts readings) = .ok (some content))
    (hterm : content.term? true = some term) :
    term ∈ readings.flatMap Reading.terms := by
  have hmem : ∀ {part : LoopPart}, part ∈ Reading.loopParts readings →
      Reading.iteration part ∈ readings := by
    intro part hpart
    obtain ⟨reading, hr, hpart⟩ := List.mem_filterMap.1 hpart
    cases reading <;> simp at hpart
    exact hpart ▸ hr
  unfold iterable? at h
  split at h
  · simp at h
  · split at h
    · rename_i s hs
      obtain ⟨part, hpart, hs⟩ := List.exists_of_findSome?_eq_some hs
      cases part <;> simp at hs
      subst hs
      split at h
      · simp at h
      · obtain rfl := Option.some.inj (Except.ok.inj h)
        refine List.mem_flatMap.2 ⟨_, hmem hpart, ?_⟩
        rw [Reading.terms, Option.mem_toList, hterm]
    · split at h
      · simp at h
      · rename_i each heach
        obtain ⟨part, hpart, heach⟩ := List.exists_of_findSome?_eq_some heach
        cases part <;> simp at heach
        subst heach
        split at h
        · obtain rfl := Option.some.inj (Except.ok.inj h)
          refine List.mem_flatMap.2 ⟨_, hmem hpart, ?_⟩
          rw [Reading.terms, Option.mem_toList, hterm]
        · simp at h

theorem OpensLoop.composed {binders : List Binder} {place : Place} {pos : Position} {tag : Tag}
    {attributes : List Attribute} {children : List Node} {readings : List Reading} {loop : Loop}
    (h : OpensLoop env.config binders place readings (some loop))
    (ht : t.elementAt? place = some (.element pos tag attributes children))
    (reads : Reading.ofAttributes env.config [] attributes = .ok readings)
    (hT : ∀ term ∈ readings.flatMap Reading.terms, T term) :
    Composed env K t T loop.iterable ∧ t.RepeatsFor env.config loop.place loop.parameters := by
  have hbinder := h.binder_eq (Template.readingsAt_element ht reads)
  have hiterates : attributes.any Attribute.iterates := by
    by_contra honce
    exact nomatch (h.eq_none_iff reads).2 (by simpa using honce)
  have hrepeats : t.RepeatsFor env.config place loop.parameters :=
    ⟨⟨pos, tag, attributes, children, ht, hiterates⟩, congrArg Binder.parameters hbinder⟩
  cases h with
  | repeated found iterable _ =>
    exact ⟨.term (hT _ (LoopPart.exists_of_iterable? found iterable)), hrepeats⟩

/-! ## Items -/

theorem assembles_composed : Assembles env.config (Composed env K t T) where
  list h := .list h
  dict h := .dict h
  flatten h := .primitive (by simp [Primitives.names]) (List.forall_mem_singleton.2 h)

theorem composed_choose {test body : Code} {alternative : Option Item}
    (htest : Composed env K t T test) (hbody : Composed env K t T body)
    (halternative : ∀ i ∈ alternative, Composed env K t T i.code) :
    Composed env K t T (Sibling.choose env.config test body alternative) := by
  refine .choice htest hbody ?_
  rcases alternative with _ | i
  · exact .primitive (by simp [Primitives.names]) (by simp)
  · exact halternative i rfl

/-! ## Siblings -/

theorem Iterates.composed {loop : Loop} {body code : Code} {flatten : Bool}
    {ds outer : List Declaration} (h : Iterates env.config loop body flatten ds code outer n n')
    (hloop : Composed env K t T loop.iterable ∧
      t.RepeatsFor env.config loop.place loop.parameters)
    (hds : ∀ d ∈ ds, d.Composed env K t T) (hbody : Composed env K t T body) :
    (∀ d ∈ outer, d.Composed env K t T) ∧ Composed env K t T code := by
  cases h with
  | inline =>
    exact ⟨by simp, assembles_composed.iterationCall (.inline hloop.2 hloop.1 hbody)⟩
  | declared =>
    exact ⟨List.forall_mem_singleton.2 (.define hloop.2 hbody hds),
      assembles_composed.iterationCall (.declared n hloop.1)⟩

theorem FinishesSibling.composed {s : Sibling} {alternative : Option Item} {item : Item}
    {ds : List Declaration} (h : FinishesSibling env.config s alternative item ds n n')
    (hs : s.Composed env K t T) (halternative : ∀ i ∈ alternative, Composed env K t T i.code) :
    (∀ d ∈ ds, d.Composed env K t T) ∧ Composed env K t T item.code := by
  obtain ⟨hitem, hform⟩ := hs
  cases h with
  | fixed | spliced => exact ⟨by simp, hitem⟩
  | guarded form =>
    rw [form] at hform
    exact ⟨by simp, composed_choose hform hitem halternative⟩
  | repeated form iterates =>
    rw [form] at hform
    exact iterates.composed hform.1 hform.2.1 hitem
  | filtered form iterates =>
    rw [form] at hform
    obtain ⟨hloop, hds, htest⟩ := hform
    exact iterates.composed hloop hds (composed_choose (htest _ rfl) hitem halternative)

theorem finishing_composed : Finishing env.config (Sibling.Composed env K t T)
    (Declaration.Composed env K t T) (fun i => Composed env K t T i.code) where
  sibling h hs halternative := h.composed hs halternative
  spliced form hs := by
    have hform := hs.form
    rwa [form] at hform

/-! ## Elements -/

theorem GuardsItems.composed {condition : Option Code} {items kept : List Item}
    {ds : List Declaration} (h : GuardsItems condition items kept ds n n')
    (htest : ∀ test ∈ condition, Composed env K t T test)
    (hitems : ∀ i ∈ items, Composed env K t T i.code) :
    (∀ d ∈ ds, d.Composed env K t T) ∧ ∀ i ∈ kept, Composed env K t T i.code := by
  cases h with
  | unconditional => exact ⟨by simp, hitems⟩
  | nothing => exact ⟨by simp, by simp⟩
  | guarded =>
    exact ⟨List.forall_mem_singleton.2 (.assign (.tested (htest _ rfl))),
      List.forall_mem_map.2 fun i hi => .guarded n (hitems i hi)⟩

theorem CallsElement.composed {tag : Tag} {written : Option Content} {parts : List Part}
    {items : List Item} {kind : ElementKind} {code : Code}
    (h : CallsElement env.config K tag written parts items kind code)
    (hparts : PartsAll (Composed env K t T) parts)
    (hitems : ∀ i ∈ items, Composed env K t T i.code) : Composed env K t T code := by
  obtain ⟨name, hname, arguments, rfl, harguments⟩ := assembles_composed.exists_arguments h
    .component (fun _ => .constant) (fun _ => hparts.component) (hparts.attributes .dict) hitems
  have hmakers : [env.config.primitives.element, env.config.primitives.virtualElement,
      env.config.primitives.customElement] ⊆ env.config.primitives.names := by
    simp [Primitives.names]
  exact .primitive (hmakers hname) harguments

theorem SealsElement.composed {pos : Position} {tag : Tag} {readings : List Reading}
    {parts : List Part} {items : List Item} {ds outer : List Declaration} {kind : ElementKind}
    {loop : Option Loop} {sibling : Sibling}
    (h : SealsElement env.config K pos tag readings parts items ds kind loop sibling outer n n')
    (hparts : PartsAll (Composed env K t T) parts)
    (hloop : ∀ l ∈ loop, Composed env K t T l.iterable ∧
      t.RepeatsFor env.config l.place l.parameters)
    (hds : ∀ d ∈ ds, d.Composed env K t T) (hitems : ∀ i ∈ items, Composed env K t T i.code) :
    (∀ d ∈ outer, d.Composed env K t T) ∧ sibling.Composed env K t T := by
  have htest : ∀ test ∈ Part.condition? parts, Composed env K t T test :=
    fun _ h => hparts.condition h
  cases h with
  | spliced guarded =>
    obtain ⟨hguards, hkept⟩ := guarded.composed htest hitems
    exact ⟨List.forall_mem_append.2 ⟨hds, hguards⟩, assembles_composed.assemble hkept, hkept⟩
  | iterated guarded iterates =>
    obtain ⟨hguards, hkept⟩ := guarded.composed htest hitems
    obtain ⟨houter, hcode⟩ := iterates.composed (hloop _ rfl)
      (List.forall_mem_append.2 ⟨hds, hguards⟩) (assembles_composed.iteratedBody hkept)
    exact ⟨houter, hcode, trivial⟩
  | outlet => exact ⟨hds, .outlet (assembles_composed.assemble hitems), trivial⟩
  | fixed _ calls => exact ⟨hds, calls.composed hparts hitems, trivial⟩
  | guarded condition calls =>
    exact ⟨hds, calls.composed hparts hitems, htest _ condition⟩
  | repeated calls =>
    exact ⟨by simp, calls.composed hparts hitems, hloop _ rfl, hds, htest⟩

theorem LowersElement.composed {binders : List Binder} {place : Place} {pos : Position} {tag : Tag}
    {attributes : List Attribute} {children : List Node} {sibling : Sibling}
    {ds : List Declaration}
    (h : LowersElement env K binders place pos tag attributes children sibling ds n n')
    (ht : t.elementAt? place = some (.element pos tag attributes children))
    (hT : ∀ term ∈ (Node.element pos tag attributes children).terms env.config, T term)
    (hchildren : ∀ {binders siblings ds n n'},
      LowersNodes env K binders place 0 children siblings ds n n' →
      t.Shows place 0 (elementsOf children) → (∀ term ∈ termsOf env.config children, T term) →
      (∀ d ∈ ds, d.Composed env K t T) ∧ ∀ s ∈ siblings, s.Composed env K t T) :
    (∀ d ∈ ds, d.Composed env K t T) ∧ sibling.Composed env K t T := by
  cases h with
  | mk reads opens lowersReadings lowersChildren finishes seals =>
    simp only [Node.terms, Node.readings, reads, List.forall_mem_append] at hT
    obtain ⟨hds, hsiblings⟩ := hchildren lowersChildren (Template.shows_children ht) hT.2
    obtain ⟨hds', hitems⟩ := finishing_composed.chains finishes (by
      rwa [Sibling.chains, List.flatten_splitBy])
    refine seals.composed (lowersReadings.composed hT.1) ?_
      (List.forall_mem_append.2 ⟨hds, hds'⟩) hitems
    rintro loop rfl
    exact opens.composed ht reads hT.1

mutual

theorem LowersNode.composed :
    ∀ {node : Node} {binders around before siblings ds n n'},
      LowersNode env K binders around before node siblings ds n n' →
      t.Shows around before node.elements → (∀ term ∈ node.terms env.config, T term) →
      (∀ d ∈ ds, d.Composed env K t T) ∧ ∀ s ∈ siblings, s.Composed env K t T
  | .text .., _, _, _, _, _, _, _, h, _, _ => by
    cases h with
    | blank => exact ⟨by simp, by simp⟩
    | text => exact ⟨by simp, List.forall_mem_singleton.2 ⟨.constant, trivial⟩⟩
  | .placeholder _ none, _, _, _, _, _, _, _, h, _, _ => by
    cases h with
    | nothing => exact ⟨by simp, by simp⟩
  | .placeholder _ (some e), binders, around, _, _, _, _, _, h, _, hT => by
    cases h with
    | placeholder =>
      have hterm : Composed env K t T
          ((Term.expression e).code env.config ⟨around, false⟩ (binds binders)) :=
        .term (hT _ List.mem_cons_self)
      exact ⟨by simp, List.forall_mem_singleton.2
        ⟨.primitive (by simp [Primitives.names]) (List.forall_mem_singleton.2 hterm), trivial⟩⟩
  | .fragment _ children, _, _, _, _, _, _, _, h, ht, hT => by
    cases h with
    | fragment lowersChildren => exact LowersNodes.composed lowersChildren ht hT
  | .element _ _ _ children, _, _, _, _, _, _, _, h, ht, hT => by
    cases h with
    | element lowers =>
      rw [List.forall_mem_singleton]
      exact lowers.composed (ht 0 _ rfl) hT fun h ht hT => LowersNodes.composed h ht hT
  | .literal .., _, _, _, _, _, _, _, h, _, _ => nomatch h
  | .attr .., _, _, _, _, _, _, _, h, _, _ => nomatch h
  | .template .., _, _, _, _, _, _, _, h, _, _ => nomatch h

theorem LowersNodes.composed :
    ∀ {nodes : List Node} {binders around before siblings ds n n'},
      LowersNodes env K binders around before nodes siblings ds n n' →
      t.Shows around before (elementsOf nodes) → (∀ term ∈ termsOf env.config nodes, T term) →
      (∀ d ∈ ds, d.Composed env K t T) ∧ ∀ s ∈ siblings, s.Composed env K t T
  | [], _, _, _, _, _, _, _, h, _, _ => by
    cases h
    exact ⟨by simp, by simp⟩
  | node :: rest, _, _, _, _, _, _, _, h, ht, hT => by
    cases h with
    | cons head tail =>
      rw [elementsOf] at ht
      rw [termsOf, List.forall_mem_append] at hT
      obtain ⟨hds, hhead⟩ := LowersNode.composed head ht.left hT.1
      obtain ⟨hds', htail⟩ := LowersNodes.composed tail ht.right hT.2
      exact ⟨List.forall_mem_append.2 ⟨hds, hds'⟩, List.forall_mem_append.2 ⟨hhead, htail⟩⟩

end

/-! ## Units -/

/-- The statements of a unit and its result are composed of contents that have what all contents of
its markup have. -/
theorem Compiles.composed {compiled : Compiled} {sibling : Sibling} {ds : List Declaration}
    (h : Compiles env t compiled K sibling ds n) (hT : ∀ term ∈ t.terms env.config, T term) :
    (∀ d ∈ ds, d.Composed env K t T) ∧ Composed env K t T sibling.item.code := by
  obtain ⟨pos, attributes, children, hroot, hl⟩ := h.root
  have ht : t.elementAt? [] = some (.element pos ⟨none, "template"⟩ attributes children) := by
    simp [Template.elementAt?, hroot]
  rw [Template.terms, hroot] at hT
  obtain ⟨hds, hs⟩ := hl.composed ht hT fun h ht hT => LowersNodes.composed h ht hT
  exact ⟨hds, hs.item⟩

end TemplateCompiler
