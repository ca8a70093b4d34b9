import TemplateCompiler.Proofs.Standing

/-!
# What generated code inherits

A property that passes from the parts of code to what lowering makes of them (`Inherits`) is one of
all the code in a unit's function (`Compiles.inherits`). What is made of parts is the call of an
element, or one of a few forms that stand around such calls.
-/

namespace TemplateCompiler

/-- The call that the element at a place is lowered to. -/
inductive CallAt (env : Env) (K : Context) (t : Template) (place : Place) (code : Code) : Prop where
  | mk {pos tag attributes children binders readings parts items n n'}
      (element : t.elementAt? place = some (.element pos tag attributes children))
      (reads : Reading.ofAttributes env.config [] attributes = .ok readings)
      (within : t.Binds env.config binders (Site.enclosing ⟨place, false⟩))
      (lowers : LowersReadings env K (binds binders) ⟨place, false⟩
        (elementKind tag readings).isComponent readings parts n n')
      (calls : CallsElement env.config K tag (Reading.component? readings) parts items
        (elementKind tag readings) code)

/-- The primitives that are called for no element. -/
def Primitives.services (p : Primitives) : List String :=
  [p.text, p.iterator, p.flatten, p.empty]

/-- A property that what is made of code has if the code does. -/
structure Inherits (env : Env) (K : Context) (t : Template) (P : Code → Prop) : Prop where
  plain : ∀ {code}, Plain env.config code → P code
  service : ∀ {name arguments}, name ∈ env.config.primitives.services → (∀ a ∈ arguments, P a) →
    P (env.config.callPrimitive name arguments)
  outlet : ∀ {key code}, P code →
    P (.or (.call (.refMember env.config.slotsetParam "get") [.text key]) code)
  dict : ∀ {entries}, (∀ e ∈ entries, P e.2) → P (.dict entries)
  list : ∀ {items}, (∀ i ∈ items, P i) → P (.list items)
  choice : ∀ {test body alternative}, P test → P body → P alternative →
    P (.conditional test body alternative)
  guarded : ∀ {name code}, P code → P (.and (.ref name) code)
  function : ∀ {place parameters body}, P body → P (.lambda place parameters body)
  call : ∀ {place code}, CallAt env K t place code → (∀ c ∈ code.operands, P c) → P code

variable {env : Env} {K : Context} {t : Template} {P : Code → Prop} {n n' : Numbering}

/-- What waits with a sibling until it is finished has the property too. -/
def Form.Has (P : Code → Prop) : Form → Prop
  | .fixed => True
  | .spliced items => ∀ i ∈ items, P i.code
  | .guarded test => P test
  | .repeated loop ds condition =>
    P loop.iterable ∧ (∀ d ∈ allDeclarations ds, P d.code) ∧ ∀ test ∈ condition, P test

structure Sibling.Has (P : Code → Prop) (s : Sibling) : Prop where
  item : P s.item.code
  form : s.form.Has P

theorem forall_mem_allDeclarations_iff {Q : Declaration → Prop} {ds : List Declaration} :
    (∀ d ∈ allDeclarations ds, Q d) ↔ ∀ d ∈ ds, ∀ d' ∈ d.all, Q d' := by
  induction ds with
  | nil => simp [allDeclarations]
  | cons d ds ih => rw [allDeclarations, List.forall_mem_append, ih, List.forall_mem_cons]

theorem forall_mem_allDeclarations_append {Q : Declaration → Prop} {ds ds' : List Declaration} :
    (∀ d ∈ allDeclarations (ds ++ ds'), Q d) ↔
      (∀ d ∈ allDeclarations ds, Q d) ∧ ∀ d ∈ allDeclarations ds', Q d := by
  rw [allDeclarations_append, List.forall_mem_append]

section

variable (h : Inherits env K t P)

include h

/-! ## Items -/

theorem Inherits.assembles : Assembles env.config P where
  list := h.list
  dict := h.dict
  flatten hcode := h.service (by simp [Primitives.services]) (List.forall_mem_singleton.2 hcode)

theorem Inherits.choose {test body : Code} {alternative : Option Item} (htest : P test)
    (hbody : P body) (halternative : ∀ i ∈ alternative, P i.code) :
    P (Sibling.choose env.config test body alternative) := by
  refine h.choice htest hbody ?_
  rcases alternative with _ | i
  · exact h.service (by simp [Primitives.services]) (by simp)
  · exact halternative i rfl

theorem Iterates.inherits {loop : Loop} {body code : Code} {flatten : Bool}
    {ds outer : List Declaration}
    (hi : Iterates env.config loop body flatten ds code outer n n') (hloop : P loop.iterable)
    (hds : ∀ d ∈ allDeclarations ds, P d.code) (hbody : P body) :
    (∀ d ∈ allDeclarations outer, P d.code) ∧ P code := by
  have hcall : ∀ function, P function → P (iterationCall env.config loop function flatten) := by
    intro function hfunction
    exact h.assembles.iterationCall
      (h.service (by simp [Primitives.services]) (by simp [hloop, hfunction]))
  cases hi with
  | inline => exact ⟨by simp [allDeclarations], hcall _ (h.function hbody)⟩
  | declared =>
    refine ⟨?_, hcall _ (h.plain .ref)⟩
    simp only [allDeclarations, Declaration.all, Function.inner, List.append_nil]
    exact List.forall_mem_cons.2 ⟨hbody, hds⟩

/-! ## Siblings -/

theorem FinishesSibling.inherits {s : Sibling} {alternative : Option Item} {item : Item}
    {ds : List Declaration} (hf : FinishesSibling env.config s alternative item ds n n')
    (hs : s.Has P) (halternative : ∀ i ∈ alternative, P i.code) :
    (∀ d ∈ allDeclarations ds, P d.code) ∧ P item.code := by
  obtain ⟨hitem, hform⟩ := hs
  cases hf with
  | fixed | spliced => exact ⟨by simp [allDeclarations], hitem⟩
  | guarded form =>
    rw [form] at hform
    exact ⟨by simp [allDeclarations], h.choose hform hitem halternative⟩
  | repeated form iterates =>
    rw [form] at hform
    exact iterates.inherits h hform.1 hform.2.1 hitem
  | filtered form iterates =>
    rw [form] at hform
    obtain ⟨hloop, hds, htest⟩ := hform
    exact iterates.inherits h hloop hds (h.choose (htest _ rfl) hitem halternative)

theorem Inherits.finishing : Finishing env.config (Sibling.Has P)
    (fun d => ∀ d' ∈ d.all, P d'.code) (fun i => P i.code) where
  sibling hf hs halternative := by
    obtain ⟨hds, hitem⟩ := hf.inherits h hs halternative
    exact ⟨forall_mem_allDeclarations_iff.1 hds, hitem⟩
  spliced form hs := by
    have hform := hs.form
    rwa [form] at hform

/-! ## Elements -/

theorem GuardsItems.inherits {condition : Option Code} {items kept : List Item}
    {ds : List Declaration} (hg : GuardsItems condition items kept ds n n')
    (htest : ∀ test ∈ condition, Plain env.config test) (hitems : ∀ i ∈ items, P i.code) :
    (∀ d ∈ allDeclarations ds, P d.code) ∧ ∀ i ∈ kept, P i.code := by
  cases hg with
  | unconditional => exact ⟨by simp [allDeclarations], hitems⟩
  | nothing => exact ⟨by simp [allDeclarations], by simp⟩
  | guarded =>
    refine ⟨?_, List.forall_mem_map.2 fun i hi => h.guarded (hitems i hi)⟩
    simp only [allDeclarations, Declaration.all, List.append_nil, List.forall_mem_singleton]
    exact h.plain (.or (htest _ rfl) .constant)

theorem CallsElement.inherits {tag : Tag} {written : Option Content} {parts : List Part}
    {items : List Item} {kind : ElementKind} {code : Code}
    (hl : CallsElement env.config K tag written parts items kind code)
    (hparts : PartsAll (Plain env.config) parts) (hitems : ∀ i ∈ items, P i.code) :
    ∀ c ∈ code.operands, P c := by
  obtain ⟨name, -, arguments, rfl, harguments⟩ := h.assembles.exists_arguments hl
    (fun _ => h.plain .ref) (fun _ => h.plain .constant)
    (fun _ hc => h.plain (hparts.component hc))
    (fun e he => h.plain (hparts.attributes .dict e he)) hitems
  exact List.forall_mem_cons.2 ⟨h.plain (.member .ref), harguments⟩

theorem SealsElement.inherits {place : Place} {pos : Position} {tag : Tag}
    {readings : List Reading} {parts : List Part} {items : List Item}
    {ds outer : List Declaration} {kind : ElementKind} {loop : Option Loop} {sibling : Sibling}
    (hl : SealsElement env.config K pos tag readings parts items ds kind loop sibling outer n n')
    (hcall : ∀ {code}, CallsElement env.config K tag (Reading.component? readings) parts items kind
      code → CallAt env K t place code)
    (hparts : PartsAll (Plain env.config) parts) (hloop : ∀ l ∈ loop, Plain env.config l.iterable)
    (hds : ∀ d ∈ allDeclarations ds, P d.code) (hitems : ∀ i ∈ items, P i.code) :
    (∀ d ∈ allDeclarations outer, P d.code) ∧ sibling.Has P := by
  have htest : ∀ test ∈ Part.condition? parts, Plain env.config test :=
    fun _ hc => hparts.condition hc
  cases hl with
  | spliced guarded =>
    obtain ⟨hguards, hkept⟩ := guarded.inherits h htest hitems
    exact ⟨forall_mem_allDeclarations_append.2 ⟨hds, hguards⟩, h.assembles.assemble hkept, hkept⟩
  | iterated guarded iterates =>
    obtain ⟨hguards, hkept⟩ := guarded.inherits h htest hitems
    obtain ⟨houter, hcode⟩ := iterates.inherits h (h.plain (hloop _ rfl))
      (forall_mem_allDeclarations_append.2 ⟨hds, hguards⟩) (h.assembles.iteratedBody hkept)
    exact ⟨houter, hcode, trivial⟩
  | outlet => exact ⟨hds, h.outlet (h.assembles.assemble hitems), trivial⟩
  | fixed _ calls => exact ⟨hds, h.call (hcall calls) (calls.inherits h hparts hitems), trivial⟩
  | guarded condition calls =>
    exact ⟨hds, h.call (hcall calls) (calls.inherits h hparts hitems), h.plain (htest _ condition)⟩
  | repeated calls =>
    have hcode := h.call (hcall calls) (calls.inherits h hparts hitems)
    exact ⟨by simp [allDeclarations], hcode, h.plain (hloop _ rfl), hds,
      fun _ hc => h.plain (htest _ hc)⟩

theorem LowersElement.inherits {binders : List Binder} {place : Place} {pos : Position} {tag : Tag}
    {attributes : List Attribute} {children : List Node} {sibling : Sibling}
    {ds : List Declaration}
    (hl : LowersElement env K binders place pos tag attributes children sibling ds n n')
    (ht : t.elementAt? place = some (.element pos tag attributes children))
    (hb : t.Binds env.config binders (Site.enclosing ⟨place, true⟩))
    (hchildren : ∀ {binders siblings ds n n'},
      LowersNodes env K binders place 0 children siblings ds n n' →
      t.Binds env.config binders (Site.enclosing ⟨place, false⟩) →
      (∀ d ∈ allDeclarations ds, P d.code) ∧ ∀ s ∈ siblings, s.Has P) :
    (∀ d ∈ allDeclarations ds, P d.code) ∧ sibling.Has P := by
  cases hl with
  | mk reads opens lowersReadings lowersChildren finishes seals =>
    have hinside := opens.binds_enclosing hb (Template.readingsAt_element ht reads)
    obtain ⟨hds, hsiblings⟩ := hchildren lowersChildren hinside
    obtain ⟨hds', hitems⟩ := h.finishing.chains finishes (by
      rwa [Sibling.chains, List.flatten_splitBy])
    exact seals.inherits h (.mk ht reads hinside lowersReadings)
      (lowersReadings.all plain_attributive) opens.plain_iterable
      (forall_mem_allDeclarations_append.2 ⟨hds, forall_mem_allDeclarations_iff.2 hds'⟩) hitems

end

mutual

theorem LowersNode.inherits (h : Inherits env K t P) :
    ∀ {node : Node} {binders around before siblings ds n n'},
      LowersNode env K binders around before node siblings ds n n' →
      t.Shows around before node.elements →
      t.Binds env.config binders (Site.enclosing ⟨around, false⟩) →
      (∀ d ∈ allDeclarations ds, P d.code) ∧ ∀ s ∈ siblings, s.Has P
  | .text .., _, _, _, _, _, _, _, hl, _, _ => by
    cases hl with
    | blank => exact ⟨by simp [allDeclarations], by simp⟩
    | text =>
      exact ⟨by simp [allDeclarations], List.forall_mem_singleton.2 ⟨h.plain .constant, trivial⟩⟩
  | .placeholder .., _, _, _, _, _, _, _, hl, _, _ => by
    cases hl with
    | nothing => exact ⟨by simp [allDeclarations], by simp⟩
    | placeholder =>
      refine ⟨by simp [allDeclarations], List.forall_mem_singleton.2 ⟨?_, trivial⟩⟩
      exact h.service (by simp [Primitives.services])
        (List.forall_mem_singleton.2 (h.plain (plain_qualify _)))
  | .fragment _ children, _, _, _, _, _, _, _, hl, ht, hb => by
    cases hl with
    | fragment lowersChildren => exact LowersNodes.inherits h lowersChildren ht hb
  | .element _ _ _ children, _, around, before, _, _, _, _, hl, ht, hb => by
    cases hl with
    | element lowers =>
      have helement := ht 0 _ rfl
      rw [← Site.enclosing_iterable around before] at hb
      rw [List.forall_mem_singleton]
      exact lowers.inherits h helement hb fun hl hb =>
        LowersNodes.inherits h hl (Template.shows_children helement) hb
  | .literal .., _, _, _, _, _, _, _, hl, _, _ => nomatch hl
  | .attr .., _, _, _, _, _, _, _, hl, _, _ => nomatch hl
  | .template .., _, _, _, _, _, _, _, hl, _, _ => nomatch hl

theorem LowersNodes.inherits (h : Inherits env K t P) :
    ∀ {nodes : List Node} {binders around before siblings ds n n'},
      LowersNodes env K binders around before nodes siblings ds n n' →
      t.Shows around before (elementsOf nodes) →
      t.Binds env.config binders (Site.enclosing ⟨around, false⟩) →
      (∀ d ∈ allDeclarations ds, P d.code) ∧ ∀ s ∈ siblings, s.Has P
  | [], _, _, _, _, _, _, _, hl, _, _ => by
    cases hl
    exact ⟨by simp [allDeclarations], by simp⟩
  | node :: rest, _, _, _, _, _, _, _, hl, ht, hb => by
    cases hl with
    | cons head tail =>
      rw [elementsOf] at ht
      obtain ⟨hds, hhead⟩ := LowersNode.inherits h head ht.left hb
      obtain ⟨hds', htail⟩ := LowersNodes.inherits h tail ht.right hb
      exact ⟨forall_mem_allDeclarations_append.2 ⟨hds, hds'⟩,
        List.forall_mem_append.2 ⟨hhead, htail⟩⟩

end

/-! ## Units -/

theorem Compiles.inherits (h : Inherits env K t P) {compiled : Compiled} {sibling : Sibling}
    {ds : List Declaration} (hc : Compiles env t compiled K sibling ds n) :
    P compiled.module.function.result ∧ ∀ d ∈ compiled.module.function.inner, P d.code := by
  obtain ⟨pos, attributes, children, hroot, hl⟩ := hc.root
  have ht : t.elementAt? [] = some (.element pos ⟨none, "template"⟩ attributes children) := by
    simp [Template.elementAt?, hroot]
  obtain ⟨hds, hs⟩ := hl.inherits h ht (fun _ => rfl) fun hl hb =>
    LowersNodes.inherits h hl (Template.shows_children ht) hb
  rw [hc.function, Function.inner_eq]
  exact ⟨hs.item, hds⟩

end TemplateCompiler
