import TemplateCompiler.Proofs.Void

/-!
# Shapes of generated code

What is rendered is made of items and of lists of items. An item that is nested may come to a list
in its place, so a list of such items has to be flattened before it is passed on, and an iterator
makes a list of whatever its function gives. Lowering keeps to this, save for one thing: of a
template that repeats and contributes nothing, the iterator makes a list of empty lists, which is
taken for a list of items.
-/

namespace TemplateCompiler

/-! ## Attributes -/

/-- Code that makes no content. -/
inductive Plain (config : Config) : Code → Prop where
  | ref {id} : Plain config (.ref id)
  | name {site span id} : Plain config (.name site span id)
  | member {span value field} : Plain config value → Plain config (.member span value field)
  | index {span value key} :
      Plain config value → Plain config key → Plain config (.index span value key)
  | constant {span c} : Plain config (.constant span c)
  | foreign {span kind} : Plain config (.foreign span kind)
  | or {left right} : Plain config left → Plain config right → Plain config (.or left right)
  | dict {entries} : (∀ e ∈ entries, Plain config e.2) → Plain config (.dict entries)
  | bound {target} : Plain config target →
      Plain config (.call (.ref config.bindHelper) [target, .ref config.instanceParam])
  | lookup {key} : Plain config (.call (.refMember config.contextParam "get") [.text key])
  | store {key value} : Plain config value →
      Plain config (.call (.refMember config.contextParam "setdefault") [.text key, value])

variable {env : Env} {config : Config} {K : Context} {n n' : Numbering} {site : Site}
  {bound : String → Bool}

theorem plain_qualify : ∀ e : Expr, Plain config (e.qualify config.instanceParam site bound)
  | .name _ id => by
    rw [Expr.qualify]
    split
    · exact .name
    · exact .member .ref
  | .member _ value _ => .member (plain_qualify value)
  | .index _ value key => .index (plain_qualify value) (plain_qualify key)
  | .constant .. => .constant
  | .foreign .. => .foreign

theorem Term.plain_code (term : Term) : Plain config (term.code config site bound) := by
  cases term with
  | constant => exact .constant
  | expression e => exact plain_qualify e
  | dashed => exact .index .ref .constant

theorem OpensLoop.plain_iterable {binders : List Binder} {place : Place} {readings : List Reading}
    {loop : Option Loop} (h : OpensLoop config binders place readings loop) :
    ∀ l ∈ loop, Plain config l.iterable := by
  cases h with
  | once => nofun
  | repeated =>
    rintro l ⟨⟩
    exact Term.plain_code _

theorem plain_boundCode {target : Code} (h : Plain config target) :
    Plain config (boundCode config target) := by
  unfold boundCode
  split
  · exact h
  · exact .bound h

theorem BindsCallback.plain {target code : Code} (h : BindsCallback env K bound target code n n')
    (htarget : Plain env.config target) : Plain env.config code := by
  have hbound := plain_boundCode htarget
  cases h with
  | kept => exact .or .lookup (.store hbound)
  | passed => exact hbound

theorem plain_attributive : Attributive env K site bound (Plain env.config) :=
  ⟨fun term => term.plain_code, fun h => h.plain, .dict⟩

theorem LowersReadings.key_mem_topKeys {isComponent : Bool} {readings : List Reading}
    {parts : List Part} (h : LowersReadings env K bound site isComponent readings parts n n') :
    ∀ e ∈ Part.entries parts, e.group = none → e.key ∈ Entry.topKeys := by
  have hproperty : ∀ (p : Property) (code : Code),
      (Entry.ofProperty isComponent p code).group = none →
        (Entry.ofProperty isComponent p code).key ∈ Entry.topKeys := by
    intro p code hgroup
    unfold Entry.ofProperty at hgroup ⊢
    split
    · rename_i htop
      exact List.contains_iff_mem.1 htop
    · rename_i htop
      rw [if_neg htop] at hgroup
      simp at hgroup
  induction h with
  | nil => simp [Part.entries]
  | cons head _ ih =>
    rw [Part.entries, List.filterMap_append, List.forall_mem_append]
    refine ⟨?_, ih⟩
    cases head with
    | iteration | slot | component | condition | alternative => simp
    | property lowers =>
      cases lowers with
      | callback | value => simpa using hproperty _ _

/-- No attribute is named like the content that is passed to a component. -/
theorem LowersReadings.key_ne_slotset {isComponent : Bool} {readings : List Reading}
    {parts : List Part} (h : LowersReadings env K bound site isComponent readings parts n n') :
    ∀ e ∈ Entry.attributes Code.dict (Part.entries parts), e.1 ≠ "slotset" := by
  intro e he
  rcases List.mem_append.1 he with he | he
  · obtain ⟨entry, hentry, rfl⟩ := List.mem_map.1 he
    obtain ⟨hmem, hgroup⟩ := List.mem_filter.1 hentry
    have htop := h.key_mem_topKeys entry hmem (by simpa using hgroup)
    have hkeys : ∀ key ∈ Entry.topKeys, key ≠ "slotset" := by decide
    exact hkeys _ htop
  · obtain ⟨group, -, rfl⟩ := List.mem_map.1 he
    have hkeys : ∀ group : Group, group.key ≠ "slotset" := by
      rintro (_ | _ | _ | _) <;> decide
    exact hkeys group

/-! ## Contents -/

/-- A list of items, or an item, with whether items may be lists in their place. -/
inductive Shape where
  | item (nested : Bool)
  | list (nested : Bool)

/-- Parameters that stand for nothing of the module's own. -/
def Fresh (config : Config) (B : List Declaration) (parameters : List String) : Prop :=
  ∀ x ∈ parameters, x ∉ config.reserved ∧ x ∉ hoistedNames B

/-- Code that makes content of some shape, where the statements of the module are known. An empty
list stands for an item only under a hypothesis. -/
inductive Shaped (config : Config) (hollow : Prop) (B : List Declaration) :
    Shape → Code → Prop where
  | text {s} : Shaped config hollow B (.item false) (.text s)
  | shown {value} (plain : Plain config value) :
      Shaped config hollow B (.item false) (config.callPrimitive config.primitives.text [value])
  | empty : Shaped config hollow B (.item false) (config.callPrimitive config.primitives.empty [])
  | element {maker component attributes children}
      (makes : maker = config.primitives.element ∨ maker = config.primitives.virtualElement)
      (plain : Plain config component) (plainAttributes : ∀ e ∈ attributes, Plain config e.2)
      (shaped : Shaped config hollow B (.list false) children) :
      Shaped config hollow B (.item false)
        (config.callPrimitive maker [component, .dict attributes, children])
  | custom {path component attributes slots} {isBare : Bool} (plain : Plain config component)
      (plainAttributes : ∀ e ∈ attributes, Plain config e.2)
      (apart : ∀ e ∈ attributes, e.1 ≠ "slotset")
      (shaped : ∀ e ∈ slots, Shaped config hollow B (.list false) e.2) :
      Shaped config hollow B (.item false)
        (config.callPrimitive config.primitives.customElement [.text path, component,
          .dict (attributes ++ if isBare then [] else [("slotset", .dict slots)])])
  | choose {nested test body alternative} (plain : Plain config test)
      (shaped : Shaped config hollow B (.item nested) body)
      (shapedAlternative : Shaped config hollow B (.item nested) alternative) :
      Shaped config hollow B (.item nested) (.conditional test body alternative)
  | guarded {nested name value code} (declared : .assign name value ∈ B)
      (shaped : Shaped config hollow B (.item nested) code) :
      Shaped config hollow B (.item nested) (.and (.ref name) code)
  | outlet {key code} (shaped : Shaped config hollow B (.list false) code) :
      Shaped config hollow B (.list false)
        (.or (.call (.refMember config.slotsetParam "get") [.text key]) code)
  | row {nested codes} (shaped : ∀ c ∈ codes, Shaped config hollow B (.item nested) c) :
      Shaped config hollow B (.list nested) (.list codes)
  | flattened {code} (shaped : Shaped config hollow B (.list true) code) :
      Shaped config hollow B (.list false) (config.callPrimitive config.primitives.flatten [code])
  | inline {nested iterable place parameters body} (plain : Plain config iterable)
      (fresh : Fresh config B parameters) (shaped : Shaped config hollow B (.item nested) body) :
      Shaped config hollow B (.list nested) (config.callPrimitive config.primitives.iterator
        [iterable, .lambda place parameters body])
  | declared {nested iterable f} (plain : Plain config iterable) (declared : .define f ∈ B)
      (shaped : Shaped config hollow B (.item nested) f.result) :
      Shaped config hollow B (.list nested) (config.callPrimitive config.primitives.iterator
        [iterable, .ref f.name])
  | hollow (h : hollow) : Shaped config hollow B (.item false) (.list [])
  | loose {code} (shaped : Shaped config hollow B (.item false) code) :
      Shaped config hollow B (.item true) code
  | spread {code} (shaped : Shaped config hollow B (.list false) code) :
      Shaped config hollow B (.item true) code

/-- A statement for a condition, or for a function whose result is an item. -/
inductive Declaration.Shaped (config : Config) (hollow : Prop) (B : List Declaration) :
    Declaration → Prop where
  | assign {name test} (plain : Plain config test) :
      Shaped config hollow B (.assign name (.or test (.constant none .null)))
  | define {f nested} (fresh : Fresh config B f.parameters)
      (shaped : TemplateCompiler.Shaped config hollow B (.item nested) f.result)
      (inside : ∀ d ∈ f.declarations, Shaped config hollow B d) :
      Shaped config hollow B (.define f)

variable {hollow : Prop} {B : List Declaration}

theorem Shaped.nest {nested : Bool} {code : Code} (h : Shaped config hollow B (.item false) code) :
    Shaped config hollow B (.item nested) code := by
  cases nested with
  | false => exact h
  | true => exact h.loose

theorem Shaped.unnest {nested : Bool} {code : Code}
    (h : Shaped config hollow B (.item nested) code) :
    Shaped config hollow B (.item true) code := by
  cases nested with
  | false => exact h.loose
  | true => exact h

/-- A call of the iterator, flattened if its function gives nested items, is a list of items. -/
theorem Shaped.iterationCall {loop : Loop} {function : Code} {nested : Bool}
    (h : Shaped config hollow B (.list nested)
      (config.callPrimitive config.primitives.iterator [loop.iterable, function])) :
    Shaped config hollow B (.list false) (iterationCall config loop function nested) := by
  unfold TemplateCompiler.iterationCall
  cases nested with
  | false => exact h
  | true => exact h.flattened

/-! ## Items -/

/-- An item that comes to what it is marked as. -/
structure Item.Shaped (config : Config) (hollow : Prop) (B : List Declaration) (i : Item) :
    Prop where
  item : TemplateCompiler.Shaped config hollow B (.item i.nested) i.code
  iterated : i.iteration → i.nested ∧ TemplateCompiler.Shaped config hollow B (.list false) i.code

namespace Item.Shaped

/-- An item that is no call of the iterator. -/
theorem ofItem {code : Code} {nested : Bool} {slot : Option String}
    (h : TemplateCompiler.Shaped config hollow B (.item nested) code) :
    Item.Shaped config hollow B { code, nested, slot } :=
  ⟨h, nofun⟩

theorem ofIteration {code : Code} {slot : Option String}
    (h : TemplateCompiler.Shaped config hollow B (.list false) code) :
    Item.Shaped config hollow B { code, nested := true, iteration := true, slot } :=
  ⟨h.spread, fun _ => ⟨rfl, h⟩⟩

theorem mayBeList {i : Item} (h : Item.Shaped config hollow B i) :
    TemplateCompiler.Shaped config hollow B (.item i.mayBeList) i.code := by
  unfold Item.mayBeList
  by_cases hi : i.iteration
  · rw [hi, Bool.or_true]
    exact (h.iterated hi).2.spread
  · rw [Bool.eq_false_iff.2 hi, Bool.or_false]
    exact h.item

theorem inSlot {i : Item} (h : Item.Shaped config hollow B i) (slot : Option String) :
    Item.Shaped config hollow B (i.inSlot slot) :=
  ⟨h.item, h.iterated⟩

end Item.Shaped

/-- Items are assembled as a list of items that are no lists. -/
theorem shaped_assemble {items : List Item}
    (h : ∀ i ∈ items, i.Shaped config hollow B) :
    Shaped config hollow B (.list false) (Item.assemble config items) := by
  have hflattened : Shaped config hollow B (.list false)
      (config.callPrimitive config.primitives.flatten [.list (items.map Item.code)]) :=
    .flattened (.row (List.forall_mem_map.2 fun i hi => (h i hi).item.unnest))
  have hlist (hsingle : ∀ i ∈ items, i.nested = false) :
      Shaped config hollow B (.list false) (.list (items.map Item.code)) := by
    refine .row (List.forall_mem_map.2 fun i hi => ?_)
    rw [← hsingle i hi]
    exact (h i hi).item
  have hnested : (items.any fun i => i.nested && !i.iteration) = false →
      items.any Item.iteration = false → ∀ i ∈ items, i.nested = false := by
    intro hflattens hiterates i hi
    have hf := List.any_eq_false.1 hflattens i hi
    have hg := List.any_eq_false.1 hiterates i hi
    simpa [Bool.eq_false_iff.2 hg] using hf
  unfold Item.assemble
  split
  · simp only
    split
    · exact hflattened
    · split
      · rename_i hi
        exact ((h _ List.mem_cons_self).iterated (by simpa using hi)).2
      · rename_i hf hi
        exact hlist (hnested (by simpa using hf) (by simpa using hi))
  · simp only
    split
    · exact hflattened
    · rename_i hor
      rw [Bool.or_eq_true, not_or] at hor
      exact hlist (hnested (Bool.eq_false_iff.2 hor.1) (Bool.eq_false_iff.2 hor.2))

theorem shaped_slots {items : List Item} (h : ∀ i ∈ items, i.Shaped config hollow B) :
    ∀ e ∈ Item.slots config items, Shaped config hollow B (.list false) e.2 := by
  intro e he
  obtain ⟨slot, -, rfl⟩ := List.mem_map.1 he
  exact shaped_assemble fun i hi => h i (List.mem_filter.1 hi).1

/-- What a template repeats is a list only if it is marked as one, unless there is nothing in it. -/
theorem shaped_iteratedBody {items : List Item} (h : ∀ i ∈ items, i.Shaped config hollow B)
    (hhollow : items = [] → hollow) :
    Shaped config hollow B (.item (CompileM.iteratedBody config items).2)
      (CompileM.iteratedBody config items).1 := by
  unfold CompileM.iteratedBody
  split
  · exact (h _ List.mem_cons_self).mayBeList
  · by_cases hitems : items = []
    · subst hitems
      exact .hollow (hhollow rfl)
    · rw [List.isEmpty_eq_false_iff.2 hitems]
      exact (shaped_assemble h).spread

theorem shaped_choose {test body : Code} {alternative : Option Item} {nested : Bool}
    (htest : Plain config test) (hbody : Shaped config hollow B (.item nested) body)
    (halternative : ∀ i ∈ alternative, Shaped config hollow B (.item nested) i.code) :
    Shaped config hollow B (.item nested) (Sibling.choose config test body alternative) := by
  unfold Sibling.choose
  refine .choose htest hbody ?_
  rcases alternative with _ | i
  · exact Shaped.empty.nest
  · exact halternative i rfl

/-! ## Statements -/

mutual

/-- A statement and the statements inside of it. -/
def Declaration.all : Declaration → List Declaration
  | .assign name value => [.assign name value]
  | .define f => .define f :: f.inner

def Function.inner : Function → List Declaration
  | ⟨_, _, _, ds, _⟩ => allDeclarations ds

def allDeclarations : List Declaration → List Declaration
  | [] => []
  | d :: rest => d.all ++ allDeclarations rest

end

theorem Function.inner_eq (f : Function) : f.inner = allDeclarations f.declarations := by
  cases f
  rw [Function.inner]

theorem allDeclarations_append : ∀ ds ds' : List Declaration,
    allDeclarations (ds ++ ds') = allDeclarations ds ++ allDeclarations ds'
  | [], _ => rfl
  | d :: ds, ds' => by
    rw [List.cons_append, allDeclarations, allDeclarations, allDeclarations_append,
      List.append_assoc]

theorem subset_allDeclarations (ds : List Declaration) : ds ⊆ allDeclarations ds := by
  induction ds with
  | nil => exact List.Subset.refl _
  | cons d rest ih =>
    have hd : d ∈ d.all := by
      cases d <;> rw [Declaration.all] <;> exact List.mem_cons_self
    rw [allDeclarations]
    exact List.cons_subset.2 ⟨List.mem_append_left _ hd,
      List.Subset.trans ih (List.subset_append_right _ _)⟩

mutual

/-- What is inside of a function that a statement holds is held by the statement too. -/
theorem Declaration.inner_subset_all : ∀ (d : Declaration) {f : Function}, .define f ∈ d.all →
    f.inner ⊆ d.all
  | .assign _ _, _, h => by simp [Declaration.all] at h
  | .define g, f, h => by
    rw [Declaration.all] at h ⊢
    rcases List.mem_cons.1 h with heq | h
    · rw [Declaration.define.inj heq]
      exact List.subset_cons_self _ _
    · exact List.subset_cons_of_subset _ (Function.inner_subset_inner g h)

theorem Function.inner_subset_inner : ∀ (g : Function) {f : Function}, .define f ∈ g.inner →
    f.inner ⊆ g.inner
  | ⟨_, _, _, ds, _⟩, _, h => by
    rw [Function.inner] at h ⊢
    exact inner_subset_allDeclarations ds h

theorem inner_subset_allDeclarations : ∀ (ds : List Declaration) {f : Function},
    .define f ∈ allDeclarations ds → f.inner ⊆ allDeclarations ds
  | [], _, h => by simp [allDeclarations] at h
  | d :: rest, _, h => by
    rw [allDeclarations] at h ⊢
    rcases List.mem_append.1 h with h | h
    · exact List.subset_append_of_subset_left _ (Declaration.inner_subset_all d h)
    · exact List.subset_append_of_subset_right _ (inner_subset_allDeclarations rest h)

end

theorem mem_allDeclarations {d : Declaration} {ds : List Declaration} :
    d ∈ allDeclarations ds ↔ ∃ outer ∈ ds, d ∈ outer.all := by
  induction ds with
  | nil => simp [allDeclarations]
  | cons first rest ih => simp [allDeclarations, ih]

section

variable {P : Declaration → Prop}

mutual

/-- What a function passes on to its statements is passed on to all that a statement holds. -/
theorem Declaration.forall_mem_all
    (hP : ∀ f : Function, P (.define f) → ∀ d ∈ f.declarations, P d) :
    ∀ d : Declaration, P d → ∀ d' ∈ d.all, P d'
  | .assign _ _, h => by
    rw [Declaration.all]
    exact List.forall_mem_singleton.2 h
  | .define f, h => by
    rw [Declaration.all]
    exact List.forall_mem_cons.2 ⟨h, Function.forall_mem_inner hP f (hP f h)⟩

theorem Function.forall_mem_inner
    (hP : ∀ f : Function, P (.define f) → ∀ d ∈ f.declarations, P d) :
    ∀ f : Function, (∀ d ∈ f.declarations, P d) → ∀ d ∈ f.inner, P d
  | ⟨_, _, _, ds, _⟩, h => by
    rw [Function.inner]
    exact forall_mem_allDeclarations hP ds h

theorem forall_mem_allDeclarations
    (hP : ∀ f : Function, P (.define f) → ∀ d ∈ f.declarations, P d) :
    ∀ ds : List Declaration, (∀ d ∈ ds, P d) → ∀ d ∈ allDeclarations ds, P d
  | [], h => h
  | d :: rest, h => by
    rw [List.forall_mem_cons] at h
    rw [allDeclarations, List.forall_mem_append]
    exact ⟨Declaration.forall_mem_all hP d h.1, forall_mem_allDeclarations hP rest h.2⟩

end

end

/-- The statements inside of one have their shapes too. -/
theorem Declaration.Shaped.of_mem_all {d : Declaration} (h : d.Shaped config hollow B) :
    ∀ d' ∈ d.all, d'.Shaped config hollow B := by
  refine Declaration.forall_mem_all (fun f hf => ?_) d h
  cases hf with
  | define _ _ inside => exact inside

mutual

theorem Declaration.hoistedNames_all : ∀ d : Declaration,
    hoistedNames d.all = d.hoistings.map Mention.name
  | .assign _ _ => rfl
  | .define f => by
    rw [Declaration.all, Declaration.hoistings, hoistedNames, List.map_cons, ← hoistedNames,
      Function.hoistedNames_inner f]
    rfl

theorem Function.hoistedNames_inner : ∀ f : Function,
    hoistedNames f.inner = f.hoistings.map Mention.name
  | ⟨_, _, _, ds, _⟩ => by
    rw [Function.inner, Function.map_name_hoistings]
    exact hoistedNames_allDeclarations ds

/-- The names of all statements are those that are bound. -/
theorem hoistedNames_allDeclarations : ∀ ds : List Declaration,
    hoistedNames (allDeclarations ds) = boundNames ds
  | [] => rfl
  | d :: rest => by
    rw [allDeclarations, hoistedNames_append, Declaration.hoistedNames_all d,
      hoistedNames_allDeclarations rest, boundNames, boundNames, statementHoistings,
      List.map_append]

end

/-! ## Siblings -/

/-- A sibling whose code is of the shape that it is finished as. What waits with it is known once
its statements are. -/
def Sibling.Shaped (config : Config) (hollow : Prop) (B : List Declaration) (s : Sibling) : Prop :=
  match s.form with
  | .fixed => s.item.Shaped config hollow B
  | .spliced items => s.item.Shaped config hollow B ∧ ∀ i ∈ items, i.Shaped config hollow B
  | .guarded test => Plain config test ∧
      TemplateCompiler.Shaped config hollow B (.item false) s.item.code ∧ s.item.nested = false
  | .repeated loop ds condition =>
    Plain config loop.iterable ∧ Fresh config B loop.parameters ∧ (allDeclarations ds ⊆ B →
      (∀ d ∈ ds, d.Shaped config hollow B) ∧
      TemplateCompiler.Shaped config hollow B (.item false) s.item.code ∧
      ∀ test ∈ condition, Plain config test)

theorem Iterates.shaped {loop : Loop} {body code : Code} {nested : Bool}
    {ds outer : List Declaration} (h : Iterates config loop body nested ds code outer n n')
    (hiterable : Plain config loop.iterable) (hfresh : Fresh config B loop.parameters)
    (hB : allDeclarations outer ⊆ B)
    (hinner : allDeclarations ds ⊆ B → (∀ d ∈ ds, d.Shaped config hollow B) ∧
      Shaped config hollow B (.item nested) body) :
    (∀ d ∈ outer, d.Shaped config hollow B) ∧ Shaped config hollow B (.list false) code := by
  cases h with
  | inline =>
    obtain ⟨-, hbody⟩ := hinner (List.nil_subset _)
    exact ⟨by simp, Shaped.iterationCall (.inline hiterable hfresh hbody)⟩
  | declared =>
    let f : Function := ⟨n.loop, loop.place, loop.parameters, ds, body⟩
    have hf : .define f ∈ B := hB List.mem_cons_self
    obtain ⟨hds, hbody⟩ := hinner fun d hd =>
      hB (List.mem_cons_of_mem _ (List.mem_append_left _ hd))
    refine ⟨List.forall_mem_singleton.2 (.define (f := f) hfresh hbody hds), ?_⟩
    exact Shaped.iterationCall (.declared (f := f) hiterable hf hbody)

theorem FinishesSibling.shaped {s : Sibling} {alternative : Option Item} {item : Item}
    {ds : List Declaration} (h : FinishesSibling config s alternative item ds n n')
    (hB : allDeclarations ds ⊆ B) (hs : s.Shaped config hollow B)
    (halternative : ∀ i ∈ alternative, i.Shaped config hollow B) :
    (∀ d ∈ ds, d.Shaped config hollow B) ∧ item.Shaped config hollow B := by
  unfold Sibling.Shaped at hs
  cases h with
  | fixed form =>
    rw [form] at hs
    exact ⟨by simp, hs⟩
  | spliced form =>
    rw [form] at hs
    exact ⟨by simp, hs.1⟩
  | guarded form =>
    rw [form] at hs
    obtain ⟨htest, hcode, hnested⟩ := hs
    rw [hnested, Bool.false_or]
    refine ⟨by simp, .ofItem (shaped_choose htest hcode.nest fun i hi => ?_)⟩
    have hitem := (halternative i hi).item
    rwa [Option.mem_def.1 hi]
  | repeated form iterates =>
    rw [form] at hs
    obtain ⟨hiterable, hfresh, hinner⟩ := hs
    obtain ⟨hds, hcode⟩ := iterates.shaped hiterable hfresh hB fun hin =>
      ⟨(hinner hin).1, (hinner hin).2.1⟩
    exact ⟨hds, .ofIteration hcode⟩
  | filtered form iterates =>
    rw [form] at hs
    obtain ⟨hiterable, hfresh, hinner⟩ := hs
    obtain ⟨hds, hcode⟩ := iterates.shaped hiterable hfresh hB fun hin => by
      obtain ⟨hds, hcode, htest⟩ := hinner hin
      refine ⟨hds, shaped_choose (htest _ rfl) hcode.nest fun i hi => ?_⟩
      have hitem := (halternative i hi).mayBeList
      rwa [Option.mem_def.1 hi]
    exact ⟨hds, .ofIteration hcode⟩

theorem FinishesBranches.shaped {siblings : List Sibling} {item : Option Item}
    {ds : List Declaration} (h : FinishesBranches config siblings item ds n n') :
    allDeclarations ds ⊆ B → (∀ s ∈ siblings, s.Shaped config hollow B) →
      (∀ d ∈ ds, d.Shaped config hollow B) ∧ ∀ i ∈ item, i.Shaped config hollow B := by
  induction h with
  | nil => exact fun _ _ => ⟨by simp, by simp⟩
  | cons _ head ih =>
    intro hB hs
    rw [allDeclarations_append, List.append_subset] at hB
    rw [List.forall_mem_cons] at hs
    obtain ⟨hds, halternative⟩ := ih hB.1 hs.2
    obtain ⟨hds', hitem⟩ := head.shaped hB.2 hs.1 halternative
    refine ⟨List.forall_mem_append.2 ⟨hds, hds'⟩, ?_⟩
    rintro i hi
    exact Option.some.inj hi ▸ hitem

theorem FinishesChain.shaped {chain : List Sibling} {items : List Item} {ds : List Declaration}
    (h : FinishesChain config chain items ds n n') (hB : allDeclarations ds ⊆ B)
    (hs : ∀ s ∈ chain, s.Shaped config hollow B) :
    (∀ d ∈ ds, d.Shaped config hollow B) ∧ ∀ i ∈ items, i.Shaped config hollow B := by
  cases h with
  | nil => exact ⟨by simp, by simp⟩
  | spliced _ form =>
    have hhead := hs _ List.mem_cons_self
    rw [Sibling.Shaped, form] at hhead
    exact ⟨by simp, List.forall_mem_map.2 fun i hi => (hhead.2 i hi).inSlot _⟩
  | branches _ _ branches =>
    obtain ⟨hds, hitem⟩ := branches.shaped hB hs
    exact ⟨hds, List.forall_mem_singleton.2 (hitem _ rfl)⟩

theorem FinishesChains.shaped {chains : List (List Sibling)} {items : List Item}
    {ds : List Declaration} (h : FinishesChains config chains items ds n n') :
    allDeclarations ds ⊆ B → (∀ s ∈ chains.flatten, s.Shaped config hollow B) →
      (∀ d ∈ ds, d.Shaped config hollow B) ∧ ∀ i ∈ items, i.Shaped config hollow B := by
  induction h with
  | nil => exact fun _ _ => ⟨by simp, by simp⟩
  | cons head _ ih =>
    intro hB hs
    rw [allDeclarations_append, List.append_subset] at hB
    rw [List.flatten_cons, List.forall_mem_append] at hs
    obtain ⟨hds, hitems⟩ := head.shaped hB.1 hs.1
    obtain ⟨hds', hmore⟩ := ih hB.2 hs.2
    exact ⟨List.forall_mem_append.2 ⟨hds, hds'⟩, List.forall_mem_append.2 ⟨hitems, hmore⟩⟩

/-! ## Elements -/

theorem GuardsItems.shaped {condition : Option Code} {items kept : List Item}
    {ds : List Declaration} (h : GuardsItems condition items kept ds n n')
    (hB : allDeclarations ds ⊆ B) (htest : ∀ test ∈ condition, Plain config test)
    (hitems : ∀ i ∈ items, i.Shaped config hollow B) :
    (∀ d ∈ ds, d.Shaped config hollow B) ∧ ∀ i ∈ kept, i.Shaped config hollow B := by
  cases h with
  | unconditional => exact ⟨by simp, hitems⟩
  | nothing => exact ⟨by simp, by simp⟩
  | guarded =>
    refine ⟨List.forall_mem_singleton.2 (.assign (htest _ rfl)), ?_⟩
    refine List.forall_mem_map.2 fun i hi => ?_
    exact .ofItem (.guarded (hB List.mem_cons_self) (hitems i hi).mayBeList)

theorem CallsElement.shaped {tag : Tag} {written : Option Content} {parts : List Part}
    {items : List Item} {kind : ElementKind} {code : Code}
    (h : CallsElement config K tag written parts items kind code)
    (hparts : PartsAll (Plain config) parts)
    (hkeys : ∀ e ∈ Entry.attributes Code.dict (Part.entries parts), e.1 ≠ "slotset")
    (hitems : ∀ i ∈ items, i.Shaped config hollow B) :
    Shaped config hollow B (.item false) code := by
  have hassemble := shaped_assemble hitems
  have hattributes := hparts.attributes .dict
  cases h with
  | virtual | named => exact .element (.inr rfl) .ref hattributes hassemble
  | computed _ _ component =>
    exact .element (.inr rfl) (hparts.component component) hattributes hassemble
  | custom => exact .custom .ref hattributes hkeys (shaped_slots hitems)
  | plain => exact .element (.inl rfl) .constant hattributes hassemble

theorem SealsElement.shaped {pos : Position} {tag : Tag} {readings : List Reading}
    {parts : List Part} {items : List Item} {ds outer : List Declaration} {kind : ElementKind}
    {loop : Option Loop} {sibling : Sibling}
    (h : SealsElement config K pos tag readings parts items ds kind loop sibling outer n n')
    (hB : allDeclarations outer ⊆ B) (hparts : PartsAll (Plain config) parts)
    (hkeys : ∀ e ∈ Entry.attributes Code.dict (Part.entries parts), e.1 ≠ "slotset")
    (hloop : ∀ l ∈ loop, Plain config l.iterable ∧ Fresh config B l.parameters)
    (hhollow : kind = .template → loop.isSome → items = [] → hollow)
    (hinner : allDeclarations ds ⊆ B →
      (∀ d ∈ ds, d.Shaped config hollow B) ∧ ∀ i ∈ items, i.Shaped config hollow B) :
    (∀ d ∈ outer, d.Shaped config hollow B) ∧ sibling.Shaped config hollow B := by
  have htest : ∀ test ∈ Part.condition? parts, Plain config test := fun _ h => hparts.condition h
  cases h with
  | spliced guarded =>
    rw [allDeclarations_append, List.append_subset] at hB
    obtain ⟨hds, hitems⟩ := hinner hB.1
    obtain ⟨hguards, hkept⟩ := guarded.shaped hB.2 htest hitems
    exact ⟨List.forall_mem_append.2 ⟨hds, hguards⟩,
      .ofItem (shaped_assemble hkept).spread, hkept⟩
  | iterated guarded iterates =>
    obtain ⟨hiterable, hfresh⟩ := hloop _ rfl
    obtain ⟨hds, hcode⟩ := iterates.shaped hiterable hfresh hB fun hin => by
      rw [allDeclarations_append, List.append_subset] at hin
      obtain ⟨hds, hitems⟩ := hinner hin.1
      obtain ⟨hguards, hkept⟩ := guarded.shaped hin.2 htest hitems
      refine ⟨List.forall_mem_append.2 ⟨hds, hguards⟩, shaped_iteratedBody hkept ?_⟩
      exact fun hnil => hhollow rfl rfl (guarded.eq_nil_iff.1 hnil)
    exact ⟨hds, .ofIteration hcode⟩
  | outlet =>
    obtain ⟨hds, hitems⟩ := hinner hB
    exact ⟨hds, .ofItem (Shaped.outlet (shaped_assemble hitems)).spread⟩
  | fixed _ calls =>
    obtain ⟨hds, hitems⟩ := hinner hB
    exact ⟨hds, .ofItem (calls.shaped hparts hkeys hitems)⟩
  | guarded condition calls =>
    obtain ⟨hds, hitems⟩ := hinner hB
    exact ⟨hds, htest _ condition, calls.shaped hparts hkeys hitems, rfl⟩
  | repeated calls =>
    obtain ⟨hiterable, hfresh⟩ := hloop _ rfl
    refine ⟨by simp, hiterable, hfresh, fun hin => ?_⟩
    obtain ⟨hds, hitems⟩ := hinner hin
    exact ⟨hds, calls.shaped hparts hkeys hitems, htest⟩

/-! ## Nodes -/

/-- Whether a node is a template that repeats and contributes nothing. -/
def Node.repeatsNothing : Node → Bool
  | .element _ tag attributes children =>
    tag == ⟨none, "template"⟩ && attributes.any Attribute.iterates && allVoid children
  | .text .. | .placeholder .. | .fragment .. | .literal .. | .attr _ | .template .. => false

def Template.RepeatsNothing (t : Template) : Prop :=
  ∃ e ∈ t.elements, e.repeatsNothing

/-- No element repeats for a name that one of some statements binds. -/
def Template.Spares (config : Config) (t : Template) (names : List String) : Prop :=
  ∀ e ∈ t.elements, ∀ x ∈ Reading.parameters (e.readings config), x ∉ names

instance (t : Template) : Decidable t.RepeatsNothing :=
  inferInstanceAs (Decidable (∃ e ∈ t.elements, e.repeatsNothing))

instance (config : Config) (t : Template) (names : List String) :
    Decidable (t.Spares config names) :=
  inferInstanceAs
    (Decidable (∀ e ∈ t.elements, ∀ x ∈ Reading.parameters (e.readings config), x ∉ names))

theorem Template.Spares.binderAt {t : Template} {names : List String} (h : t.Spares config names)
    (place : Place) : ∀ x ∈ (t.binderAt config place).parameters, x ∉ names := by
  intro x hx
  have hnone : Reading.parameters [] = [] := rfl
  rw [Template.binderAt, Template.readingsAt] at hx
  rcases hnode : t.elementAt? place with _ | node
  · simp [hnode, hnone] at hx
  · rw [hnode, Option.map_some, Option.getD_some] at hx
    cases node with
    | element => exact h _ (Template.mem_elements hnode) x hx
    | _ => simp [Node.readings, hnone] at hx

variable {t : Template}

theorem LowersElement.shaped {binders : List Binder} {place : Place} {pos : Position} {tag : Tag}
    {attributes : List Attribute} {children : List Node} {sibling : Sibling}
    {ds : List Declaration}
    (h : LowersElement env K binders place pos tag attributes children sibling ds n n')
    (hB : allDeclarations ds ⊆ B) (hspares : t.Spares env.config (hoistedNames B))
    (ht : t.elementAt? place = some (.element pos tag attributes children))
    (hchildren : ∀ {binders siblings ds n n'},
      LowersNodes env K binders place 0 children siblings ds n n' → allDeclarations ds ⊆ B →
      t.Shows place 0 (elementsOf children) →
      (∀ d ∈ ds, d.Shaped env.config t.RepeatsNothing B) ∧
        ∀ s ∈ siblings, s.Shaped env.config t.RepeatsNothing B) :
    (∀ d ∈ ds, d.Shaped env.config t.RepeatsNothing B) ∧
      sibling.Shaped env.config t.RepeatsNothing B := by
  cases h with
  | @mk _ _ _ _ _ _ readings loop _ siblings items _ _ _ _ _ _ _ _ _ reads opens lowersReadings
      lowersChildren finishes seals =>
    have hread := Template.readingsAt_element ht reads
    have hloop : ∀ l ∈ loop, Plain env.config l.iterable ∧ Fresh env.config B l.parameters := by
      rintro l rfl
      have hbinder : l.parameters = (t.binderAt env.config place).parameters :=
        congrArg Binder.parameters (opens.binder_eq hread)
      refine ⟨opens.plain_iterable l rfl, ?_⟩
      rw [hbinder]
      exact fun x hx => ⟨t.notMem_reserved hx, hspares.binderAt place x hx⟩
    have hitems : items = [] ↔ allVoid children := by
      rw [finishes.eq_nil_iff fun _ => List.isChain_of_mem_splitBy, Sibling.chains,
        List.flatten_splitBy]
      exact LowersNodes.isVoid_iff lowersChildren
    refine seals.shaped hB (lowersReadings.all plain_attributive) lowersReadings.key_ne_slotset
      hloop ?_ fun hin => ?_
    · intro hkind hrepeats hnil
      obtain rfl := elementKind_eq_template_iff.1 hkind
      refine ⟨_, Template.mem_elements ht, ?_⟩
      have hiterates : attributes.any Attribute.iterates := by
        by_contra honce
        rw [(opens.eq_none_iff reads).2 (by simpa using honce)] at hrepeats
        simp at hrepeats
      simp [Node.repeatsNothing, hiterates, hitems.1 hnil]
    · rw [allDeclarations_append, List.append_subset] at hin
      obtain ⟨hds, hsiblings⟩ := hchildren lowersChildren hin.1 (Template.shows_children ht)
      obtain ⟨hds', hitems⟩ := finishes.shaped hin.2 (by
        rwa [Sibling.chains, List.flatten_splitBy])
      exact ⟨List.forall_mem_append.2 ⟨hds, hds'⟩, hitems⟩

mutual

theorem LowersNode.shaped :
    ∀ {node : Node} {binders around before siblings ds n n'},
      LowersNode env K binders around before node siblings ds n n' → allDeclarations ds ⊆ B →
      t.Spares env.config (hoistedNames B) → t.Shows around before node.elements →
      (∀ d ∈ ds, d.Shaped env.config t.RepeatsNothing B) ∧
        ∀ s ∈ siblings, s.Shaped env.config t.RepeatsNothing B
  | .text .., _, _, _, _, _, _, _, h, _, _, _ => by
    cases h with
    | blank => exact ⟨by simp, by simp⟩
    | text => exact ⟨by simp, List.forall_mem_singleton.2 (Item.Shaped.ofItem .text)⟩
  | .placeholder .., _, _, _, _, _, _, _, h, _, _, _ => by
    cases h with
    | nothing => exact ⟨by simp, by simp⟩
    | placeholder =>
      exact ⟨by simp, List.forall_mem_singleton.2 (Item.Shaped.ofItem (.shown (plain_qualify _)))⟩
  | .fragment _ children, _, _, _, _, _, _, _, h, hB, hspares, ht => by
    cases h with
    | fragment lowersChildren => exact LowersNodes.shaped lowersChildren hB hspares ht
  | .element _ _ _ children, _, _, _, _, _, _, _, h, hB, hspares, ht => by
    cases h with
    | element lowers =>
      rw [List.forall_mem_singleton]
      exact lowers.shaped hB hspares (ht 0 _ rfl) fun h hB ht => LowersNodes.shaped h hB hspares ht
  | .literal .., _, _, _, _, _, _, _, h, _, _, _ => nomatch h
  | .attr .., _, _, _, _, _, _, _, h, _, _, _ => nomatch h
  | .template .., _, _, _, _, _, _, _, h, _, _, _ => nomatch h

theorem LowersNodes.shaped :
    ∀ {nodes : List Node} {binders around before siblings ds n n'},
      LowersNodes env K binders around before nodes siblings ds n n' → allDeclarations ds ⊆ B →
      t.Spares env.config (hoistedNames B) → t.Shows around before (elementsOf nodes) →
      (∀ d ∈ ds, d.Shaped env.config t.RepeatsNothing B) ∧
        ∀ s ∈ siblings, s.Shaped env.config t.RepeatsNothing B
  | [], _, _, _, _, _, _, _, h, _, _, _ => by
    cases h
    exact ⟨by simp, by simp⟩
  | node :: rest, _, _, _, _, _, _, _, h, hB, hspares, ht => by
    cases h with
    | cons head tail =>
      rw [elementsOf] at ht
      rw [allDeclarations_append, List.append_subset] at hB
      obtain ⟨hds, hhead⟩ := LowersNode.shaped head hB.1 hspares ht.left
      obtain ⟨hds', htail⟩ := LowersNodes.shaped tail hB.2 hspares ht.right
      exact ⟨List.forall_mem_append.2 ⟨hds, hds'⟩, List.forall_mem_append.2 ⟨hhead, htail⟩⟩

end

/-! ## Units -/

/-- A template is no call, and so what it comes to is a list of items. -/
theorem SealsElement.shaped_code {pos : Position} {tag : Tag} {readings : List Reading}
    {parts : List Part} {items : List Item} {ds outer : List Declaration} {loop : Option Loop}
    {sibling : Sibling}
    (h : SealsElement config K pos tag readings parts items ds .template loop sibling outer n n')
    (hs : sibling.Shaped config hollow B) :
    Shaped config hollow B (.list false) sibling.item.code := by
  cases h with
  | spliced => exact shaped_assemble hs.2
  | iterated => exact (hs.iterated rfl).2
  | fixed _ calls | guarded _ calls | repeated calls => nomatch calls

/-- The statements of a unit, those inside of others too, and its result have their shapes, if no
element repeats for a name of theirs. -/
theorem Compiles.shaped {compiled : Compiled} {sibling : Sibling} {ds : List Declaration}
    (h : Compiles env t compiled K sibling ds n) (hspares : t.Spares env.config (boundNames ds)) :
    (∀ d ∈ ds, d.Shaped env.config t.RepeatsNothing (allDeclarations ds)) ∧
      Shaped env.config t.RepeatsNothing (allDeclarations ds) (.list false) sibling.item.code := by
  obtain ⟨pos, attributes, children, hroot, hl⟩ := h.root
  have ht : t.elementAt? [] = some (.element pos ⟨none, "template"⟩ attributes children) := by
    simp [Template.elementAt?, hroot]
  rw [← hoistedNames_allDeclarations] at hspares
  obtain ⟨hds, hs⟩ := hl.shaped (List.Subset.refl _) hspares ht fun h hB ht =>
    LowersNodes.shaped h hB hspares ht
  refine ⟨hds, ?_⟩
  cases hl with
  | mk _ _ _ _ _ seals => exact seals.shaped_code hs

end TemplateCompiler
