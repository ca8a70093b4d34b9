import TemplateCompiler.Proofs.Interpreter

/-!
# The values of generated code

Where the names of a module stand for what they are taken for, the code of an attribute, of an
element and of a list of children comes to what the markup renders there. A list of children is
flattened only where an item is nested; the others are no lists, so flattening would change nothing.
-/

namespace TemplateCompiler

variable {α : Type} {host : Host α} {ρ : Locals α}

namespace Code

@[simp]
theorem eval_text (s : String) : (text s).eval host ρ = some (.constant (.text s)) := rfl

theorem evalList_eq_mapM (codes : List Code) :
    evalList host ρ codes = codes.mapM (eval host ρ) := by
  induction codes with
  | nil => rfl
  | cons code rest ih => simp [evalList, ih]

theorem evalEntries_eq_mapM (entries : List (String × Code)) :
    evalEntries host ρ entries = entries.mapM fun e => (e.2.eval host ρ).map (e.1, ·) := by
  induction entries with
  | nil => rfl
  | cons entry rest ih =>
    obtain ⟨key, code⟩ := entry
    cases h : code.eval host ρ <;> simp [evalEntries, ih, h]

end Code

/-- The names of a module stand for what they are taken for. -/
structure Provides (host : Host α) (config : Config) (K : Context) (ρ : Locals α) : Prop where
  primitives : config.primitives = {}
  interface : ρ.find config.apiParam = some (.service .interface)
  inst : ρ.find config.instanceParam = some host.inst
  slots : ρ.find config.slotsetParam = some (.service .slots)
  memo : ρ.find config.contextParam = some (.service .memo)
  helper : K.bindsCallbacks → ρ.find config.bindHelper = some .methodType
  component : ∀ path localName, Imported K path localName →
    ρ.find localName = some (.component path)

variable {env : Env} {config : Config} {K : Context} {n n' : Numbering}

theorem Provides.eval_callPrimitive (h : Provides host config K ρ) (name : String)
    (arguments : List Code) : (config.callPrimitive name arguments).eval host ρ =
      (Code.evalList host ρ arguments).bind (host.callPrimitive name) := by
  simp [Config.callPrimitive, Config.primitive, Code.refMember, Code.eval, h.interface]

/-! ## Contents -/

theorem Expr.eval_qualify (h : ρ.find config.instanceParam = some host.inst) (site : Site) :
    ∀ e : Expr, (e.qualify config.instanceParam site (binds [])).eval host ρ = e.render host
  | .name _ id => by simp [qualify, binds, Code.refMember, Code.eval, h, render]
  | .member _ value _ => by simp [qualify, Code.eval, eval_qualify h site value, render]
  | .index _ value key => by
    simp [qualify, Code.eval, eval_qualify h site value, eval_qualify h site key, render]
  | .constant .. => rfl
  | .foreign .. => rfl

theorem Provides.eval_shown (h : Provides host config K ρ) (site : Site) (e : Expr) :
    (config.callPrimitive config.primitives.text
      [e.qualify config.instanceParam site (binds [])]).eval host ρ =
      (e.render host).bind fun v => host.callPrimitive "t" [v] := by
  rw [h.eval_callPrimitive, h.primitives]
  simp [Code.evalList, e.eval_qualify h.inst, Option.bind_assoc]

namespace Term

theorem eval_code (h : ρ.find config.instanceParam = some host.inst) (site : Site) (t : Term) :
    (t.code config site (binds [])).eval host ρ = t.render host := by
  cases t with
  | constant => rfl
  | expression e => exact e.eval_qualify h site
  | dashed => simp [code, Code.eval, h, render]

theorem text?_code (config : Config) (site : Site) (t : Term) :
    (t.code config site (binds [])).text? = t.text? := by
  cases t with
  | constant | dashed => rfl
  | expression e =>
    cases e with
    | name => simp [code, Expr.qualify, binds, Code.refMember, Code.text?, text?]
    | _ => rfl

/-- A term's code is a member of the instance if the term is a name, and then it is bound. -/
theorem isMethodOf_code (config : Config) (site : Site) (t : Term) :
    ((∃ span id, t = .expression (.name span id)) ∧
      (t.code config site (binds [])).isMethodOf config.instanceParam) ∨
    ((∀ span id, t ≠ .expression (.name span id)) ∧
      (t.code config site (binds [])).isMethodOf config.instanceParam = false) := by
  cases t with
  | constant | dashed => simp [code, Code.isMethodOf]
  | expression e =>
    cases e with
    | name => simp [code, Expr.qualify, binds, Code.refMember, Code.isMethodOf]
    | member span value id =>
      cases value <;> simp [code, Expr.qualify, binds, Code.refMember, Code.isMethodOf]
    | index | constant | foreign => simp [code, Expr.qualify, Code.isMethodOf]

theorem renderCallback_of_ne {t : Term} (h : ∀ span id, t ≠ .expression (.name span id)) :
    t.renderCallback host = (t.render host).bind fun v => some (.made "_bind" [v, host.inst]) := by
  cases t with
  | constant | dashed => rfl
  | expression e =>
    cases e with
    | name span id => exact absurd rfl (h span id)
    | _ => rfl

theorem eval_boundCode (h : Provides host config K ρ) (site : Site) (t : Term)
    (hhelper : (t.code config site (binds [])).isMethodOf config.instanceParam = false →
      K.bindsCallbacks) :
    (boundCode config (t.code config site (binds []))).eval host ρ = t.renderCallback host := by
  have hcode := t.eval_code h.inst site
  rcases t.isMethodOf_code config site with ⟨⟨span, id, rfl⟩, hm⟩ | ⟨hne, hm⟩
  · rw [boundCode, if_pos hm, hcode]
    rfl
  · rw [boundCode, hm, renderCallback_of_ne hne]
    simp [Code.eval, Code.evalList, hcode, h.inst, h.helper (hhelper hm), Option.bind_assoc]

theorem text?_boundCode (site : Site) (t : Term) :
    (boundCode config (t.code config site (binds []))).text? = none := by
  rcases t.isMethodOf_code config site with ⟨⟨span, id, rfl⟩, hm⟩ | ⟨-, hm⟩
  · rw [boundCode, if_pos hm]
    simp [code, Expr.qualify, binds, Code.refMember, Code.text?]
  · rw [boundCode, hm]
    rfl

end Term

/-! ## Attributes -/

/-- A lookup in the memo misses, and what is put in comes back. -/
theorem Provides.eval_memoized (h : Provides host env.config K ρ) (key : String) (value : Code) :
    (CompileM.memoized env key value).eval host ρ = value.eval host ρ := by
  simp [CompileM.memoized, Code.refMember, Code.eval, Code.evalList, h.memo, host.null_falsy,
    Option.bind_assoc]

theorem BindsCallback.eval {term : Term} {site : Site} {code : Code}
    (h : BindsCallback env K (binds []) (term.code env.config site (binds [])) code n n')
    (hρ : Provides host env.config K ρ) :
    code.eval host ρ = term.renderCallback host ∧ code.text? = none := by
  cases h with
  | kept helper =>
    rw [hρ.eval_memoized, term.eval_boundCode hρ site helper]
    exact ⟨rfl, rfl⟩
  | passed helper =>
    exact ⟨term.eval_boundCode hρ site helper, term.text?_boundCode site⟩

namespace Entry

def eval (host : Host α) (ρ : Locals α) (e : Entry Code) : Option (Entry (Value α)) :=
  (e.value.eval host ρ).map fun v => ⟨e.group, e.key, v⟩

theorem ofProperty_eq (isComponent : Bool) (p : Property) (code : Code) :
    ofProperty isComponent p code = p.entry isComponent (topValue p.key code) := by
  unfold ofProperty Property.entry
  split
  · rfl
  · rename_i htop
    have hstyle : p.key ≠ "style" := fun h => htop (by simp [h, topKeys])
    rw [topValue, if_neg hstyle]

theorem eval_entry (isComponent : Bool) (p : Property) (code : Code) :
    (p.entry isComponent code).eval host ρ =
      (code.eval host ρ).map (p.entry isComponent) := by
  unfold Property.entry
  split <;> rfl

theorem topValue_of_text?_eq_none {key : String} {code : Code} (h : code.text? = none) :
    topValue key code = code := by
  simp [topValue, h]

theorem evalEntries_text (entries : List (String × String)) :
    Code.evalEntries host ρ (entries.map fun e => (e.1, .text e.2)) =
      some (entries.map fun e => (e.1, .constant (.text e.2))) := by
  induction entries with
  | nil => rfl
  | cons e rest ih => simp [Code.evalEntries, ih]

theorem eval_topValue_style {code : Code} {style : String} (h : code.text? = some style) :
    (topValue "style" code).eval host ρ =
      some (.dict ((Text.inlineStyle style).map fun e => (e.1, .constant (.text e.2)))) := by
  simp [topValue, h, Code.eval, evalEntries_text]

end Entry

theorem LowersProperty.eval {site : Site} {isComponent : Bool} {p : Property} {entry : Entry Code}
    (h : LowersProperty env K (binds []) site isComponent p entry n n')
    (hρ : Provides host env.config K ρ) :
    entry.eval host ρ = p.render host isComponent := by
  cases h with
  | callback reads event callback =>
    obtain ⟨heval, htext⟩ := callback.eval hρ
    rw [Entry.ofProperty_eq, Entry.topValue_of_text?_eq_none htext, Entry.eval_entry, heval]
    simp [Property.render, Property.renderValue, Property.isCallback, reads, event]
  | @value term _ reads event =>
    have heval := term.eval_code hρ.inst site
    have htext := term.text?_code env.config site
    rw [Entry.ofProperty_eq, Entry.eval_entry, Property.render, Property.renderValue, reads]
    congr 1
    simp only [Option.bind_eq_bind, Option.bind_some, Property.isCallback, event,
      Bool.false_eq_true, if_false]
    split
    · rename_i hstyle
      rw [hstyle, Term.renderStyle]
      rcases ht : term.text? with _ | style
      · rw [Entry.topValue_of_text?_eq_none (htext.trans ht), heval]
      · exact Entry.eval_topValue_style (htext.trans ht)
    · rename_i hstyle
      rw [Entry.topValue, if_neg hstyle, heval]

theorem mapM_eq_none_iff {β γ : Type} {f : β → Option γ} {l : List β} :
    l.mapM f = none ↔ ∃ b ∈ l, f b = none := by
  induction l with
  | nil => simp
  | cons b l ih =>
    rcases h : f b with _ | c
    · simp [h]
    · rcases hl : l.mapM f with _ | cs
      · simpa [h, hl] using ih.1 hl
      · simpa [h, hl] using ih

theorem Code.evalEntries_eq_none_iff {entries : List (String × Code)} :
    evalEntries host ρ entries = none ↔ ∃ e ∈ entries, e.2.eval host ρ = none := by
  simp [evalEntries_eq_mapM, mapM_eq_none_iff]

namespace Entry

theorem eval_eq_none_iff {e : Entry Code} : e.eval host ρ = none ↔ e.value.eval host ρ = none :=
  Option.map_eq_none_iff

theorem eval_cons_cases {e : Entry Code} {entries : List (Entry Code)}
    {values : List (Entry (Value α))} (h : (e :: entries).mapM (eval host ρ) = some values) :
    ∃ v rest, e.value.eval host ρ = some v ∧ entries.mapM (eval host ρ) = some rest ∧
      values = ⟨e.group, e.key, v⟩ :: rest := by
  simp only [List.mapM_cons, Option.bind_eq_bind, Option.bind_eq_some_iff, Option.pure_def,
    Option.some.injEq, eval, Option.map_eq_some_iff] at h
  obtain ⟨_, ⟨v, hv, rfl⟩, rest, hrest, rfl⟩ := h
  exact ⟨v, rest, hv, hrest, rfl⟩

theorem eval_inGroup (group : Option Group) :
    ∀ {entries : List (Entry Code)} {values : List (Entry (Value α))},
      entries.mapM (eval host ρ) = some values →
      Code.evalEntries host ρ (inGroup entries group) = some (inGroup values group)
  | [], values, h => by
    obtain rfl : [] = values := by simpa using h
    rfl
  | e :: entries, values, h => by
    obtain ⟨v, rest, hv, hrest, rfl⟩ := eval_cons_cases h
    have ih := eval_inGroup group hrest
    unfold inGroup at ih ⊢
    by_cases hgroup : e.group == group
    · simp [hgroup, Code.evalEntries, hv, ih]
    · simp [hgroup, ih]

theorem groups_eval :
    ∀ {entries : List (Entry Code)} {values : List (Entry (Value α))},
      entries.mapM (eval host ρ) = some values →
      values.filterMap Entry.group = entries.filterMap Entry.group
  | [], values, h => by
    obtain rfl : [] = values := by simpa using h
    rfl
  | e :: entries, values, h => by
    obtain ⟨v, rest, -, hrest, rfl⟩ := eval_cons_cases h
    simp [List.filterMap_cons, groups_eval hrest]

theorem eval_attributes (entries : List (Entry Code)) :
    Code.evalEntries host ρ (attributes .dict entries) =
      (entries.mapM (eval host ρ)).map (attributes .dict) := by
  rcases h : entries.mapM (eval host ρ) with _ | values
  · obtain ⟨e, he, hnone⟩ := mapM_eq_none_iff.1 h
    rw [eval_eq_none_iff] at hnone
    have hmem : (e.key, e.value) ∈ inGroup entries e.group :=
      List.mem_map.2 ⟨e, List.mem_filter.2 ⟨he, beq_self_eq_true _⟩, rfl⟩
    refine Code.evalEntries_eq_none_iff.2 ?_
    rcases hgroup : e.group with _ | group
    · exact ⟨_, List.mem_append_left _ (hgroup ▸ hmem), hnone⟩
    · refine ⟨(group.key, .dict (inGroup entries (some group))), List.mem_append_right _ ?_, ?_⟩
      · refine List.mem_map.2 ⟨group, ?_, rfl⟩
        exact List.mem_eraseDups.2 (List.mem_filterMap.2 ⟨e, he, hgroup⟩)
      · have := Code.evalEntries_eq_none_iff.2 ⟨_, hgroup ▸ hmem, hnone⟩
        simp [Code.eval, this]
  · have hgroups : ∀ gs : List Group,
        Code.evalEntries host ρ (gs.map fun g => (g.key, .dict (inGroup entries (some g)))) =
          some (gs.map fun g => (g.key, .dict (inGroup values (some g)))) := by
      intro gs
      induction gs with
      | nil => rfl
      | cons g gs ih => simp [Code.evalEntries, Code.eval, eval_inGroup (some g) h, ih]
    have htop := eval_inGroup none h
    have hrest := hgroups (groups entries)
    rw [Code.evalEntries_eq_mapM] at htop hrest ⊢
    rw [attributes, List.mapM_append, htop, hrest]
    simp [attributes, groups, groups_eval h]

end Entry

/-! ## Readings -/

section

variable {site : Site} {isComponent : Bool} {reading : Reading} {readings : List Reading}
  {parts : List Part}

theorem LowersReading.eval_entries
    (h : LowersReading env K (binds []) site isComponent reading parts n n')
    (hρ : Provides host env.config K ρ) : (Part.entries parts).mapM (Entry.eval host ρ) =
      (Reading.properties [reading]).mapM (Property.render host isComponent) := by
  cases h with
  | property lowers => simp [Part.entries, Reading.properties, lowers.eval hρ]
  | iteration | slot | component | condition | alternative => rfl

theorem LowersReadings.eval_entries
    (h : LowersReadings env K (binds []) site isComponent readings parts n n')
    (hρ : Provides host env.config K ρ) : (Part.entries parts).mapM (Entry.eval host ρ) =
      (Reading.properties readings).mapM (Property.render host isComponent) := by
  induction h with
  | nil => rfl
  | cons head _ ih =>
    have hhead := head.eval_entries hρ
    rw [← List.singleton_append]
    unfold Part.entries Reading.properties at *
    rw [List.filterMap_append, List.mapM_append, List.filterMap_append, List.mapM_append, hhead, ih]

/-- The attributes of an element come to what the markup renders. -/
theorem LowersReadings.eval_attributes
    (h : LowersReadings env K (binds []) site isComponent readings parts n n')
    (hρ : Provides host env.config K ρ) :
    Code.evalEntries host ρ (Entry.attributes .dict (Part.entries parts)) =
      Reading.renderAttributes host isComponent readings := by
  rw [Entry.eval_attributes, h.eval_entries hρ]
  rfl

theorem LowersReadings.eval_condition
    (h : LowersReadings env K (binds []) site isComponent readings parts n n')
    (hρ : ρ.find env.config.instanceParam = some host.inst) :
    (Part.condition? parts).map (Code.eval host ρ) =
      (Reading.condition? readings).map (Content.render host true) := by
  induction h with
  | nil => rfl
  | cons head _ ih =>
    unfold Part.condition? Reading.condition? at *
    rw [List.findSome?_append, List.findSome?_cons]
    cases head with
    | condition reads => simp [Content.render, reads, Term.eval_code hρ]
    | iteration | slot | component | alternative | property => simpa using ih

theorem LowersReadings.eval_component
    (h : LowersReadings env K (binds []) site isComponent readings parts n n')
    (hρ : ρ.find env.config.instanceParam = some host.inst) :
    (Part.component? parts).map (Code.eval host ρ) =
      (Reading.component? readings).map (Content.render host false) := by
  induction h with
  | nil => rfl
  | cons head _ ih =>
    unfold Part.component? Reading.component? at *
    rw [List.findSome?_append, List.findSome?_cons]
    cases head with
    | component reads => simp [Content.render, reads, Term.eval_code hρ]
    | iteration | slot | condition | alternative | property => simpa using ih

theorem LowersReadings.isAlternative_eq {bound : String → Bool}
    (h : LowersReadings env K bound site isComponent readings parts n n') :
    Part.isAlternative parts = readings.any Reading.isAlternative := by
  induction h with
  | nil => rfl
  | cons head _ ih =>
    unfold Part.isAlternative at *
    rw [List.any_append, List.any_cons, ih]
    cases head <;> rfl

end

/-! ## Items -/

/-- What an item's code renders. -/
def Item.contribution (host : Host α) (ρ : Locals α) (i : Item) : Contribution α :=
  ⟨i.slot, i.code.eval host ρ⟩

/-- An item that is no iteration, and no list unless it is nested. -/
structure Item.Fits (host : Host α) (ρ : Locals α) (i : Item) : Prop where
  once : i.iteration = false
  single : i.nested = false → ∀ v, i.code.eval host ρ = some v → v.isList = false

namespace Item

theorem assemble_eq {items : List Item} (h : ∀ i ∈ items, i.iteration = false) :
    assemble config items =
      if items.any Item.nested then
        config.callPrimitive config.primitives.flatten [.list (items.map Item.code)]
      else .list (items.map Item.code) := by
  have hnested : (items.any fun i => i.nested && !i.iteration) = items.any Item.nested := by
    rw [Bool.eq_iff_iff]
    simp only [List.any_eq_true]
    refine exists_congr fun i => and_congr_right fun hi => ?_
    simp [h i hi]
  have hiterates : items.any Item.iteration = false := by simpa using h
  unfold assemble
  simp only [hnested, hiterates, Bool.or_false, Bool.false_eq_true, if_false]
  split <;> rfl

theorem splice_of_single :
    ∀ {items : List Item} {vs : List (Value α)}, (∀ i ∈ items, i.Fits host ρ) →
      (∀ i ∈ items, i.nested = false) → items.mapM (fun i => i.code.eval host ρ) = some vs →
      vs.flatMap Value.spliced = vs
  | [], vs, _, _, h => by
    obtain rfl : [] = vs := by simpa using h
    rfl
  | i :: items, vs, hfits, hsingle, h => by
    simp only [List.mapM_cons, Option.bind_eq_bind, Option.bind_eq_some_iff, Option.pure_def,
      Option.some.injEq] at h
    obtain ⟨v, hv, rest, hrest, rfl⟩ := h
    rw [List.forall_mem_cons] at hfits hsingle
    rw [List.flatMap_cons, splice_of_single hfits.2 hsingle.2 hrest,
      Value.spliced_of_not_isList (hfits.1.single hsingle.1 v hv), List.singleton_append]

/-- Items come to the list of children that they contribute to. -/
theorem eval_assemble (hρ : Provides host config K ρ) {items : List Item}
    (h : ∀ i ∈ items, i.Fits host ρ) : (assemble config items).eval host ρ =
      Contribution.children (items.map (contribution host ρ)) := by
  have hvalues : Code.evalList host ρ (items.map Item.code) =
      items.mapM fun i => i.code.eval host ρ := by
    rw [Code.evalList_eq_mapM, List.mapM_map]
    rfl
  have hchildren : Contribution.children (items.map (contribution host ρ)) =
      (items.mapM fun i : Item => i.code.eval host ρ).map fun vs =>
        .list (vs.flatMap Value.spliced) := by
    rw [Contribution.children, List.mapM_map]
    rfl
  rw [assemble_eq fun i hi => (h i hi).once, hchildren]
  split
  · rw [hρ.eval_callPrimitive, hρ.primitives]
    rcases hm : items.mapM (fun i => i.code.eval host ρ) with _ | vs
    · simp [Code.evalList, Code.eval, hvalues, hm]
    · simp [Code.evalList, Code.eval, hvalues, hm, Host.callPrimitive, Host.makers]
  · rename_i hnested
    rcases hm : items.mapM (fun i => i.code.eval host ρ) with _ | vs
    · simp [Code.eval, hvalues, hm]
    · have := splice_of_single h (by simpa using hnested) hm
      simp [Code.eval, hvalues, hm, this]

end Item

theorem Code.evalEntries_append (entries more : List (String × Code)) :
    evalEntries host ρ (entries ++ more) = (evalEntries host ρ entries).bind fun values =>
      (evalEntries host ρ more).map (values ++ ·) := by
  simp only [evalEntries_eq_mapM, List.mapM_append]
  refine Option.bind_congr fun values _ => ?_
  cases List.mapM (fun e => (e.2.eval host ρ).map (e.1, ·)) more <;> rfl

namespace Item

theorem eval_slots (hρ : Provides host config K ρ) {items : List Item}
    (h : ∀ i ∈ items, i.Fits host ρ) : Code.evalEntries host ρ (slots config items) =
      Contribution.bySlot config (items.map (contribution host ρ)) := by
  have hnames : (items.map (contribution host ρ)).map (Contribution.slotName config) =
      items.map (slotName config) := by
    rw [List.map_map]
    rfl
  have hgroup : ∀ slot,
      (assemble config (items.filter fun i => slotName config i == slot)).eval host ρ =
        Contribution.children ((items.map (contribution host ρ)).filter fun c =>
          Contribution.slotName config c == slot) := by
    intro slot
    rw [eval_assemble hρ fun i hi => h i (List.mem_filter.1 hi).1, List.filter_map]
    rfl
  rw [Code.evalEntries_eq_mapM, slots, List.mapM_map, Contribution.bySlot, hnames]
  congr 1
  funext slot
  rw [← hgroup slot]
  rfl

theorem eval_slotset (hρ : Provides host config K ρ) {items : List Item}
    (h : ∀ i ∈ items, i.Fits host ρ) :
    Code.evalEntries host ρ
        (if items.isEmpty then [] else [("slotset", .dict (slots config items))]) =
      Contribution.slotset config (items.map (contribution host ρ)) := by
  rcases hempty : items.isEmpty with _ | _
  · simp [Code.evalEntries, Code.eval, eval_slots hρ h, Contribution.slotset, hempty]
    cases Contribution.bySlot config (items.map (contribution host ρ)) <;> rfl
  · simp [Code.evalEntries, Contribution.slotset, hempty]

end Item

/-! ## Elements -/

theorem CallsElement.eval {tag : Tag} {readings : List Reading} {parts : List Part}
    {items : List Item} {kind : ElementKind} {code : Code}
    (h : CallsElement config K tag (Reading.component? readings) parts items kind code)
    (hρ : Provides host config K ρ) (hitems : ∀ i ∈ items, i.Fits host ρ)
    (hattributes : Code.evalEntries host ρ (Entry.attributes .dict (Part.entries parts)) =
      Reading.renderAttributes host kind.isComponent readings)
    (hcomponent : (Part.component? parts).map (Code.eval host ρ) =
      (Reading.component? readings).map (Content.render host false)) :
    code.eval host ρ =
      makeElement host config tag readings (items.map (Item.contribution host ρ)) kind := by
  have hchildren := Item.eval_assemble hρ hitems
  have hcontent := Item.eval_slotset hρ hitems
  cases h with
  | virtual imported =>
    rw [hρ.eval_callPrimitive, hρ.primitives]
    simp [Code.evalList, Code.eval, hρ.component _ _ imported, hattributes, hchildren, makeElement,
      ElementKind.isComponent, Option.bind_assoc]
  | @named name _ names imported =>
    obtain ⟨content, hcontent, htext⟩ : ∃ content, Reading.component? readings = some content ∧
        Text.given content.text? = some name := by
      rcases hc : Reading.component? readings with _ | content
      · simp [hc, Text.given] at names
      · exact ⟨content, rfl, by simpa [hc] using names⟩
    rw [hρ.eval_callPrimitive, hρ.primitives]
    simp [Code.evalList, Code.eval, hρ.component _ _ imported, hattributes, hchildren, makeElement,
      ElementKind.isComponent, Option.bind_assoc, Reading.renderComponent, hcontent, htext]
  | computed names expression component =>
    rw [expression] at names hcomponent
    rw [component] at hcomponent
    rw [hρ.eval_callPrimitive, hρ.primitives]
    simp only [Option.map_some, Option.some.injEq] at hcomponent
    simp [Code.evalList, Code.eval, hcomponent, hattributes, hchildren, makeElement,
      ElementKind.isComponent, Option.bind_assoc, Reading.renderComponent, expression,
      Content.text?, Text.given]
  | custom imported =>
    rw [hρ.eval_callPrimitive, hρ.primitives]
    simp [Code.evalList, Code.eval, Code.evalEntries_append, hρ.component _ _ imported, hattributes,
      hcontent, makeElement, ElementKind.isComponent, Option.bind_assoc, Option.map_eq_bind,
      -List.isEmpty_iff]
  | plain =>
    rw [hρ.eval_callPrimitive, hρ.primitives]
    simp [Code.evalList, Code.eval, hattributes, hchildren, makeElement,
      ElementKind.isComponent, Option.bind_assoc]

theorem eval_outletCode (hρ : Provides host config K ρ) (readings : List Reading)
    {items : List Item} (h : ∀ i ∈ items, i.Fits host ρ) :
    (CompileM.outletCode config (Reading.outletName readings) items).eval host ρ =
      renderOutlet host config readings (items.map (Item.contribution host ρ)) := by
  simp [CompileM.outletCode, Code.refMember, Code.eval, Code.evalList, hρ.slots,
    Item.eval_assemble hρ h, renderOutlet]

end TemplateCompiler
