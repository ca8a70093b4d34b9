import TemplateCompiler.Proofs.Modifiers
import TemplateCompiler.Proofs.Standing

/-!
# What becomes of attributes

Every attribute of an element that is called is accounted for in the element's code: it selects the
component, is the condition, marks an else, tells a part of the iteration, or is one entry of the
attributes in the call, and the call has no other entries (`attributes_accounted`). Two are not: a
condition or an else marker in the namespace of an iteration, and an is on a tag with a namespace of
its own, come to nothing at all.
-/

namespace TemplateCompiler

variable {env : Env} {config : Config} {K : Context} {n n' : Numbering}

/-! ## Groups -/

theorem idxOf_lt_of_filter {κ : Type} [BEq κ] [LawfulBEq κ] {p : κ → Bool} {a b : κ} (ha : p a)
    (hb : p b) : ∀ {l : List κ}, (l.filter p).idxOf a < (l.filter p).idxOf b →
      l.idxOf a < l.idxOf b
  | [], h => by simp at h
  | c :: l, h => by
    by_cases hac : c = a
    · subst hac
      by_cases hbc : c = b
      · simp [hbc] at h
      · rw [List.idxOf_cons_self, List.idxOf_cons_ne _ hbc]
        omega
    · by_cases hbc : c = b
      · subst hbc
        simp [List.filter_cons_of_pos hb] at h
      · rw [List.idxOf_cons_ne _ hac, List.idxOf_cons_ne _ hbc]
        refine Nat.succ_lt_succ (idxOf_lt_of_filter ha hb ?_)
        by_cases hc : p c
        · rw [List.filter_cons_of_pos hc, List.idxOf_cons_ne _ hac, List.idxOf_cons_ne _ hbc] at h
          exact Nat.lt_of_succ_lt_succ h
        · rwa [List.filter_cons_of_neg hc] at h

/-- Without repetition, members stand in the order of their first occurrences. -/
theorem pairwise_idxOf_eraseDups {κ : Type} [BEq κ] [LawfulBEq κ] :
    ∀ l : List κ, l.eraseDups.Pairwise fun a b => l.idxOf a < l.idxOf b
  | [] => by simp
  | a :: l => by
    rw [List.eraseDups_cons]
    have hother : ∀ b ∈ (l.filter fun b => !b == a).eraseDups, a ≠ b := by
      rintro b hb rfl
      simp [List.mem_eraseDups] at hb
    refine List.pairwise_cons.2 ⟨fun b hb => ?_, ?_⟩
    · rw [List.idxOf_cons_self, List.idxOf_cons_ne _ (hother b hb)]
      exact Nat.succ_pos _
    · refine (pairwise_idxOf_eraseDups _).imp_of_mem fun {b c} hb hc hlt => ?_
      rw [List.idxOf_cons_ne _ (hother b hb), List.idxOf_cons_ne _ (hother c hc)]
      have hb' : (!b == a) = true := by simpa using (hother b hb).symm
      have hc' : (!c == a) = true := by simpa using (hother c hc).symm
      exact Nat.succ_lt_succ (@idxOf_lt_of_filter κ _ _ (fun b => !b == a) b c hb' hc' l hlt)
termination_by l => l.length
decreasing_by
  exact Nat.lt_succ_of_le (List.length_filter_le _ l)

namespace Entry

/-- Entries as the attributes of a call: those at the top, and behind them the groups in use, in the
order of their first use and each with its entries in their order. -/
structure Gathers (entries : List (Entry Code)) (groups : List Group)
    (attributes : List (String × Code)) : Prop where
  gathered : attributes = inGroup entries none ++
    groups.map fun group => (group.key, .dict (inGroup entries (some group)))
  used : ∀ group ∈ groups, inGroup entries (some group) ≠ []
  order : groups.Pairwise fun group next =>
    (entries.filterMap Entry.group).idxOf group < (entries.filterMap Entry.group).idxOf next
  once : (inGroup entries none ++ groups.flatMap fun group => inGroup entries (some group)).Perm
    (entries.map fun e => (e.key, e.value))

theorem gathers_attributes (entries : List (Entry Code)) :
    Gathers entries (groups entries) (attributes .dict entries) where
  gathered := rfl
  used group hgroup := by
    obtain ⟨e, he, hfound⟩ := List.mem_filterMap.1 (List.mem_eraseDups.1 hgroup)
    exact List.ne_nil_of_mem (List.mem_map_of_mem (List.mem_filter.2 ⟨he, by simp [hfound]⟩))
  order := pairwise_idxOf_eraseDups _
  once := perm_inGroup entries

end Entry

/-! ## Codes of elements -/

/-- The code of an element: the call, with the entries that it is called with, what a condition
makes of the call, and what an iteration makes of that. -/
structure ElementCode where
  readings : List Reading
  entries : List (Entry Code)
  groups : List Group
  attributes : List (String × Code)
  component : Code
  call : Code
  condition : Option Code
  chosen : Code
  loop : Option Loop
  own : Code

namespace ElementCode

/-- What becomes of a reading in the code of an element. A slot marker is looked at by the element
around, and a component only where the tag has no namespace. -/
def Accounts (env : Env) (t : Template) (m : Module) (place : Place) (tag : Tag)
    (x : ElementCode) : Reading → Prop
  | .component content =>
    tag.ns = none → content.Selects env.config m.imports t ⟨place, false⟩ x.component
  | .condition content =>
    ∃ test, x.condition = some test ∧ content.ComesTo env.config t ⟨place, false⟩ true test
  | .alternative _ => ∃ test body, .conditional test body x.own ∈ m.function.subterms
  | .iteration part => ∃ loop content, x.loop = some loop ∧ loop.place = place ∧
      content.ComesTo env.config t ⟨place, true⟩ true loop.iterable ∧
      part.Says content loop.parameters
  | .property p => ∃ e ∈ x.entries,
      p.IsEntry env t ⟨place, false⟩ (elementKind tag x.readings).isComponent e
  | .slot _ => True

/-- The code of an element in a module, with everything that its attributes come to and nothing
else. -/
structure IsCodeOf (env : Env) (t : Template) (m : Module) (place : Place) (tag : Tag)
    (attributes : List Attribute) (x : ElementCode) : Prop where
  reads : List.Forall₂ (Attribute.IsRead env.config) attributes x.readings
  distinct : (attributes.filterMap Attribute.modifier?).Nodup
  accounts : ∀ reading ∈ x.readings, x.Accounts env t m place tag reading
  entries : List.Forall₂
    (Property.IsEntry env t ⟨place, false⟩ (elementKind tag x.readings).isComponent)
    (x.readings.filterMap Reading.property?) x.entries
  gathers : Entry.Gathers x.entries x.groups x.attributes
  called : Called env.config m.imports tag x.attributes (elementKind tag x.readings) x.component
    x.call
  choice : Chosen x.call x.condition x.chosen
  iteration : Repeated env.config m.function x.chosen x.loop x.own
  call_stands : x.call ∈ m.function.subterms
  stands : x.own ∈ m.function.subterms
  unconditional : x.readings.any Reading.isCondition = false → x.condition = none
  unrepeated : Reading.loopParts x.readings = [] → x.loop = none
  idle : ∀ a ∈ attributes, Role.ofTag a.tag = .ok (.modifier .iterate .condition) →
    x.condition = none

end ElementCode

/-! ## From what is lowered -/

variable {t : Template} {compiled : Compiled} {sibling : Sibling} {ds : List Declaration}

theorem Template.Binds.binds_eq {binders : List Binder} {s : Site}
    (h : t.Binds config binders s.enclosing) : binds binders = t.isBound config s := by
  funext name
  rw [← isSome_nearest, h name]
  rfl

section

variable {bound : String → Bool} {s : Site} {isComponent : Bool} {readings : List Reading}
  {parts : List Part}

theorem LowersProperty.isEntry {p : Property} {e : Entry Code}
    (h : LowersProperty env K bound s isComponent p e n n')
    (hbound : bound = t.isBound env.config s) : p.IsEntry env t s isComponent e := by
  subst hbound
  have htop : ∀ code, (Entry.ofProperty isComponent p code).group = none ↔
      p.key ∈ Entry.topKeys := by
    intro code
    unfold Entry.ofProperty
    split <;> simp_all
  cases h with
  | value reads event => exact ⟨⟨_, .value ⟨_, reads, rfl⟩ event, rfl⟩, htop _⟩
  | callback reads event callback =>
    obtain ⟨hevent, hdirective⟩ : p.isEvent ∧ p.directive = some .bind := by simpa using event
    rw [hdirective, Option.isSome_some] at reads
    have hcontent : p.content.ComesTo env.config t s true _ := ⟨_, reads, rfl⟩
    cases callback with
    | kept _ keep =>
      have hpasses : p.Passes env t s _ := .kept n.memo hcontent ⟨hevent, hdirective⟩ keep
      exact ⟨⟨_, hpasses, rfl⟩, htop _⟩
    | passed _ keep =>
      have hpasses : p.Passes env t s _ := .callback hcontent ⟨hevent, hdirective⟩ keep
      exact ⟨⟨_, hpasses, rfl⟩, htop _⟩

/-- The properties of an element are its entries, one for one. -/
theorem LowersReadings.entries
    (h : LowersReadings env K bound s isComponent readings parts n n')
    (hbound : bound = t.isBound env.config s) :
    List.Forall₂ (Property.IsEntry env t s isComponent) (readings.filterMap Reading.property?)
      (Part.entries parts) := by
  induction h with
  | nil => exact .nil
  | cons head _ ih =>
    unfold Part.entries at *
    rw [List.filterMap_append]
    cases head with
    | property lowers => exact .cons (lowers.isEntry hbound) ih
    | iteration | slot | component | condition | alternative => exact ih

/-- The component that is computed is the content of the is, which names none. -/
theorem LowersReadings.selects {imports : List Import} {content : Content} {component : Code}
    (h : LowersReadings env K bound s isComponent readings parts n n')
    (hbound : bound = t.isBound env.config s)
    (hcontent : Reading.component? readings = some content)
    (hgiven : Text.given content.text? = none)
    (hcomponent : Part.component? parts = some component) :
    content.Selects env.config imports t s component := by
  rw [Content.Selects, hgiven]
  rcases h.component?_cases with ⟨hparts, -⟩ | ⟨written, term, hwritten, hterm, hparts⟩
  · exact nomatch hparts.symm.trans hcomponent
  · obtain rfl := Option.some.inj (hwritten.symm.trans hcontent)
    obtain rfl := Option.some.inj (hparts.symm.trans hcomponent)
    exact ⟨term, hterm, by rw [hbound]⟩

/-- An element with an is and without a namespace is dynamic. -/
theorem elementKind_eq_dynamic {tag : Tag} (hns : tag.ns = none)
    (hcomponent : (Reading.component? readings).isSome)
    (hkind : (elementKind tag readings).chooses) : elementKind tag readings = .dynamic := by
  obtain ⟨ns, name⟩ := tag
  obtain rfl : ns = none := hns
  unfold elementKind ElementKind.ofTag at *
  simp only [hcomponent, if_true] at hkind ⊢
  split_ifs at hkind ⊢ with htemplate hslot
  · simp [ElementKind.chooses] at hkind
  · simp [ElementKind.chooses] at hkind
  · rfl

/-- An element is called with its entries in groups, and an is without a namespace selects what is
called. -/
theorem CallsElement.called {tag : Tag} {items : List Item} {call : Code} {n₁ n₂ : Numbering}
    (h : CallsElement env.config K tag (Reading.component? readings) parts items
      (elementKind tag readings) call)
    (hc : Compiles env t compiled K sibling ds n')
    (hl : LowersReadings env K bound s isComponent readings parts n₁ n₂)
    (hbound : bound = t.isBound env.config s) :
    ∃ component, Called env.config compiled.module.imports tag
        (Entry.attributes .dict (Part.entries parts)) (elementKind tag readings) component call ∧
      ∀ content, Reading.component? readings = some content → tag.ns = none →
        content.Selects env.config compiled.module.imports t s component := by
  have hnone : elementKind tag readings ≠ .dynamic → tag.ns = none → ∀ content,
      Reading.component? readings ≠ some content := by
    intro hkind hns content hcontent
    exact hkind (elementKind_eq_dynamic hns (by simp [hcontent]) h.chooses)
  generalize elementKind tag readings = kind at h hnone
  cases h with
  | virtual imported =>
    obtain ⟨i, hi, hpath, rfl⟩ := hc.exists_import imported
    exact ⟨_, .virtual hi hpath, fun content hcontent hns =>
      absurd hcontent (hnone nofun hns content)⟩
  | named names imported =>
    obtain ⟨i, hi, hpath, rfl⟩ := hc.exists_import imported
    refine ⟨_, .dynamic, fun content hcontent _ => ?_⟩
    rw [hcontent, Option.bind_some] at names
    rw [Content.Selects, names]
    exact ⟨i, hi, hpath, rfl⟩
  | computed names _ component =>
    refine ⟨_, .dynamic, fun content hcontent _ => ?_⟩
    rw [hcontent, Option.bind_some] at names
    exact hl.selects hbound hcontent names component
  | custom imported =>
    obtain ⟨i, hi, hpath, rfl⟩ := hc.exists_import imported
    refine ⟨_, .custom hi hpath ?_, fun content hcontent hns =>
      absurd hcontent (hnone nofun hns content)⟩
    split
    · exact .inl rfl
    · exact .inr ⟨_, rfl⟩
  | plain =>
    exact ⟨.constant none .null, .plain, fun content hcontent hns =>
      absurd hcontent (hnone nofun hns content)⟩

/-- What is called has the code of its element. -/
theorem CallsElement.codedAs {place : Place} {pos : Position} {tag : Tag}
    {attributes : List Attribute} {children : List Node} {items : List Item} {call : Code}
    {n₁ n₂ : Numbering}
    (h : CallsElement env.config K tag (Reading.component? readings) parts items
      (elementKind tag readings) call)
    (hc : Compiles env t compiled K sibling ds n')
    (hreads : Reading.ofAttributes env.config [] attributes = .ok readings)
    (hl : LowersReadings env K bound ⟨place, false⟩ (elementKind tag readings).isComponent readings
      parts n₁ n₂)
    (hbound : bound = t.isBound env.config ⟨place, false⟩) :
    (Node.element pos tag attributes children).CodedAs env t compiled.module place call := by
  obtain ⟨component, hcalled, hselects⟩ := h.called hc hl hbound
  exact .called hreads (hl.entries hbound) hcalled hselects

end

/-- Only a sibling made of a call is chosen, and it is an else if it is marked as one. -/
theorem SealsElement.isAlternative_eq {pos : Position} {tag : Tag} {readings : List Reading}
    {parts : List Part} {items : List Item} {outer : List Declaration} {kind : ElementKind}
    {loop : Option Loop}
    (h : SealsElement config K pos tag readings parts items ds kind loop sibling outer n n')
    (hkind : kind.chooses) : sibling.isAlternative = Part.isAlternative parts := by
  cases h with
  | outlet => simp [ElementKind.chooses] at hkind
  | spliced | iterated | fixed | guarded | repeated => rfl

/-- What an element iterates over is as its attributes tell. -/
theorem OpensLoop.says {binders : List Binder} {place : Place} {readings : List Reading}
    {loop : Option Loop} (h : OpensLoop config binders place readings loop)
    (hbinders : binds binders = t.isBound config ⟨place, true⟩) (hone : Reading.TellOnce readings) :
    ∀ part ∈ Reading.loopParts readings, ∃ opened content, loop = some opened ∧
      opened.place = place ∧ content.ComesTo config t ⟨place, true⟩ true opened.iterable ∧
      part.Says content opened.parameters := by
  intro part hpart
  cases h with
  | once reads => simp [LoopPart.eq_nil_of_iterable? reads] at hpart
  | repeated reads iterable binder =>
    refine ⟨_, _, rfl, rfl, ⟨_, iterable, by rw [hbinders]⟩, ?_⟩
    exact LoopPart.says_of_found reads binder (LoopPart.found_of_mem hone part hpart)

theorem OpensLoop.eq_none_of_loopParts {binders : List Binder} {place : Place}
    {readings : List Reading} {loop : Option Loop}
    (h : OpensLoop config binders place readings loop)
    (hparts : Reading.loopParts readings = []) : loop = none := by
  cases h with
  | once => rfl
  | repeated reads => simp [hparts, LoopPart.iterable?] at reads

theorem elementKind_chooses {tag : Tag} (readings : List Reading)
    (htemplate : tag ≠ ⟨none, "template"⟩) (hslot : tag ≠ ⟨none, "slot"⟩) :
    (elementKind tag readings).chooses := by
  obtain ⟨ns, name⟩ := tag
  unfold elementKind ElementKind.ofTag
  rcases ns with _ | ns
  · have hname : name ≠ "template" := fun h => htemplate (by rw [h])
    have hname' : name ≠ "slot" := fun h => hslot (by rw [h])
    simp only [hname, hname', if_false]
    split_ifs <;> rfl
  · rfl

section

variable {bound : String → Bool} {s : Site} {isComponent : Bool} {readings : List Reading}
  {parts : List Part}

/-- Without a condition among them, readings come to none. -/
theorem LowersReadings.condition?_eq_none
    (h : LowersReadings env K bound s isComponent readings parts n n')
    (hnone : readings.any Reading.isCondition = false) : Part.condition? parts = none := by
  by_contra hsome
  obtain ⟨code, hcode⟩ := Option.ne_none_iff_exists'.1 hsome
  exact Bool.false_ne_true (hnone.symm.trans (h.any_isCondition hcode))

/-- A condition among readings is what they come to. -/
theorem LowersReadings.exists_condition
    (h : LowersReadings env K bound s isComponent readings parts n n')
    (hbound : bound = t.isBound env.config s) (hone : Reading.TellOnce readings)
    {content : Content} (hr : .condition content ∈ readings) :
    ∃ test, Part.condition? parts = some test ∧ content.ComesTo env.config t s true test := by
  have hwritten := Reading.condition?_eq hone hr
  rcases h.condition?_cases with ⟨-, hnone⟩ | ⟨found, term, hfound, hterm, hparts⟩
  · exact nomatch hwritten.symm.trans hnone
  · obtain rfl := Option.some.inj (hfound.symm.trans hwritten)
    exact ⟨_, hparts, term, hterm, by rw [hbound]⟩

end

/-- The root is a template, so every other element is inside of it. -/
theorem Compiles.place_ne_nil (hc : Compiles env t compiled K sibling ds n) {place : Place}
    {pos : Position} {tag : Tag} {attributes : List Attribute} {children : List Node}
    (helement : t.elementAt? place = some (.element pos tag attributes children))
    (htemplate : tag ≠ ⟨none, "template"⟩) : place ≠ [] := by
  rintro rfl
  obtain ⟨_, _, _, hroot, -⟩ := hc.root
  rw [Template.elementAt?, hroot] at helement
  exact htemplate (Node.element.inj (Option.some.inj helement)).2.1.symm

/-- The code of an element, part by part; its groups are those that its entries use. -/
theorem Compiles.exists_isCodeOf (hc : Compiles env t compiled K sibling ds n) {place : Place}
    {pos : Position} {tag : Tag} {attributes : List Attribute} {children : List Node}
    (helement : t.elementAt? place = some (.element pos tag attributes children))
    (htemplate : tag ≠ ⟨none, "template"⟩) (hslot : tag ≠ ⟨none, "slot"⟩) :
    ∃ x : ElementCode, x.IsCodeOf env t compiled.module place tag attributes ∧
      x.groups = Entry.groups x.entries := by
  obtain ⟨binders, s, inner, m, m', hl⟩ := hc.exists_lowered place helement
  cases hl.lowers with
  | @mk _ _ _ _ _ _ readings loop parts _ _ _ _ _ _ _ _ _ _ _ reads opens lowersReadings _ _
      seals =>
    have hkind := elementKind_chooses readings htemplate hslot
    have hbinds := (opens.binds_enclosing hl.binders
      (Template.readingsAt_element helement reads)).binds_eq
    obtain ⟨hreads, hdistinct, -⟩ := Reading.ofAttributes_isRead reads
    have hone := Reading.tellOnce_of_isRead hreads hdistinct
    obtain ⟨call, chosen, own, calls, hcode, hanswers, -⟩ :=
      seals.call_stands hkind hl.stands hl.inner
    obtain ⟨component, hcalled, hselects⟩ := calls.called hc lowersReadings hbinds
    refine ⟨⟨readings, Part.entries parts, Entry.groups (Part.entries parts),
      Entry.attributes .dict (Part.entries parts), component, call, Part.condition? parts, chosen,
      loop, own⟩, ?_, rfl⟩
    constructor
    case reads => exact hreads
    case distinct => exact hdistinct
    case entries => exact lowersReadings.entries hbinds
    case gathers => exact Entry.gathers_attributes _
    case called => exact hcalled
    case choice => exact hcode.choice
    case iteration => exact hcode.iteration
    case call_stands => exact hcode.choice.stands hcode.body
    case stands => exact hcode.code
    case unrepeated => exact opens.eq_none_of_loopParts
    case unconditional => exact lowersReadings.condition?_eq_none
    case idle =>
      exact fun a ha hrole => lowersReadings.condition?_eq_none
        (Reading.any_isCondition_of_iterate hreads hdistinct ha hrole)
    case accounts =>
      intro reading hreading
      cases reading with
      | component content => exact hselects content (Reading.component?_eq hone hreading)
      | condition content => exact lowersReadings.exists_condition hbinds hone hreading
      | alternative content =>
        refine hanswers (hc.place_ne_nil helement htemplate) ?_
        rw [seals.isAlternative_eq hkind, lowersReadings.isAlternative_eq]
        exact List.any_eq_true.2 ⟨_, hreading, rfl⟩
      | iteration part =>
        refine opens.says ?_ hone part (List.mem_filterMap.2 ⟨_, hreading, rfl⟩)
        exact hl.binders.binds_eq
      | property p =>
        exact exists_of_mem_forall₂ (lowersReadings.entries hbinds)
          (List.mem_filterMap.2 ⟨_, hreading, rfl⟩)
      | slot => trivial

/-- An element that is called comes to code with everything that its attributes say and nothing
else, save that a condition or an else marker of an iteration comes to nothing, and an is beside a
namespace neither. -/
theorem attributes_accounted (h : (compile env t).1 = .ok compiled) {place : Place}
    {pos : Position} {tag : Tag} {attributes : List Attribute} {children : List Node}
    (helement : t.elementAt? place = some (.element pos tag attributes children))
    (htemplate : tag ≠ ⟨none, "template"⟩) (hslot : tag ≠ ⟨none, "slot"⟩) :
    ∃ x : ElementCode, x.IsCodeOf env t compiled.module place tag attributes := by
  obtain ⟨K, root, ds, n, hc⟩ := compiles_of_ok h
  obtain ⟨x, hx, -⟩ := hc.exists_isCodeOf helement htemplate hslot
  exact ⟨x, hx⟩

/-- An element with attributes of every kind, as the else of another. -/
def filledTemplate : Template :=
  .ofRoot [.plain "p" [.text "set" "if" "a"] [],
    .plain "b" [.bare "set" "else", .text "repeat" "for" "row in rows",
      .text "bind" "if" "row.open", .named "is" "x-item", .named "slot" "side",
      .named "onclick" "pick", .text "set" "data-id" "row.id", .named "class" "wide",
      .named "title" "Row"] []]

theorem attributes_accounted_filled :
    ∃ compiled, (compile .default filledTemplate).1 = .ok compiled ∧
      ∃ pos attributes children,
        filledTemplate.elementAt? [1] = some (.element pos ⟨none, "b"⟩ attributes children) ∧
        ∃ x : ElementCode,
          x.IsCodeOf .default filledTemplate compiled.module [1] ⟨none, "b"⟩ attributes := by
  have hok : (compile .default filledTemplate).1.toOption.map (fun _ => ()) = some () := by
    decide +kernel
  obtain ⟨compiled, hc, -⟩ := exists_ok_of_map hok
  exact ⟨compiled, hc, _, _, _, rfl, attributes_accounted hc rfl (by decide) (by decide)⟩

/-- A condition in the namespace of the iteration. -/
def idleTemplate : Template :=
  .ofRoot [.plain "p" [.text "repeat" "for" "x in xs", .text "repeat" "if" "c"] []]

/-- An attribute has an if for its modifier, and there is no conditional in the module. What the
attribute says is not even listed. -/
theorem iterated_condition_is_dropped :
    ∃ compiled, (compile .default idleTemplate).1 = .ok compiled ∧
      (∃ pos attributes children,
        idleTemplate.elementAt? [0] = some (.element pos ⟨none, "p"⟩ attributes children) ∧
        attributes.map (fun a => Role.ofTag a.tag |>.toOption) =
          [some (.modifier .iterate .statement), some (.modifier .iterate .condition)]) ∧
      compiled.module.function.subterms.filter Code.isConditional = [] ∧
      compiled.module.usedNames = ["xs"] := by
  have hnone : (compile .default idleTemplate).1.toOption.map (fun c =>
      ((c.module.function.subterms.filter Code.isConditional).length, c.module.usedNames)) =
        some (0, ["xs"]) := by
    decide +kernel
  obtain ⟨compiled, hc, hboth⟩ := exists_ok_of_map hnone
  rw [Prod.mk.injEq, List.length_eq_zero_iff] at hboth
  exact ⟨compiled, hc, ⟨_, _, _, rfl, by decide +kernel⟩, hboth⟩

end TemplateCompiler
