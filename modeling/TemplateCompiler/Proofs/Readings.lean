import Mathlib.Data.List.Forall2
import TemplateCompiler.Attribute.Reading

/-!
# What attributes are read as

An attribute is read by its role and its content (`Attribute.IsRead`). The attributes of an element
are read each for itself and in their order, and a modifier is taken up only once
(`Reading.ofAttributes_eq_ok_iff`).
-/

namespace TemplateCompiler

variable {config : Config} {content : Content}

theorem exists_of_mem_forall₂ {α β : Type} {R : α → β → Prop} {as : List α} {bs : List β}
    (h : List.Forall₂ R as bs) {a : α} (ha : a ∈ as) : ∃ b ∈ bs, R a b := by
  induction h with
  | nil => simp at ha
  | cons head _ ih =>
    rcases List.mem_cons.1 ha with rfl | ha
    · exact ⟨_, List.mem_cons_self, head⟩
    · obtain ⟨b, hb, hab⟩ := ih ha
      exact ⟨b, List.mem_cons_of_mem _ hb, hab⟩

theorem forall₂_append_left {α β : Type} {R : α → β → Prop} :
    ∀ {as as' : List α} {bs : List β}, List.Forall₂ R (as ++ as') bs →
      ∃ bs₁ bs₂, bs = bs₁ ++ bs₂ ∧ List.Forall₂ R as bs₁ ∧ List.Forall₂ R as' bs₂
  | [], _, bs, h => ⟨[], bs, rfl, .nil, h⟩
  | _ :: _, _, b :: _, .cons head h => by
    obtain ⟨bs₁, bs₂, rfl, h₁, h₂⟩ := forall₂_append_left h
    exact ⟨b :: bs₁, bs₂, rfl, .cons head h₁, h₂⟩

/-! ## Roles -/

/-- A namespace that makes a directive decides with the name alone. -/
theorem Role.ofTag_of_directive {tag : Tag} {d : Directive}
    (h : (Text.given tag.ns).bind Directive.ofNamespace? = some d) :
    Role.ofTag tag = .ok (Role.ofDirective d tag.name) := by
  have hplain : ∀ ns ∈ Role.foreignNamespaces, Directive.ofNamespace? ns = none := by decide
  rcases hgiven : Text.given tag.ns with _ | ns
  · simp [hgiven] at h
  · rw [hgiven, Option.bind_some] at h
    have hforeign : ns ∉ Role.foreignNamespaces := fun hmem => by simp [hplain ns hmem] at h
    simp [Role.ofTag, hgiven, hforeign, h]

/-- A role with a modifier tells that its name is the modifier's. -/
theorem Role.directed_of_modifier {tag : Tag} {d : Directive} {m : Modifier}
    (h : Role.ofTag tag = .ok (.modifier d m)) :
    (Text.given tag.ns).bind Directive.ofNamespace? = some d ∧
      Modifier.ofName? tag.name = some m := by
  unfold Role.ofTag at h
  rcases hgiven : Text.given tag.ns with _ | ns
  · simp only [hgiven, Except.ok.injEq, Role.ofBareName] at h
    split at h
    · simp at h
    · split_ifs at h
  · simp only [hgiven] at h
    split at h
    · simp at h
    · split at h
      · rename_i directive hdirective
        simp only [Except.ok.injEq, Role.ofDirective] at h
        split at h
        · rename_i m' _ hname
          obtain ⟨rfl, rfl⟩ := Role.modifier.inj h
          exact ⟨hdirective, hname⟩
        · simp at h
        · simp at h
      · simp at h

/-- The part of an iteration that a modifier in its namespace tells. A condition and an else marker
tell none. -/
inductive Modifier.IsRead (config : Config) (content : Content) : Modifier → LoopPart → Prop where
  | statement {text s} (written : content.text? = some text)
      (parses : ForStatement.parse text = .ok s)
      (free : Reading.checkParameters config s.parameters = .ok ()) :
      IsRead config content .statement (.statement s)
  | each : IsRead config content .each (.each content)
  | item {name} (names : Reading.parameterName config .item content = .ok name) :
      IsRead config content .item (.item name)
  | index {name} (names : Reading.parameterName config .index content = .ok name) :
      IsRead config content .index (.index name)
  | idle {m} (other : m = .condition ∨ m = .alternative ∨ m = .component) :
      IsRead config content m .idle

/-- What an attribute of a role is read as. -/
inductive Role.IsRead (config : Config) (content : Content) : Role → Reading → Prop where
  | iteration {m part} (reads : Modifier.IsRead config content m part) :
      IsRead config content (.modifier .iterate m) (.iteration part)
  | condition {d} (directive : d ≠ .iterate) :
      IsRead config content (.modifier d .condition) (.condition content)
  | alternative {d} (directive : d ≠ .iterate) :
      IsRead config content (.modifier d .alternative) (.alternative content)
  | modifier {d m} (directive : d ≠ .iterate) (other : m ≠ .condition ∧ m ≠ .alternative) :
      IsRead config content (.modifier d m) (.property ⟨m.name, false, some d, content⟩)
  | event {d key} (directive : d ≠ .iterate) :
      IsRead config content (.event d key) (.property ⟨key, true, some d, content⟩)
  | directed {d key} (directive : d ≠ .iterate) :
      IsRead config content (.directed d key) (.property ⟨key, false, some d, content⟩)
  | component : IsRead config content .component (.component content)
  | slot {name} (names : Reading.slotName content = .ok name) :
      IsRead config content .slot (.slot name)
  | plain {key} : IsRead config content (.plain key) (.property ⟨key, false, none, content⟩)

/-- An attribute read by its role and its content. -/
def Attribute.IsRead (config : Config) (a : Attribute) (reading : Reading) : Prop :=
  ∃ role content, Role.ofTag a.tag = .ok role ∧ Content.ofAttribute a = .ok content ∧
    Role.IsRead config content role reading

/-- The modifier that an attribute takes up. -/
def Attribute.modifier? (a : Attribute) : Option Modifier :=
  (Role.ofTag a.tag).toOption.bind Role.modifier?

namespace Reading

theorem isRead_of_loopPart {m : Modifier} {part : LoopPart}
    (h : loopPart config m content = .ok part) : Modifier.IsRead config content m part := by
  cases m with
  | statement =>
    simp only [loopPart] at h
    split at h
    · simp at h
    · rename_i text htext
      split at h
      · simp at h
      · rename_i s hs
        rcases hc : checkParameters config s.parameters with problem | u
        · simp [hc, bind, Except.bind] at h
        · simp only [hc, bind, Except.bind, pure, Except.pure, Except.ok.injEq] at h
          exact h ▸ .statement htext hs hc
  | item =>
    rcases hn : parameterName config .item content with problem | name
    · simp [loopPart, hn, Functor.map, Except.map] at h
    · simp only [loopPart, hn, Functor.map, Except.map, Except.ok.injEq] at h
      exact h ▸ .item hn
  | index =>
    rcases hn : parameterName config .index content with problem | name
    · simp [loopPart, hn, Functor.map, Except.map] at h
    · simp only [loopPart, hn, Functor.map, Except.map, Except.ok.injEq] at h
      exact h ▸ .index hn
  | each => exact Except.ok.inj h ▸ .each
  | condition | alternative | component => exact Except.ok.inj h ▸ .idle (by simp)

theorem isRead_of_ofRole {qualified : String} {role : Role} {reading : Reading}
    (h : ofRole config qualified role content = .ok reading) :
    Role.IsRead config content role reading := by
  cases role with
  | modifier d m =>
    cases d with
    | iterate =>
      rcases hp : loopPart config m content with problem | part
      · simp [ofRole, hp, Functor.map, Except.map] at h
      · simp only [ofRole, hp, Functor.map, Except.map, Except.ok.injEq] at h
        exact h ▸ .iteration (isRead_of_loopPart hp)
    | set | bind =>
      cases m with
      | condition => exact Except.ok.inj h ▸ .condition (by simp)
      | alternative => exact Except.ok.inj h ▸ .alternative (by simp)
      | statement | each | item | index | component =>
        exact Except.ok.inj h ▸ .modifier (by simp) (by simp)
  | event d key =>
    cases d with
    | iterate => simp [ofRole] at h
    | set | bind => exact Except.ok.inj h ▸ .event (by simp)
  | directed d key =>
    cases d with
    | iterate => simp [ofRole] at h
    | set | bind => exact Except.ok.inj h ▸ .directed (by simp)
  | component => exact Except.ok.inj h ▸ .component
  | slot =>
    rcases hn : slotName content with problem | name
    · simp [ofRole, hn, Functor.map, Except.map] at h
    · simp only [ofRole, hn, Functor.map, Except.map, Except.ok.injEq] at h
      exact h ▸ .slot hn
  | plain key => exact Except.ok.inj h ▸ .plain

/-! ## Attributes -/

/-- An attribute is read for itself, and takes up a modifier that is not taken yet. -/
theorem ofAttribute_isRead {taken : List Modifier} {a : Attribute} {reading : Reading}
    {m : Option Modifier} (h : ofAttribute config taken a = .ok (reading, m)) :
    a.IsRead config reading ∧ m = a.modifier? ∧ ∀ m' ∈ m, m' ∉ taken := by
  rcases hrole : Role.ofTag a.tag with problem | role
  · simp [ofAttribute, hrole, bind, Except.bind] at h
  · rcases hcontent : Content.ofAttribute a with problem | content
    · simp [ofAttribute, hrole, hcontent, bind, Except.bind] at h
    · rcases hfound : ofRole config a.tag.qualified role content with problem | found
      · simp [ofAttribute, hrole, hcontent, hfound, bind, Except.bind] at h
      · simp only [ofAttribute, hrole, hcontent, hfound, bind, Except.bind] at h
        split at h
        · simp at h
        · rename_i hfree
          simp only [pure, Except.pure, Except.ok.injEq, Prod.mk.injEq] at h
          obtain ⟨rfl, rfl⟩ := h
          refine ⟨⟨role, content, hrole, hcontent, isRead_of_ofRole hfound⟩, ?_, ?_⟩
          · simp [Attribute.modifier?, hrole, Except.toOption]
          · intro m' hm' htaken
            rw [Option.mem_def.1 hm', Option.any_some] at hfree
            exact hfree (List.contains_iff_mem.2 htaken)

theorem ofAttributes_isRead :
    ∀ {attributes : List Attribute} {taken : List Modifier} {readings : List Reading},
      ofAttributes config taken attributes = .ok readings →
      List.Forall₂ (Attribute.IsRead config) attributes readings ∧
        (attributes.filterMap Attribute.modifier?).Nodup ∧
        ∀ m ∈ attributes.filterMap Attribute.modifier?, m ∉ taken
  | [], _, _, h => by
    obtain rfl := Except.ok.inj h
    simp
  | a :: rest, taken, readings, h => by
    unfold ofAttributes at h
    rcases ha : ofAttribute config taken a with problem | ⟨found, m⟩
    · simp [ha] at h
    · rcases hrest : ofAttributes config (m.toList ++ taken) rest with problem | more
      · simp [ha, hrest, Functor.map, Except.map] at h
      · simp only [ha, hrest, Functor.map, Except.map, Except.ok.injEq] at h
        subst h
        obtain ⟨hread, rfl, hfree⟩ := ofAttribute_isRead ha
        obtain ⟨hreads, hnodup, hmore⟩ := ofAttributes_isRead hrest
        have hsplit : (a :: rest).filterMap Attribute.modifier? =
            a.modifier?.toList ++ rest.filterMap Attribute.modifier? := by
          rw [List.filterMap_cons]
          cases a.modifier? <;> rfl
        rw [hsplit]
        refine ⟨.cons hread hreads, ?_, ?_⟩
        · refine List.nodup_append.2 ⟨by cases a.modifier? <;> simp, hnodup, ?_⟩
          rintro m hm _ hm' rfl
          exact hmore m hm' (List.mem_append_left _ hm)
        · rw [List.forall_mem_append]
          exact ⟨fun m hm => hfree m (Option.mem_toList.1 hm),
            fun m hm htaken => hmore m hm (List.mem_append_right _ htaken)⟩

theorem loopPart_of_isRead {m : Modifier} {part : LoopPart}
    (h : Modifier.IsRead config content m part) : loopPart config m content = .ok part := by
  cases h with
  | statement written parses free =>
    simp [loopPart, written, parses, free, bind, Except.bind, pure, Except.pure]
  | each => rfl
  | item names | index names => simp [loopPart, names, Functor.map, Except.map]
  | idle other => rcases other with rfl | rfl | rfl <;> rfl

theorem ofRole_of_isRead {role : Role} {reading : Reading}
    (h : Role.IsRead config content role reading) (qualified : String) :
    ofRole config qualified role content = .ok reading := by
  cases h with
  | iteration reads => simp [ofRole, loopPart_of_isRead reads, Functor.map, Except.map]
  | @condition d directive | @alternative d directive | @event d _ directive
  | @directed d _ directive => cases d <;> first | rfl | exact absurd rfl directive
  | @modifier d m directive other =>
    cases d with
    | iterate => exact absurd rfl directive
    | set | bind =>
      cases m with
      | condition => exact absurd rfl other.1
      | alternative => exact absurd rfl other.2
      | statement | each | item | index | component => rfl
  | component | plain => rfl
  | slot names => simp [ofRole, names, Functor.map, Except.map]

theorem ofAttribute_of_isRead {taken : List Modifier} {a : Attribute} {reading : Reading}
    (h : a.IsRead config reading) (hfree : ∀ m ∈ a.modifier?, m ∉ taken) :
    ofAttribute config taken a = .ok (reading, a.modifier?) := by
  obtain ⟨role, content, hrole, hcontent, hread⟩ := h
  have hmodifier : a.modifier? = role.modifier? := by
    simp [Attribute.modifier?, hrole, Except.toOption]
  have hnew : role.modifier?.any taken.contains = false := by
    rw [Option.any_eq_false]
    intro m hm
    simpa using hfree m (hmodifier ▸ hm)
  simp [ofAttribute, hrole, hcontent, ofRole_of_isRead hread, hnew, hmodifier, bind, Except.bind,
    pure, Except.pure]

theorem ofAttributes_of_isRead :
    ∀ {attributes : List Attribute} {taken : List Modifier} {readings : List Reading},
      List.Forall₂ (Attribute.IsRead config) attributes readings →
      (attributes.filterMap Attribute.modifier?).Nodup →
      (∀ m ∈ attributes.filterMap Attribute.modifier?, m ∉ taken) →
      ofAttributes config taken attributes = .ok readings
  | [], _, _, .nil, _, _ => rfl
  | a :: rest, taken, reading :: readings, .cons hread hreads, hnodup, hfree => by
    have hsplit : (a :: rest).filterMap Attribute.modifier? =
        a.modifier?.toList ++ rest.filterMap Attribute.modifier? := by
      rw [List.filterMap_cons]
      cases a.modifier? <;> rfl
    rw [hsplit, List.nodup_append] at hnodup
    rw [hsplit, List.forall_mem_append] at hfree
    have hrest : ofAttributes config (a.modifier?.toList ++ taken) rest = .ok readings := by
      refine ofAttributes_of_isRead hreads hnodup.2.1 fun m hm htaken => ?_
      rcases List.mem_append.1 htaken with htaken | htaken
      · exact hnodup.2.2 m htaken m hm rfl
      · exact hfree.2 m hm htaken
    have ha := ofAttribute_of_isRead hread fun m hm => hfree.1 m (Option.mem_toList.2 hm)
    simp [ofAttributes, ha, hrest, Functor.map, Except.map]

/-- Attributes can be read as some readings if each can for itself, and no two of them take up the
same modifier. -/
theorem ofAttributes_eq_ok_iff {attributes : List Attribute} {readings : List Reading} :
    ofAttributes config [] attributes = .ok readings ↔
      List.Forall₂ (Attribute.IsRead config) attributes readings ∧
        (attributes.filterMap Attribute.modifier?).Nodup :=
  ⟨fun h => ⟨(ofAttributes_isRead h).1, (ofAttributes_isRead h).2.1⟩,
    fun h => ofAttributes_of_isRead h.1 h.2 fun _ _ => List.not_mem_nil⟩

variable {attributes : List Attribute} {readings : List Reading}

/-- Every reading is of an attribute. -/
theorem exists_attribute_of_mem (h : ofAttributes config [] attributes = .ok readings)
    {reading : Reading} (hr : reading ∈ readings) :
    ∃ a ∈ attributes, a.IsRead config reading :=
  exists_of_mem_forall₂ (ofAttributes_isRead h).1.flip hr

/-- Every attribute has a reading. -/
theorem exists_reading_of_mem (h : ofAttributes config [] attributes = .ok readings)
    {a : Attribute} (ha : a ∈ attributes) : ∃ reading ∈ readings, a.IsRead config reading :=
  exists_of_mem_forall₂ (ofAttributes_isRead h).1 ha

end Reading

/-! ## Under another configuration -/

namespace Reading

variable {config' : Config} (h : config'.reserved = config.reserved)
include h

theorem loopPart_congr : loopPart config' = loopPart config := by
  funext m content
  have hcheck : checkParameters config' = checkParameters config := by
    funext names
    rw [checkParameters, h, checkParameters]
  have hname : parameterName config' = parameterName config := by
    funext m content
    rw [parameterName, hcheck, parameterName]
  cases m <;> simp only [loopPart, hcheck, hname]

/-- Attributes are read alike where the same names are reserved. -/
theorem ofAttributes_congr (taken : List Modifier) (attributes : List Attribute) :
    ofAttributes config' taken attributes = ofAttributes config taken attributes := by
  have hrole : ofRole config' = ofRole config := by
    funext qualified role content
    unfold ofRole
    rw [loopPart_congr h]
  have hattribute : ofAttribute config' = ofAttribute config := by
    funext taken a
    rw [ofAttribute, hrole, ofAttribute]
  induction attributes generalizing taken with
  | nil => rfl
  | cons a rest ih => simp only [ofAttributes, hattribute, ih]

end Reading

end TemplateCompiler
