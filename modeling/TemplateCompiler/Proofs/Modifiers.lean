import TemplateCompiler.Proofs.Interpreter

/-!
# Attributes and modifiers

Each attribute of an element is read for itself, and a modifier can be taken up only once. So an
element has at most one condition, one else marker, one component and one of each part of an
iteration, and the first that is found is the one that is written (`Reading.findSome?_eq`).
-/

namespace TemplateCompiler

variable {config : Config}

/-- The modifier that a part of an iteration is written with. -/
def LoopPart.modifier? : LoopPart → Option Modifier
  | statement _ => some .statement
  | each _ => some .each
  | item _ => some .item
  | index _ => some .index
  | idle => none

namespace Reading

/-- The modifier that a reading tells. -/
def modifier? : Reading → Option Modifier
  | iteration part => part.modifier?
  | component _ => some .component
  | condition _ => some .condition
  | alternative _ => some .alternative
  | slot _ | property _ => none

/-- A reading tells no modifier but that of its attribute. -/
theorem modifier?_of_isRead {a : Attribute} {reading : Reading} (h : a.IsRead config reading) :
    ∀ m ∈ reading.modifier?, m ∈ a.modifier? := by
  obtain ⟨role, content, hrole, -, hread⟩ := h
  rw [Attribute.modifier?, hrole]
  cases hread with
  | iteration reads => cases reads <;> simp [modifier?, LoopPart.modifier?, Role.modifier?,
      Except.toOption]
  | condition | alternative | component => simp [modifier?, Role.modifier?, Except.toOption]
  | modifier | event | directed | slot | plain => simp [modifier?]

/-- Readings tell each modifier at most once. -/
def TellOnce (readings : List Reading) : Prop :=
  (readings.filterMap modifier?).Nodup

theorem tellOnce_of_isRead {attributes : List Attribute} {readings : List Reading}
    (h : List.Forall₂ (Attribute.IsRead config) attributes readings)
    (hnodup : (attributes.filterMap Attribute.modifier?).Nodup) : TellOnce readings := by
  refine hnodup.sublist ?_
  clear hnodup
  induction h with
  | nil => exact .slnil
  | @cons a reading _ _ head _ ih =>
    have htold := modifier?_of_isRead head
    rw [List.filterMap_cons, List.filterMap_cons]
    rcases hm : reading.modifier? with _ | m
    · cases a.modifier? with
      | none => exact ih
      | some => exact ih.cons _
    · rw [Option.mem_def.1 (htold m hm)]
      exact ih.cons_cons m

/-- What is told is taken up by an attribute. -/
theorem mem_modifiers {attributes : List Attribute} {readings : List Reading}
    (h : List.Forall₂ (Attribute.IsRead config) attributes readings) {m : Modifier}
    (hm : m ∈ readings.filterMap modifier?) : m ∈ attributes.filterMap Attribute.modifier? := by
  obtain ⟨reading, hreading, htold⟩ := List.mem_filterMap.1 hm
  obtain ⟨a, ha, hread⟩ := exists_of_mem_forall₂ h.flip hreading
  exact List.mem_filterMap.2 ⟨a, ha, modifier?_of_isRead hread m htold⟩

/-- A condition in the namespace of an iteration is no condition, and there is no other beside
it. -/
theorem any_isCondition_of_iterate {attributes : List Attribute} {readings : List Reading}
    (h : List.Forall₂ (Attribute.IsRead config) attributes readings)
    (hnodup : (attributes.filterMap Attribute.modifier?).Nodup) {a : Attribute}
    (ha : a ∈ attributes) (hrole : Role.ofTag a.tag = .ok (.modifier .iterate .condition)) :
    readings.any isCondition = false := by
  have htakes : a.modifier? = some .condition := by
    simp [Attribute.modifier?, hrole, Except.toOption, Role.modifier?]
  have htold : ∀ r : Reading, r.isCondition → r.modifier? = some .condition := by
    intro r hr
    cases r <;> simp [isCondition] at hr
    rfl
  induction h with
  | nil => simp at ha
  | @cons first reading rest more head tail ih =>
    rw [List.any_cons, Bool.or_eq_false_iff]
    rcases List.mem_cons.1 ha with rfl | ha
    · rw [List.filterMap_cons, htakes] at hnodup
      obtain ⟨role, content, hrole', -, hread⟩ := head
      obtain rfl := Except.ok.inj (hrole'.symm.trans hrole)
      have hidle : reading.isCondition = false := by
        cases hread with
        | iteration => rfl
        | condition directive | modifier directive => exact absurd rfl directive
      refine ⟨hidle, List.any_eq_false.2 fun r hr hcondition => ?_⟩
      exact (List.nodup_cons.1 hnodup).1
        (mem_modifiers tail (List.mem_filterMap.2 ⟨r, hr, htold r hcondition⟩))
    · have hmem : .condition ∈ rest.filterMap Attribute.modifier? :=
        List.mem_filterMap.2 ⟨a, ha, htakes⟩
      have hsub := (List.sublist_cons_self first rest).filterMap Attribute.modifier?
      refine ⟨Bool.eq_false_iff.2 fun hcondition => ?_, ih (hnodup.sublist hsub) ha⟩
      rw [List.filterMap_cons,
        Option.mem_def.1 (modifier?_of_isRead head _ (htold _ hcondition))] at hnodup
      exact (List.nodup_cons.1 hnodup).1 hmem

section

variable {readings : List Reading}

/-- Of a kind of reading that is told by a modifier, the one that is written is found. -/
theorem findSome?_eq {α : Type} {g : Reading → Option α} (m : Modifier)
    (hg : ∀ r, (g r).isSome → r.modifier? = some m) (h : TellOnce readings) {r : Reading}
    (hr : r ∈ readings) (hsome : (g r).isSome) : readings.findSome? g = g r := by
  induction readings with
  | nil => simp at hr
  | cons first rest ih =>
    rw [List.findSome?_cons]
    rcases List.mem_cons.1 hr with rfl | hrest
    · obtain ⟨a, ha⟩ := Option.isSome_iff_exists.1 hsome
      rw [ha]
    · rcases hfirst : g first with _ | a
      · exact ih (h.sublist ((List.sublist_cons_self first rest).filterMap _)) hrest
      · -- two readings would tell the same modifier
        have hmem : m ∈ rest.filterMap modifier? := List.mem_filterMap.2 ⟨r, hrest, hg r hsome⟩
        rw [TellOnce, List.filterMap_cons, hg first (by simp [hfirst])] at h
        exact absurd hmem (List.nodup_cons.1 h).1

variable (h : TellOnce readings)

include h

theorem condition?_eq {content : Content} (hr : .condition content ∈ readings) :
    condition? readings = some content :=
  findSome?_eq .condition (fun r hsome => by cases r <;> simp at hsome; rfl) h hr rfl

theorem component?_eq {content : Content} (hr : .component content ∈ readings) :
    component? readings = some content :=
  findSome?_eq .component (fun r hsome => by cases r <;> simp at hsome; rfl) h hr rfl

end

end Reading

/-! ## Iterations as they are written -/

namespace LoopPart

/-- What a part of an iteration says of what is iterated over and of the names that it binds. -/
def Says (content : Content) (parameters : List String) : LoopPart → Prop
  | statement s => content = .constant (.text s.iterable) ∧ parameters = s.parameters
  | each written => content = written
  | item name => parameters.head? = some name
  | index name => parameters[1]? = some name
  | idle => True

variable {readings : List Reading}

theorem findSome?_eq {α : Type} {g : LoopPart → Option α} (m : Modifier)
    (hg : ∀ part, (g part).isSome → part.modifier? = some m) (h : Reading.TellOnce readings)
    {part : LoopPart} (hpart : part ∈ Reading.loopParts readings) (hsome : (g part).isSome) :
    (Reading.loopParts readings).findSome? g = g part := by
  obtain ⟨r, hr, hiteration⟩ := List.mem_filterMap.1 hpart
  cases r <;> simp at hiteration
  subst hiteration
  rw [← List.head?_filterMap, Reading.loopParts, List.filterMap_filterMap, List.head?_filterMap]
  refine (Reading.findSome?_eq m (fun r hsome => ?_) h hr hsome).trans rfl
  cases r <;> simp at hsome
  exact hg _ hsome

/-- What is found of a part's kind is the part. -/
def Found (parts : List LoopPart) : LoopPart → Prop
  | statement s => statement? parts = some s
  | each content => each? parts = some content
  | item name => item? parts = some name
  | index name => index? parts = some name
  | idle => True

theorem found_of_mem (h : Reading.TellOnce readings) :
    ∀ part ∈ Reading.loopParts readings, part.Found (Reading.loopParts readings) := by
  intro part hpart
  cases part with
  | statement =>
    exact findSome?_eq .statement (fun q hsome => by cases q <;> simp at hsome; rfl) h hpart rfl
  | each =>
    exact findSome?_eq .each (fun q hsome => by cases q <;> simp at hsome; rfl) h hpart rfl
  | item =>
    exact findSome?_eq .item (fun q hsome => by cases q <;> simp at hsome; rfl) h hpart rfl
  | index =>
    exact findSome?_eq .index (fun q hsome => by cases q <;> simp at hsome; rfl) h hpart rfl
  | idle => trivial

/-- An iteration is as the parts say that are found. -/
theorem says_of_found {parts : List LoopPart} {content : Content} {names : List String}
    (hcontent : iterable? parts = .ok (some content)) (hnames : parameters parts = .ok names)
    {part : LoopPart} (hpart : part.Found parts) : part.Says content names := by
  unfold iterable? at hcontent
  unfold parameters at hnames
  split at hcontent
  · simp at hcontent
  · split at hcontent
    · -- a statement stands alone
      rename_i s hs
      rw [hs] at hnames
      obtain rfl := Except.ok.inj hnames
      split at hcontent
      · simp at hcontent
      · rename_i hnoOther
        obtain rfl := Option.some.inj (Except.ok.inj hcontent)
        cases part with
        | statement other =>
          obtain rfl := Option.some.inj (hs.symm.trans hpart)
          exact ⟨rfl, rfl⟩
        | each => exact absurd (by simp [show each? parts = _ from hpart]) hnoOther
        | item => exact absurd (by simp [show item? parts = _ from hpart]) hnoOther
        | index => exact absurd (by simp [show index? parts = _ from hpart]) hnoOther
        | idle => trivial
    · rename_i hs
      rw [hs] at hnames
      simp only at hnames
      split at hnames
      · obtain rfl := Except.ok.inj hnames
        split at hcontent
        · simp at hcontent
        · rename_i written hwritten
          split at hcontent
          · rename_i hitem
            obtain rfl := Option.some.inj (Except.ok.inj hcontent)
            obtain ⟨first, hfirst⟩ := Option.isSome_iff_exists.1 hitem
            cases part with
            | statement => exact nomatch hs.symm.trans hpart
            | each => exact Option.some.inj (hwritten.symm.trans hpart)
            | item => simp [Says, show item? parts = _ from hpart]
            | index => simp [Says, hfirst, show index? parts = _ from hpart]
            | idle => trivial
          · simp at hcontent
      · simp at hnames

end LoopPart

end TemplateCompiler
