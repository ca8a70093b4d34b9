import TemplateCompiler.Proofs.ForReading
import TemplateCompiler.Proofs.Interpreter
import TemplateCompiler.Proofs.Revision

/-!
# The two forms of an iteration

An iteration that is written as one statement and the same one that is written as each, item and
index compile to the same, wherever the element stands and whatever else it carries
(`iteration_forms_agree`). A name that may not be bound is refused in either form, and so are two
names that are the same.
-/

namespace TemplateCompiler

/-! ## The forms -/

/-- An attribute of an iteration, by its name and the text that it says. -/
structure Attribute.Tells (a : Attribute) (name text : String) : Prop where
  iterates : a.iterates
  name : a.tag.name = name
  value : ∃ pos, a.value = .node (.literal pos (.text text))

/-- An attribute whose namespace makes it a directive. -/
def Attribute.isDirected (a : Attribute) : Bool :=
  ((Text.given a.tag.ns).bind Directive.ofNamespace?).isSome

/-- A text that an iteration can name its iterable by. -/
def IsIterable (text : String) : Prop :=
  (identifierPath? text).isSome ∨ Binding.isDashed text

/-- One iteration as a statement and in its parts. -/
inductive SameIteration : Attribute → List Attribute → Prop where
  | one {statement each item : Attribute} {a word iterable : String} (ha : isIdentifier a)
      (hword : word ∈ ForStatement.separators) (hiterable : IsIterable iterable)
      (hstatement : statement.Tells "for" s!"{a} {word} {iterable}")
      (heach : each.Tells "each" iterable) (hitem : item.Tells "item" a) :
      SameIteration statement [each, item]
  | two {statement each item index : Attribute} {a b word iterable : String} (ha : isIdentifier a)
      (hb : isIdentifier b) (hword : word ∈ ForStatement.separators)
      (hiterable : IsIterable iterable)
      (hstatement : statement.Tells "for" s!"({a}, {b}) {word} {iterable}")
      (heach : each.Tells "each" iterable) (hitem : item.Tells "item" a)
      (hindex : index.Tells "index" b) :
      SameIteration statement [each, item, index]

/-- The names of the attributes that iterations are made of. -/
def iterationNames : List String := ["for", "each", "item", "index"]

/-- Attributes with an iteration among them as a statement and in its parts, where no other
directive has the name of a part. -/
inductive RespellsIteration : List Attribute → List Attribute → Prop where
  | mk {left right statement parts} (same : SameIteration statement parts)
      (apart : ∀ a ∈ left ++ right, a.isDirected → a.tag.name ∉ iterationNames) :
      RespellsIteration (left ++ [statement] ++ right) (left ++ parts ++ right)

variable {config : Config} {env : Env}

/-! ## Attributes of iterations -/

theorem isWord_of_isIterable {text : String} (h : IsIterable text) : IsWord text :=
  h.elim isWord_of_identifierPath? isWord_of_isDashed

namespace Attribute.Tells

variable {a : Attribute} {name text : String} {m : Modifier} (h : a.Tells name text)
  (hm : Modifier.ofName? name = some m)
include h hm

theorem role : Role.ofTag a.tag = .ok (.modifier .iterate m) := by
  have hiterates := h.iterates
  simp only [Attribute.iterates, beq_iff_eq] at hiterates
  rw [Role.ofTag_of_directive hiterates, Role.ofDirective, h.name, hm]

theorem modifier? : a.modifier? = some m := by
  simp [Attribute.modifier?, h.role hm, Except.toOption, Role.modifier?]

theorem isRead_iff {reading : Reading} : a.IsRead config reading ↔ ∃ part,
    reading = .iteration part ∧ Modifier.IsRead config (.constant (.text text)) m part := by
  obtain ⟨pos, hvalue⟩ := h.value
  have hcontent : Content.ofAttribute a = .ok (.constant (.text text)) := by
    simp [Content.ofAttribute, hvalue]
  constructor
  · rintro ⟨role, content, hrole, hfound, hread⟩
    obtain rfl := Except.ok.inj ((h.role hm).symm.trans hrole)
    obtain rfl := Except.ok.inj (hcontent.symm.trans hfound)
    cases hread with
    | iteration reads => exact ⟨_, rfl, reads⟩
    | condition directive | alternative directive | modifier directive =>
      exact absurd rfl directive
  · rintro ⟨part, rfl, reads⟩
    exact ⟨_, _, h.role hm, hcontent, .iteration reads⟩

end Attribute.Tells

/-- The modifiers that only the parts of an iteration take up. -/
def iterationModifiers : List Modifier := [.statement, .each, .item, .index]

theorem Modifier.ofName?_of_mem {name : String} {m : Modifier} (h : Modifier.ofName? name = some m)
    (hm : m ∈ iterationModifiers) : name ∈ iterationNames := by
  unfold Modifier.ofName? at h
  split at h
  · obtain rfl := Option.some.inj h
    exact absurd hm (by decide)
  · obtain rfl := Option.some.inj h
    exact absurd hm (by decide)
  · simp [iterationNames]
  · simp [iterationNames]
  · simp [iterationNames]
  · simp [iterationNames]
  · simp at h

/-- Attributes without the name of a part leave the parts to others. -/
theorem Attribute.modifier?_notMem {a : Attribute}
    (h : a.isDirected → a.tag.name ∉ iterationNames) :
    ∀ m ∈ a.modifier?, m ∉ iterationModifiers := by
  intro m hm hmem
  rcases hrole : Role.ofTag a.tag with problem | role
  · simp [Attribute.modifier?, hrole, Except.toOption] at hm
  · simp only [Attribute.modifier?, hrole, Except.toOption, Option.bind_some] at hm
    cases role with
    | modifier d m' =>
      obtain rfl := Option.some.inj hm
      obtain ⟨hdirective, hname⟩ := Role.directed_of_modifier hrole
      exact h (by simp [Attribute.isDirected, hdirective]) (Modifier.ofName?_of_mem hname hmem)
    | component =>
      obtain rfl := Option.some.inj hm
      exact absurd hmem (by decide)
    | event | directed | slot | plain => simp [Role.modifier?] at hm

theorem Attribute.IsRead.eq_idle {a : Attribute} {part : LoopPart}
    (hread : a.IsRead config (.iteration part))
    (h : a.isDirected → a.tag.name ∉ iterationNames) : part = .idle := by
  obtain ⟨role, content, hrole, -, hread⟩ := hread
  cases hread with
  | @iteration m _ reads =>
    have hnot : m ∉ iterationModifiers := by
      refine Attribute.modifier?_notMem h m ?_
      simp [Attribute.modifier?, hrole, Except.toOption, Role.modifier?]
    cases reads with
    | idle => rfl
    | statement | each | item | index => exact absurd (by decide) hnot

/-! ## Parts among idle ones -/

namespace LoopPart

variable {left right : List LoopPart} (hleft : ∀ part ∈ left, part = idle)
  (hright : ∀ part ∈ right, part = idle)
include hleft hright

/-- Idle parts are passed over in a search for another. -/
theorem findSome?_among_idle {α : Type} {f : LoopPart → Option α} (hf : f idle = none)
    (middle : List LoopPart) :
    (left ++ middle ++ right).findSome? f = middle.findSome? f := by
  have hnone : ∀ {parts : List LoopPart}, (∀ part ∈ parts, part = idle) →
      parts.findSome? f = none := fun hparts => List.findSome?_eq_none_iff.2 fun part hp => by
    rw [hparts part hp, hf]
  rw [List.findSome?_append, List.findSome?_append, hnone hleft, hnone hright, Option.none_or,
    Option.or_none]

theorem iterable?_among_idle {middle : List LoopPart} (hne : middle ≠ []) :
    iterable? (left ++ middle ++ right) = iterable? middle := by
  have hstatement : statement? (left ++ middle ++ right) = statement? middle :=
    findSome?_among_idle hleft hright rfl middle
  have heach : each? (left ++ middle ++ right) = each? middle :=
    findSome?_among_idle hleft hright rfl middle
  have hitem : item? (left ++ middle ++ right) = item? middle :=
    findSome?_among_idle hleft hright rfl middle
  have hindex : index? (left ++ middle ++ right) = index? middle :=
    findSome?_among_idle hleft hright rfl middle
  have hempty : (left ++ middle ++ right).isEmpty = middle.isEmpty := by
    rw [Bool.eq_iff_iff]
    simp [hne]
  rw [iterable?, hempty, hstatement, heach, hitem, hindex, iterable?]

theorem parameters_among_idle (middle : List LoopPart) :
    parameters (left ++ middle ++ right) = parameters middle := by
  have hstatement : statement? (left ++ middle ++ right) = statement? middle :=
    findSome?_among_idle hleft hright rfl middle
  have hitem : item? (left ++ middle ++ right) = item? middle :=
    findSome?_among_idle hleft hright rfl middle
  have hindex : index? (left ++ middle ++ right) = index? middle :=
    findSome?_among_idle hleft hright rfl middle
  rw [parameters, hstatement, hitem, hindex, parameters]

end LoopPart

/-! ## Readings of iterations -/

namespace Reading

/-- Readings that are all parts of an iteration. -/
def ofParts (parts : List LoopPart) : List Reading :=
  parts.map iteration

theorem findSome?_ofParts {α : Type} {f : Reading → Option α}
    (hf : ∀ part, f (iteration part) = none) (L R : List Reading) (parts : List LoopPart) :
    (L ++ ofParts parts ++ R).findSome? f = (L ++ R).findSome? f := by
  have hnone : (ofParts parts).findSome? f = none := by
    rw [List.findSome?_eq_none_iff]
    rintro reading hr
    obtain ⟨part, -, rfl⟩ := List.mem_map.1 hr
    exact hf part
  rw [List.findSome?_append, List.findSome?_append, hnone, Option.or_none, List.findSome?_append]

theorem filterMap_ofParts {α : Type} {f : Reading → Option α}
    (hf : ∀ part, f (iteration part) = none) (L R : List Reading) (parts : List LoopPart) :
    (L ++ ofParts parts ++ R).filterMap f = (L ++ R).filterMap f := by
  have hnone : (ofParts parts).filterMap f = [] := by
    rw [List.filterMap_eq_nil_iff]
    rintro reading hr
    obtain ⟨part, -, rfl⟩ := List.mem_map.1 hr
    exact hf part
  rw [List.filterMap_append, List.filterMap_append, hnone, List.append_nil, List.filterMap_append]

theorem loopParts_ofParts (L R : List Reading) (parts : List LoopPart) :
    loopParts (L ++ ofParts parts ++ R) = loopParts L ++ parts ++ loopParts R := by
  have hparts : loopParts (ofParts parts) = parts := by
    simp [loopParts, ofParts, List.filterMap_map]
  simp only [loopParts, List.filterMap_append] at hparts ⊢
  rw [hparts]

theorem resolveReadings_ofParts (env : Env) (site : Site) (pos : Position) (isComponent : Bool)
    (L R : List Reading) (parts : List LoopPart) :
    CompileM.resolveReadings env site pos isComponent (L ++ ofParts parts ++ R) =
      CompileM.resolveReadings env site pos isComponent (L ++ R) := by
  induction L with
  | nil =>
    induction parts with
    | nil => rfl
    | cons part rest ih =>
      calc CompileM.resolveReadings env site pos isComponent (ofParts (part :: rest) ++ R)
        _ = CompileM.resolveReadings env site pos isComponent (ofParts rest ++ R) := by
          rw [ofParts, List.map_cons, List.cons_append, CompileM.resolveReadings,
            CompileM.resolveReading, pure_bind]
          simp only [List.nil_append, bind_pure]
          rfl
        _ = _ := ih
  | cons reading rest ih =>
    rw [List.append_assoc] at ih
    rw [List.append_assoc, List.cons_append, CompileM.resolveReadings, ih, List.cons_append,
      CompileM.resolveReadings]

/-- Parts that come to the same iterable and the same parameters make no difference between the
same readings, if these have no part that counts. -/
theorem alike_ofParts {L R : List Reading} (parts : List LoopPart) {parts' : List LoopPart}
    (hL : ∀ part ∈ loopParts L, part = .idle) (hR : ∀ part ∈ loopParts R, part = .idle)
    (hne : parts ≠ []) (hne' : parts' ≠ [])
    (hiterable : LoopPart.iterable? parts' = LoopPart.iterable? parts)
    (hparameters : LoopPart.parameters parts' = LoopPart.parameters parts) :
    Alike env (L ++ ofParts parts ++ R) (L ++ ofParts parts' ++ R) where
  component := by
    simp only [component?]
    rw [findSome?_ofParts fun _ => rfl, findSome?_ofParts fun _ => rfl]
  isDirective := by
    obtain ⟨part, rest, rfl⟩ := List.exists_cons_of_ne_nil hne
    obtain ⟨part', rest', rfl⟩ := List.exists_cons_of_ne_nil hne'
    simp [ofParts, isDirective]
  slot := by
    simp only [slotOf]
    rw [filterMap_ofParts fun _ => rfl, filterMap_ofParts fun _ => rfl]
  outlet := by
    simp only [outletName]
    rw [filterMap_ofParts fun _ => rfl, filterMap_ofParts fun _ => rfl]
  loop place pos := by
    refine .of_eq ?_
    rw [CompileM.openLoop, loopParts_ofParts, LoopPart.iterable?_among_idle hL hR hne',
      LoopPart.parameters_among_idle hL hR, hiterable, hparameters, CompileM.openLoop,
      loopParts_ofParts, LoopPart.iterable?_among_idle hL hR hne,
      LoopPart.parameters_among_idle hL hR]
  parts site pos isComponent := by
    refine .of_eq ?_
    rw [resolveReadings_ofParts, resolveReadings_ofParts]

end Reading

/-! ## The forms agree -/

/-- Names that an iteration may bind. -/
def Config.Allows (config : Config) (names : List String) : Prop :=
  Reading.checkParameters config names = .ok ()

theorem Config.allows_iff {names : List String} :
    config.Allows names ↔ ∀ name ∈ names, name ∉ config.reserved := by
  refine ⟨Reading.notMem_reserved_of_checkParameters, fun h => ?_⟩
  have hnone : names.find? config.reserved.contains = none := by
    simpa [List.find?_eq_none] using h
  rw [Config.Allows, Reading.checkParameters, hnone]

theorem parameterName_eq_ok_iff (config : Config) (m : Modifier) {text : String}
    (h : isIdentifier text) (name : String) :
    Reading.parameterName config m (.constant (.text text)) = .ok name ↔
      config.Allows [text] ∧ name = text := by
  have hname : Reading.parameterName config m (.constant (.text text)) =
      (Reading.checkParameters config [text] >>= fun _ => pure text) := by
    simp [Reading.parameterName, Content.text?, Constant.text?, h]
  rw [hname, Config.Allows]
  rcases Reading.checkParameters config [text] with problem | u
  · simp [bind, Except.bind]
  · simp [bind, Except.bind, pure, Except.pure, eq_comm]

namespace Attribute.Tells

variable {a : Attribute} {name text : String} {reading : Reading}

/-- What the text of a statement is read as. -/
theorem isRead_statement_iff (h : a.Tells "for" text) : a.IsRead config reading ↔
    ∃ s, reading = .iteration (.statement s) ∧ ForStatement.parse text = .ok s ∧
      config.Allows s.parameters := by
  rw [h.isRead_iff rfl]
  constructor
  · rintro ⟨part, rfl, reads⟩
    cases reads with
    | statement written parses free =>
      obtain rfl := Option.some.inj written
      exact ⟨_, rfl, parses, free⟩
    | idle other => simp at other
  · rintro ⟨s, rfl, parses, free⟩
    exact ⟨_, rfl, .statement rfl parses free⟩

theorem isRead_each_iff (h : a.Tells "each" text) :
    a.IsRead config reading ↔ reading = .iteration (.each (.constant (.text text))) := by
  rw [h.isRead_iff rfl]
  constructor
  · rintro ⟨part, rfl, reads⟩
    cases reads with
    | each => rfl
    | idle other => simp at other
  · rintro rfl
    exact ⟨_, rfl, .each⟩

/-- What the text of an item or an index is read as. -/
theorem isRead_name_iff {m : Modifier} {mk : String → LoopPart} (h : a.Tells name text)
    (hm : Modifier.ofName? name = some m)
    (hpart : ∀ content, Reading.loopPart config m content =
      mk <$> Reading.parameterName config m content) (htext : isIdentifier text) :
    a.IsRead config reading ↔ reading = .iteration (mk text) ∧ config.Allows [text] := by
  have hparameter := parameterName_eq_ok_iff config m htext
  rw [h.isRead_iff hm]
  constructor
  · rintro ⟨part, rfl, reads⟩
    have hread := Reading.loopPart_of_isRead reads
    rw [hpart] at hread
    rcases hname : Reading.parameterName config m (.constant (.text text)) with problem | found
    · simp [hname, Functor.map, Except.map] at hread
    · simp only [hname, Functor.map, Except.map, Except.ok.injEq] at hread
      obtain ⟨hallows, rfl⟩ := (hparameter found).1 hname
      exact ⟨by rw [hread], hallows⟩
  · rintro ⟨rfl, hallows⟩
    refine ⟨_, rfl, Reading.isRead_of_loopPart ?_⟩
    rw [hpart, (hparameter text).2 ⟨hallows, rfl⟩]
    rfl

end Attribute.Tells

/-- The parts that an iteration over a text with some names is written with. -/
def partsOf (iterable : String) : List String → List LoopPart
  | [a] => [.each (.constant (.text iterable)), .item a]
  | [a, b] => [.each (.constant (.text iterable)), .item a, .index b]
  | _ => []

/-- An iteration in either form: the names that it binds, the text that it iterates over, and what
each form is read as. -/
structure ReadsIteration (s : Attribute) (ps : List Attribute) (names : List String)
    (iterable : String) : Prop where
  one_or_two : (∃ a, names = [a]) ∨ ∃ a b, names = [a, b]
  statement : ∀ {config : Config} {reading}, s.IsRead config reading ↔
    reading = .iteration (.statement ⟨iterable, names⟩) ∧ names.Nodup ∧ config.Allows names
  parts : ∀ {config : Config} {readings}, List.Forall₂ (Attribute.IsRead config) ps readings ↔
    readings = Reading.ofParts (partsOf iterable names) ∧ config.Allows names
  modifier : s.modifier? = some .statement
  modifiers : (ps.filterMap Attribute.modifier?).Nodup ∧
    ∀ m ∈ ps.filterMap Attribute.modifier?, m ∈ iterationModifiers

theorem SameIteration.exists_reads {s : Attribute} {ps : List Attribute}
    (h : SameIteration s ps) : ∃ names iterable, ReadsIteration s ps names iterable := by
  cases h with
  | @one each item a word iterable ha hword hiterable hstatement heach hitem =>
    refine ⟨[a], iterable, .inl ⟨a, rfl⟩, ?_, ?_, hstatement.modifier? rfl, ?_⟩
    · intro config reading
      rw [hstatement.isRead_statement_iff,
        ForStatement.parse_one ha hword (isWord_of_isIterable hiterable)]
      simp [eq_comm]
    · intro config readings
      simp only [List.forall₂_cons_left_iff, List.forall₂_nil_left_iff, heach.isRead_each_iff,
        hitem.isRead_name_iff rfl (fun _ => rfl) ha]
      constructor
      · rintro ⟨_, _, rfl, ⟨_, _, ⟨rfl, hallows⟩, rfl, rfl⟩, rfl⟩
        exact ⟨rfl, hallows⟩
      · rintro ⟨rfl, hallows⟩
        exact ⟨_, _, rfl, ⟨_, _, ⟨rfl, hallows⟩, rfl, rfl⟩, rfl⟩
    · simp [heach.modifier? rfl, hitem.modifier? rfl, iterationModifiers]
  | @two each item index a b word iterable ha hb hword hiterable hstatement heach hitem hindex =>
    refine ⟨[a, b], iterable, .inr ⟨a, b, rfl⟩, ?_, ?_, hstatement.modifier? rfl, ?_⟩
    · intro config reading
      rw [hstatement.isRead_statement_iff,
        ForStatement.parse_two ha hb hword (isWord_of_isIterable hiterable)]
      by_cases hab : a = b
      · simp [hab]
      · simp [hab, eq_comm]
    · intro config readings
      simp only [List.forall₂_cons_left_iff, List.forall₂_nil_left_iff, heach.isRead_each_iff,
        hitem.isRead_name_iff rfl (fun _ => rfl) ha, hindex.isRead_name_iff rfl (fun _ => rfl) hb]
      have hboth : config.Allows [a, b] ↔ config.Allows [a] ∧ config.Allows [b] := by
        simp [Config.allows_iff]
      rw [hboth]
      constructor
      · rintro ⟨_, _, rfl, ⟨_, _, ⟨rfl, ha⟩, ⟨_, _, ⟨rfl, hb⟩, rfl, rfl⟩, rfl⟩, rfl⟩
        exact ⟨rfl, ha, hb⟩
      · rintro ⟨rfl, ha, hb⟩
        exact ⟨_, _, rfl, ⟨_, _, ⟨rfl, ha⟩, ⟨_, _, ⟨rfl, hb⟩, rfl, rfl⟩, rfl⟩, rfl⟩
    · simp [heach.modifier? rfl, hitem.modifier? rfl, hindex.modifier? rfl, iterationModifiers]

variable {s : Attribute} {ps left right : List Attribute} {names : List String} {iterable : String}

/-- The parts of an iteration come to what its statement comes to, if the names differ. -/
theorem iterable?_partsOf (iterable : String)
    (h : (∃ a, names = [a]) ∨ ∃ a b, names = [a, b]) :
    partsOf iterable names ≠ [] ∧
      LoopPart.iterable? (partsOf iterable names) =
        LoopPart.iterable? [.statement ⟨iterable, names⟩] ∧
      LoopPart.parameters (partsOf iterable names) =
        if names.Nodup then LoopPart.parameters [.statement ⟨iterable, names⟩]
        else .error .sameParameters := by
  rcases h with ⟨a, rfl⟩ | ⟨a, b, rfl⟩ <;> exact ⟨by simp [partsOf], rfl, rfl⟩

theorem loopParts_eq_idle {attributes : List Attribute} {readings : List Reading}
    (hreads : List.Forall₂ (Attribute.IsRead config) attributes readings)
    (h : ∀ a ∈ attributes, a.isDirected → a.tag.name ∉ iterationNames) :
    ∀ part ∈ Reading.loopParts readings, part = .idle := by
  intro part hpart
  obtain ⟨reading, hr, hsome⟩ := List.mem_filterMap.1 hpart
  obtain ⟨a, ha, hread⟩ := exists_of_mem_forall₂ hreads.flip hr
  cases reading with
  | iteration found =>
    obtain rfl := Option.some.inj hsome
    exact Attribute.IsRead.eq_idle hread (h a ha)
  | component | condition | alternative | slot | property => simp at hsome

/-- The modifiers of an iteration are its own in either form. -/
theorem ReadsIteration.nodup_iff (h : ReadsIteration s ps names iterable)
    (apart : ∀ a ∈ left ++ right, a.isDirected → a.tag.name ∉ iterationNames) :
    ((left ++ ps ++ right).filterMap Attribute.modifier?).Nodup ↔
      ((left ++ [s] ++ right).filterMap Attribute.modifier?).Nodup := by
  have hothers : ∀ m ∈ (left ++ right).filterMap Attribute.modifier?, m ∉ iterationModifiers := by
    intro m hm
    obtain ⟨a, ha, hmodifier⟩ := List.mem_filterMap.1 hm
    exact Attribute.modifier?_notMem (apart a ha) m hmodifier
  have key : ∀ {middle : List Attribute}, (middle.filterMap Attribute.modifier?).Nodup →
      (∀ m ∈ middle.filterMap Attribute.modifier?, m ∈ iterationModifiers) →
      (((left ++ middle ++ right).filterMap Attribute.modifier?).Nodup ↔
        ((left ++ right).filterMap Attribute.modifier?).Nodup) := by
    intro middle hnodup hmem
    have hperm : ((left ++ middle ++ right).filterMap Attribute.modifier?).Perm
        (middle.filterMap Attribute.modifier? ++
          (left ++ right).filterMap Attribute.modifier?) := by
      simp only [List.filterMap_append, ← List.append_assoc]
      exact List.perm_append_comm.append_right _
    rw [hperm.nodup_iff, List.nodup_append]
    refine ⟨fun h => h.2.1, fun h => ⟨hnodup, h, ?_⟩⟩
    rintro m hm _ hm' rfl
    exact hothers m hm' (hmem m hm)
  have hstatement : [s].filterMap Attribute.modifier? = [.statement] := by
    simp [h.modifier]
  rw [key h.modifiers.1 h.modifiers.2, key (by simp [hstatement]) (by
    simp [hstatement, iterationModifiers])]

/-- Two names that are the same are refused, at the latest where the iteration is opened. -/
theorem ReadsIteration.not_yields (h : ReadsIteration s ps names iterable)
    (apart : ∀ a ∈ left ++ right, a.isDirected → a.tag.name ∉ iterationNames)
    (hsame : ¬ names.Nodup) {place : Place} {pos : Position} {tag : Tag}
    {children : CompileM (List Sibling)} {c c' : Context} {sibling : Sibling} :
    ¬ CompileM.Yields (CompileM.lowerElement env place pos tag (left ++ ps ++ right) children) c
      sibling c' := by
  intro hyields
  rw [CompileM.lowerElement, CompileM.yields_bind] at hyields
  obtain ⟨⟨readings, kind⟩, c₁, hread, hyields⟩ := hyields
  obtain ⟨hreads, -⟩ := Reading.ofAttributes_eq_ok_iff.1 (CompileM.readElement_yields hread).1
  obtain ⟨LM, R, rfl, hLM, hR⟩ := forall₂_append_left hreads
  obtain ⟨L, M, rfl, hL, hM⟩ := forall₂_append_left hLM
  rw [List.forall_mem_append] at apart
  obtain ⟨rfl, -⟩ := h.parts.1 hM
  obtain ⟨hne, hiterable, hparameters⟩ := iterable?_partsOf iterable h.one_or_two
  rw [if_neg hsame] at hparameters
  obtain ⟨loop, c₂, hopen, -⟩ := CompileM.yields_bind.1 hyields
  have hidle := loopParts_eq_idle hL apart.1
  have hidle' := loopParts_eq_idle hR apart.2
  rw [CompileM.openLoop, Reading.loopParts_ofParts,
    LoopPart.iterable?_among_idle hidle hidle' hne, hiterable,
    LoopPart.parameters_among_idle hidle hidle', hparameters] at hopen
  simp [LoopPart.iterable?, LoopPart.statement?, LoopPart.each?, LoopPart.item?,
    LoopPart.index?] at hopen

theorem RespellsIteration.interchangeable {attributes attributes' : List Attribute}
    (h : RespellsIteration attributes attributes') :
    Interchangeable env attributes attributes' := by
  obtain @⟨left, right, s, ps, same, apart⟩ := h
  obtain ⟨names, iterable, hreads⟩ := same.exists_reads
  by_cases hnodup : names.Nodup
  · obtain ⟨hne, hiterable, hparameters⟩ := iterable?_partsOf iterable hreads.one_or_two
    rw [if_pos hnodup] at hparameters
    rw [List.forall_mem_append] at apart
    refine interchangeable_between (hreads.nodup_iff (List.forall_mem_append.2 apart))
      (fun hM => ?_) fun hM' => ?_
    · obtain ⟨reading, _, hread, hnil, rfl⟩ := List.forall₂_cons_left_iff.1 hM
      obtain rfl := List.forall₂_nil_left_iff.1 hnil
      obtain ⟨rfl, -, hallows⟩ := hreads.statement.1 hread
      refine ⟨_, hreads.parts.2 ⟨rfl, hallows⟩, fun hL hR => ?_⟩
      exact Reading.alike_ofParts [.statement ⟨iterable, names⟩] (loopParts_eq_idle hL apart.1)
        (loopParts_eq_idle hR apart.2) (by simp) hne hiterable hparameters
    · obtain ⟨rfl, hallows⟩ := hreads.parts.1 hM'
      exact ⟨_, .cons (hreads.statement.2 ⟨rfl, hnodup, hallows⟩) .nil⟩
  · intro place pos tag children
    refine .of_never (fun hyields => ?_) (hreads.not_yields apart hnodup)
    obtain ⟨readings, hread⟩ := CompileM.exists_readings hyields
    obtain ⟨reading, -, hstatement⟩ :=
      Reading.exists_reading_of_mem hread (a := s) (by simp)
    exact hnodup (hreads.statement.1 hstatement).2.1

/-- A template with an iteration as a statement and the same template with its parts instead compile
to the same module, names and dependencies, or neither of them compiles. -/
theorem iteration_forms_agree {t t' : Template} (h : t.Revises RespellsIteration t')
    (compiled : Compiled) :
    (compile env t').1 = .ok compiled ↔ (compile env t).1 = .ok compiled :=
  h.ok_iff RespellsIteration.interchangeable compiled

/-- A list item that repeats, with an attribute on either side of the iteration. -/
def repeatedTemplate (iteration : List Attribute) : Template :=
  .ofRoot [.plain "ul" [] [.plain "li"
    ([.named "class" "row"] ++ iteration ++ [.text "bind" "title" "of"]) [.name "i"]]]

theorem tells_text {ns name text : String}
    (h : (Text.given (some ns)).bind Directive.ofNamespace? = some .iterate) :
    (Attribute.text ns name text).Tells name text :=
  ⟨beq_iff_eq.2 h, rfl, _, rfl⟩

/-- The item may be called like the separator. -/
theorem repeatedTemplate_revises :
    (repeatedTemplate [.text "repeat" "for" "(of, i) of page.rows"]).Revises RespellsIteration
      (repeatedTemplate [.text "for" "each" "page.rows", .text "for" "item" "of",
        .text "for" "index" "i"]) := by
  have hsame : SameIteration (.text "repeat" "for" "(of, i) of page.rows")
      [.text "for" "each" "page.rows", .text "for" "item" "of", .text "for" "index" "i"] :=
    .two (a := "of") (b := "i") (by decide +kernel) (by decide +kernel) (by decide : "of" ∈ _)
      (.inl (by decide +kernel)) (tells_text (by decide +kernel)) (tells_text (by decide +kernel))
      (tells_text (by decide +kernel)) (tells_text (by decide +kernel))
  have hrespells := @RespellsIteration.mk [.named "class" "row"] [.text "bind" "title" "of"] _ _
    hsame (by decide +kernel)
  exact @Revises.body _ _ [] _ _ [] (@Revises.child _ _ _ _ [] _ _ [] (@Revises.child _ _ _ _ [] _ _
    [] (.attributes hrespells)))

theorem iteration_forms_agree_repeated :
    ∃ compiled,
      (compile .default (repeatedTemplate [.text "repeat" "for" "(of, i) of page.rows"])).1 =
        .ok compiled ∧
      (compile .default (repeatedTemplate [.text "for" "each" "page.rows", .text "for" "item" "of",
        .text "for" "index" "i"])).1 = .ok compiled ∧
      compiled.module.usedNames = ["page"] := by
  have hok : (compile .default (repeatedTemplate
      [.text "repeat" "for" "(of, i) of page.rows"])).1.toOption.map (·.module.usedNames) =
        some ["page"] := by
    decide +kernel
  obtain ⟨compiled, hc, hused⟩ := exists_ok_of_map hok
  exact ⟨compiled, hc, (iteration_forms_agree repeatedTemplate_revises compiled).2 hc, hused⟩

end TemplateCompiler
