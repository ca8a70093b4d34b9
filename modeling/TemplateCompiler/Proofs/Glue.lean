import TemplateCompiler.Proofs.Assembly
import TemplateCompiler.Proofs.Mentions

/-!
# What every mention of a piece of code has

A property of mentions is followed through the code that lowering puts together: calls, lists of
children, attributes and slots. Between the parts stand only names that the module gives itself, so
the property has to hold of those (`Glues`) and of the names that an expression leaves bare.
-/

namespace TemplateCompiler

/-- All mentions in a piece of code have a property. -/
def Code.All (Q : Mention → Prop) (code : Code) : Prop :=
  ∀ m ∈ code.mentions, Q m

/-- The names a module gives without hoisting: its parameters, the bind helper where it is used, and
the aliases of its components. -/
def Gives (env : Env) (K : Context) (name : String) : Prop :=
  name ∈ [env.config.apiParam, env.config.instanceParam, env.config.slotsetParam,
    env.config.contextParam] ∨
  (name = env.config.bindHelper ∧ K.bindsCallbacks) ∨
  ∃ path ∈ K.manifest.components, K.aliases.lookup path = some name

/-- A property that the module's own names have wherever they stand. -/
def Glues (env : Env) (K : Context) (Q : Mention → Prop) : Prop :=
  ∀ name, Gives env K name → Q (.own name)

variable {env : Env} {K : Context} {Q R : Mention → Prop}

namespace Code

attribute [local simp] mentions

theorem All.imp {code : Code} (h : code.All Q) (himp : ∀ m, Q m → R m) : code.All R :=
  fun m hm => himp m (h m hm)

@[simp]
theorem all_ref {id : String} : (Code.ref id).All Q ↔ Q (.own id) := by
  simp [All]

@[simp]
theorem all_name {site : Site} {span : Option Span} {id : String} :
    (Code.name site span id).All Q ↔ Q ⟨[], [], id, some site⟩ := by
  simp [All]

@[simp]
theorem all_member {span : Option Span} {value : Code} {name : String} :
    (Code.member span value name).All Q ↔ value.All Q := by
  simp [All]

@[simp]
theorem all_refMember {id member : String} : (Code.refMember id member).All Q ↔ Q (.own id) := by
  simp [refMember]

@[simp]
theorem all_index {span : Option Span} {value key : Code} :
    (Code.index span value key).All Q ↔ value.All Q ∧ key.All Q := by
  simp [All, or_imp, forall_and]

@[simp]
theorem all_constant {span : Option Span} {c : Constant} : (Code.constant span c).All Q := by
  simp [All]

@[simp]
theorem all_text {s : String} : (Code.text s).All Q := all_constant

@[simp]
theorem all_foreign {span : Option Span} {kind : String} : (Code.foreign span kind).All Q := by
  simp [All]

@[simp]
theorem all_call {callee : Code} {arguments : List Code} :
    (Code.call callee arguments).All Q ↔ callee.All Q ∧ ∀ a ∈ arguments, a.All Q := by
  simp only [All, mentions, List.mem_append, mem_listMentions, or_imp, forall_and]
  exact and_congr_right fun _ => ⟨fun h a ha m hm => h m ⟨a, ha, hm⟩,
    fun h m ⟨a, ha, hm⟩ => h a ha m hm⟩

@[simp]
theorem all_list {items : List Code} : (Code.list items).All Q ↔ ∀ i ∈ items, i.All Q := by
  simp only [All, mentions, mem_listMentions]
  exact ⟨fun h i hi m hm => h m ⟨i, hi, hm⟩, fun h m ⟨i, hi, hm⟩ => h i hi m hm⟩

@[simp]
theorem all_dict {entries : List (String × Code)} :
    (Code.dict entries).All Q ↔ ∀ e ∈ entries, e.2.All Q := by
  simp only [All, mentions, mem_entryMentions]
  exact ⟨fun h e he m hm => h m ⟨e, he, hm⟩, fun h m ⟨e, he, hm⟩ => h e he m hm⟩

@[simp]
theorem all_conditional {test body alternative : Code} :
    (Code.conditional test body alternative).All Q ↔
      test.All Q ∧ body.All Q ∧ alternative.All Q := by
  simp [All, or_imp, forall_and]

@[simp]
theorem all_and {left right : Code} : (Code.and left right).All Q ↔ left.All Q ∧ right.All Q := by
  simp [All, or_imp, forall_and]

@[simp]
theorem all_or {left right : Code} : (Code.or left right).All Q ↔ left.All Q ∧ right.All Q := by
  simp [All, or_imp, forall_and]

theorem all_lambda {place : Place} {parameters : List String} {body : Code} :
    (Code.lambda place parameters body).All Q ↔
      body.All fun m => Q ((m.after []).leave place parameters []) := by
  simp [All]

end Code

/-! ## Contents -/

section

variable (glue : Glues env K Q)

include glue

theorem Glues.api : Q (.own env.config.apiParam) := glue _ (.inl (by simp))

theorem Glues.inst : Q (.own env.config.instanceParam) := glue _ (.inl (by simp))

theorem Glues.slotset : Q (.own env.config.slotsetParam) := glue _ (.inl (by simp))

theorem Glues.context : Q (.own env.config.contextParam) := glue _ (.inl (by simp))

theorem all_callPrimitive {name : String} {arguments : List Code} :
    (env.config.callPrimitive name arguments).All Q ↔ ∀ a ∈ arguments, a.All Q := by
  simp [Config.callPrimitive, Config.primitive, glue.api]

theorem all_qualify {site : Site} {bound : String → Bool}
    (hname : ∀ id, bound id → Q ⟨[], [], id, some site⟩) :
    ∀ e : Expr, (e.qualify env.config.instanceParam site bound).All Q
  | .name span id => by
    rw [Expr.qualify]
    split
    · rename_i h
      simpa using hname id h
    · simpa using glue.inst
  | .member _ value _ => by simpa [Expr.qualify] using all_qualify hname value
  | .index _ value key => by
    simpa [Expr.qualify] using ⟨all_qualify hname value, all_qualify hname key⟩
  | .constant .. => by simp [Expr.qualify]
  | .foreign .. => by simp [Expr.qualify]

theorem Term.all_code {site : Site} {bound : String → Bool} (term : Term)
    (hname : ∀ id, bound id → Q ⟨[], [], id, some site⟩) :
    (term.code env.config site bound).All Q := by
  cases term with
  | constant c => simp [Term.code]
  | expression e => exact all_qualify glue hname e
  | dashed name => simpa [Term.code] using glue.inst

/-! ## Attributes -/

theorem all_boundCode {target : Code} (htarget : target.All Q)
    (helper : target.isMethodOf env.config.instanceParam = false → K.bindsCallbacks) :
    (boundCode env.config target).All Q := by
  unfold boundCode
  split
  · exact htarget
  · rename_i hm
    have hhelper : Q (.own env.config.bindHelper) :=
      glue _ (.inr (.inl ⟨rfl, helper (by simpa using hm)⟩))
    simpa [hhelper, glue.inst] using htarget

theorem BindsCallback.all {bound : String → Bool} {target code : Code} {n n' : Numbering}
    (h : BindsCallback env K bound target code n n') (htarget : target.All Q) : code.All Q := by
  cases h with
  | kept helper _ =>
    simpa [CompileM.memoized, glue.context] using all_boundCode glue htarget helper
  | passed helper _ => exact all_boundCode glue htarget helper

/-- A property that attributes have once the contents they are written with do. -/
structure Attributive (env : Env) (K : Context) (site : Site) (bound : String → Bool)
    (P : Code → Prop) : Prop where
  term : ∀ term : Term, P (term.code env.config site bound)
  callback : ∀ {target code n n'}, BindsCallback env K bound target code n n' → P target → P code
  dict : ∀ {entries}, (∀ e ∈ entries, P e.2) → P (.dict entries)

variable {site : Site} {bound : String → Bool} {isComponent : Bool} {n n' : Numbering}

theorem Glues.attributive (hname : ∀ id, bound id → Q ⟨[], [], id, some site⟩) :
    Attributive env K site bound (Code.All Q) :=
  ⟨fun term => Term.all_code glue term hname, fun h => h.all glue, Code.all_dict.2⟩

end

/-- The code of all that an element's readings come to. -/
def PartsAll (P : Code → Prop) (parts : List Part) : Prop :=
  ∀ part ∈ parts, match part with
    | .condition code | .component code => P code
    | .alternative => True
    | .entry e => P e.value

section

variable {site : Site} {bound : String → Bool} {isComponent : Bool} {n n' : Numbering}
  {P : Code → Prop} (attributive : Attributive env K site bound P)

include attributive

theorem Entry.all_ofProperty {p : Property} {code : Code} (h : P code) :
    P (Entry.ofProperty isComponent p code).value := by
  unfold Entry.ofProperty
  split
  · unfold Entry.topValue
    split
    · split
      · refine attributive.dict fun e he => ?_
        obtain ⟨entry, -, rfl⟩ := List.mem_map.1 he
        exact attributive.term (.constant (.text entry.2))
      · exact h
    · exact h
  · exact h

theorem LowersReading.all {reading : Reading} {parts : List Part}
    (h : LowersReading env K bound site isComponent reading parts n n') : PartsAll P parts := by
  intro part hpart
  cases h with
  | iteration | slot => simp at hpart
  | component | condition =>
    rw [List.mem_singleton] at hpart
    subst hpart
    exact attributive.term _
  | alternative =>
    rw [List.mem_singleton] at hpart
    subst hpart
    trivial
  | property lowers =>
    rw [List.mem_singleton] at hpart
    subst hpart
    cases lowers with
    | callback _ _ callback =>
      exact Entry.all_ofProperty attributive (attributive.callback callback (attributive.term _))
    | value => exact Entry.all_ofProperty attributive (attributive.term _)

theorem LowersReadings.all {readings : List Reading} {parts : List Part}
    (h : LowersReadings env K bound site isComponent readings parts n n') : PartsAll P parts := by
  induction h with
  | nil => simp [PartsAll]
  | cons head _ ih =>
    intro part hpart
    rcases List.mem_append.1 hpart with hpart | hpart
    · exact head.all attributive part hpart
    · exact ih part hpart

end

namespace PartsAll

variable {P : Code → Prop} {parts : List Part} (h : PartsAll P parts)

include h

theorem condition {code : Code} (hc : Part.condition? parts = some code) : P code := by
  obtain ⟨part, hpart, hsome⟩ := List.exists_of_findSome?_eq_some hc
  have := h part hpart
  cases part <;> simp at hsome
  exact hsome ▸ this

theorem component {code : Code} (hc : Part.component? parts = some code) : P code := by
  obtain ⟨part, hpart, hsome⟩ := List.exists_of_findSome?_eq_some hc
  have := h part hpart
  cases part <;> simp at hsome
  exact hsome ▸ this

theorem attributes (hdict : ∀ {entries}, (∀ e ∈ entries, P e.2) → P (.dict entries)) :
    ∀ e ∈ Entry.attributes Code.dict (Part.entries parts), P e.2 := by
  have hentries : ∀ e ∈ Part.entries parts, P e.value := by
    intro e he
    obtain ⟨part, hpart, hsome⟩ := List.mem_filterMap.1 he
    have := h part hpart
    cases part <;> simp at hsome
    exact hsome ▸ this
  have hgroup : ∀ group, ∀ e ∈ Entry.inGroup (Part.entries parts) group, P e.2 := by
    intro group e he
    obtain ⟨entry, hentry, rfl⟩ := List.mem_map.1 he
    exact hentries entry (List.mem_filter.1 hentry).1
  intro e he
  rcases List.mem_append.1 he with he | he
  · exact hgroup none e he
  · obtain ⟨group, -, rfl⟩ := List.mem_map.1 he
    exact hdict (hgroup (some group))

end PartsAll

section

variable (glue : Glues env K Q)

include glue

/-! ## Children -/

/-- The code of all items. -/
def ItemsAll (Q : Mention → Prop) (items : List Item) : Prop :=
  ∀ i ∈ items, i.code.All Q

theorem Glues.assembles : Assembles env.config (Code.All Q) where
  list h := Code.all_list.2 h
  dict h := Code.all_dict.2 h
  flatten h := (all_callPrimitive glue).2 (List.forall_mem_singleton.2 h)

theorem all_choose {condition body : Code} {alternative : Option Item} (hc : condition.All Q)
    (hb : body.All Q) (ha : ∀ i ∈ alternative, i.code.All Q) :
    (Sibling.choose env.config condition body alternative).All Q := by
  rcases alternative with _ | i
  · simpa [Sibling.choose, all_callPrimitive glue] using ⟨hc, hb⟩
  · simpa [Sibling.choose] using ⟨hc, hb, ha i rfl⟩

theorem CallsElement.all {tag : Tag} {written : Option Content} {parts : List Part}
    {items : List Item} {kind : ElementKind} {code : Code}
    (h : CallsElement env.config K tag written parts items kind code)
    (hparts : PartsAll (Code.All Q) parts) (hitems : ItemsAll Q items) : code.All Q := by
  obtain ⟨name, -, arguments, rfl, harguments⟩ := glue.assembles.exists_arguments h
    (fun imported => Code.all_ref.2
      (glue _ (.inr (.inr ⟨_, imported.component, imported.known⟩))))
    (fun _ => Code.all_text) (fun _ => hparts.component) (hparts.attributes Code.all_dict.2) hitems
  exact (all_callPrimitive glue).2 harguments

theorem all_outletCode {name : Option String} {items : List Item} (h : ItemsAll Q items) :
    (CompileM.outletCode env.config name items).All Q := by
  simpa [CompileM.outletCode, glue.slotset] using glue.assembles.assemble h

end

end TemplateCompiler
