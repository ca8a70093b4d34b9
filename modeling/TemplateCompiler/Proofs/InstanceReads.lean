import TemplateCompiler.Proofs.Accepted
import TemplateCompiler.Proofs.Choices

/-!
# What is read from the instance

A module lists the names in every attribute that is resolved, and an attribute may be resolved in
vain: nothing comes into the code from what a template or an outlet is given beside what they use,
from the value of an else marker, from the condition of a template with nothing in it, or from an is
directive that a tag with a namespace has. So what is read is told from the markup by a walk of its
own (`Template.readNames`). A function reads each name of the walk once where it is written
(`perm_instanceNames`), and all of them are listed (`mem_usedNames_of_mem_instanceNames`).
-/

namespace TemplateCompiler

/-- The name that a piece of code reads from the instance itself, as a member or by a subscript. -/
def Code.read? (inst : String) : Code → Option String
  | .member _ value field => if value.isNamed inst then some field else none
  | .index _ value key => if value.isNamed inst then key.text? else none
  | _ => none

/-- The names that a function reads from the instance, with repetition. -/
def Function.instanceNames (inst : String) (f : Function) : List String :=
  f.subterms.filterMap (Code.read? inst)

/-! ## What the markup has read -/

/-- The names in the value of an attribute that goes to the call of its element. -/
def Reading.propertyNames (bound : List String) : Reading → List String
  | .property p => p.content.usedNames bound p.directive.isSome
  | _ => []

/-- The names in the attributes that come into the code of an element. A template has only its
condition, and that only if it has something to guard; an outlet has none; and what an is directive
selects is called by no other kind than its own. -/
def Reading.keptNames (bound : List String) (kind : ElementKind) (isHollow : Bool)
    (readings : List Reading) : List String :=
  let conditions := (condition? readings).toList.flatMap (Content.usedNames bound true)
  let components := (component? readings).toList.flatMap (Content.usedNames bound false)
  let properties := readings.flatMap (propertyNames bound)
  match kind with
  | .template => if isHollow then [] else conditions
  | .outlet => []
  | .dynamic => conditions ++ (components ++ properties)
  | .virtual _ | .custom | .plain => conditions ++ properties

mutual

def Node.readNames (config : Config) (bound : List String) : Node → List String
  | .element pos tag attributes children =>
    let readings := Node.readings config (.element pos tag attributes children)
    let inner := Reading.parameters readings ++ bound
    Reading.iterableNames bound readings ++
      Reading.keptNames inner (elementKind tag readings) (allVoid children) readings ++
      Node.readNamesOf config inner children
  | .placeholder _ (some e) => unbound bound e.names
  | .fragment _ children => Node.readNamesOf config bound children
  | .placeholder _ none | .text .. | .literal .. | .attr _ | .template .. => []

def Node.readNamesOf (config : Config) (bound : List String) : List Node → List String
  | [] => []
  | node :: rest => node.readNames config bound ++ Node.readNamesOf config bound rest

end

/-- The names that the code of a unit reads from the instance, with repetition. -/
def Template.readNames (config : Config) (t : Template) : List String :=
  (t.root?.map (Node.readNames config [])).getD []

/-! ## Names are read once -/

section

variable {env : Env} {config : Config} {K : Context} {n n' : Numbering} {name : String}
  {bound : List String}

/-- The instance has a name of its own among the parameters of a unit. -/
def Config.NamesInstance (config : Config) : Prop :=
  config.instanceParam ∉ [config.apiParam, config.slotsetParam, config.contextParam]

/-- Whether a name is read from the instance. -/
def readsName (config : Config) (name : String) (code : Code) : Bool :=
  code.read? config.instanceParam == some name

instance (config : Config) : Decidable config.NamesInstance :=
  inferInstanceAs (Decidable (config.instanceParam ∉ _))

/-- A count of what is read under a name counts nothing that lowering puts around contents. -/
theorem counts_readsName (hconfig : config.NamesInstance) (name : String) :
    Counts config (readsName config name) where
  ref _ := rfl
  service id hid field := by
    have hne : id ≠ config.instanceParam := fun heq => hconfig (heq ▸ hid)
    simp [readsName, Code.refMember, Code.read?, Code.isNamed, hne]
  constant _ _ := rfl
  call _ _ := rfl
  dict _ := rfl
  list _ := rfl
  and _ _ := rfl
  outlet _ _ := rfl
  guard _ := rfl
  lambda _ _ _ := rfl
  conditional _ _ _ _ := rfl

/-! ### Contents -/

theorem Expr.isNamed_qualify {inst : String} {site : Site} (hinst : inst ∉ bound) :
    ∀ e : Expr, (e.qualify inst site bound.contains).isNamed inst = false
  | .name _ id => by
    rw [qualify]
    split
    · rename_i hid
      have hne : id ≠ inst := by
        rintro rfl
        exact hinst (List.contains_iff_mem.1 hid)
      simpa [Code.isNamed] using hne
    · rfl
  | .member .. | .index .. | .constant .. | .foreign .. => rfl

theorem unbound_append (names names' : List String) :
    unbound bound (names ++ names') = unbound bound names ++ unbound bound names' := by
  rw [unbound, List.filter_append]
  rfl

section

variable (hconfig : config.NamesInstance)

include hconfig

theorem tally_member (field : String) :
    (Code.refMember config.instanceParam field).tally (readsName config name) =
      [field].count name := by
  have href := (counts_readsName hconfig name).tally_ref config.instanceParam
  rw [Code.tally_eq, List.count_singleton]
  simp [Code.refMember, Code.parts, Code.operands, href, readsName, Code.read?, Code.isNamed]

theorem tally_subscript (key : String) :
    (Code.index none (.ref config.instanceParam) (.text key)).tally (readsName config name) =
      [key].count name := by
  have href := (counts_readsName hconfig name).tally_ref config.instanceParam
  have htext := (counts_readsName hconfig name).tally_text key
  have hkey : (Code.text key).text? = some key := rfl
  rw [Code.tally_eq, List.count_singleton]
  simp [Code.parts, Code.operands, href, htext, readsName, Code.read?, Code.isNamed, hkey]

variable (hinst : config.instanceParam ∉ bound)

include hinst

theorem tally_qualify {site : Site} : ∀ e : Expr,
    (e.qualify config.instanceParam site bound.contains).tally (readsName config name) =
      (unbound bound e.names).count name
  | .name span id => by
    rw [Expr.qualify, Expr.names]
    by_cases hid : id ∈ bound
    · simp [hid, unbound, Code.tally_eq, Code.parts, Code.operands, readsName, Code.read?]
    · simpa [hid, unbound] using tally_member hconfig id
  | .member span value field => by
    have hvalue := @Expr.isNamed_qualify _ _ site hinst value
    rw [Expr.qualify, Expr.names, Code.tally_eq]
    simp [Code.parts, Code.operands, tally_qualify value, readsName, Code.read?, hvalue]
  | .index span value key => by
    have hvalue := @Expr.isNamed_qualify _ _ site hinst value
    rw [Expr.qualify, Expr.names, Code.tally_eq, unbound_append, List.count_append]
    simp [Code.parts, Code.operands, tally_qualify value, tally_qualify key, readsName, Code.read?,
      hvalue]
  | .constant .. => (counts_readsName hconfig name).tally_constant _ _
  | .foreign .. => rfl

/-- A content reads just the names that are used in it. -/
theorem Term.tally_code {site : Site} {isDirective : Bool} {content : Content} {term : Term}
    (hterm : content.term? isDirective = some term) :
    (term.code config site bound.contains).tally (readsName config name) =
      (content.usedNames bound isDirective).count name := by
  cases content with
  | expression e =>
    obtain rfl := Option.some.inj hterm
    exact tally_qualify hconfig hinst e
  | constant c =>
    have hconstant : ∀ c, (Code.constant none c).tally (readsName config name) = 0 :=
      (counts_readsName hconfig name).tally_constant none
    cases c with
    | text text =>
      cases isDirective with
      | false =>
        obtain rfl := Option.some.inj hterm
        exact hconstant _
      | true =>
        rw [Content.usedNames, if_pos rfl]
        simp only [Content.term?, Constant.text?] at hterm
        split at hterm
        · rename_i e hform
          obtain rfl := Option.some.inj hterm
          rw [Binding.usedNames_of_path hform]
          exact tally_qualify hconfig hinst e
        · rename_i dashed hform
          obtain rfl := Option.some.inj hterm
          rw [Binding.usedNames_of_dashed hform]
          exact tally_subscript hconfig dashed
        · simp at hterm
    | bool | null | int | float | bytes | complex | ellipsis =>
      obtain rfl := Option.some.inj hterm
      exact hconstant _

end

/-! ### Attributes -/

theorem BindsCallback.tally_eq {bound : String → Bool} {target code : Code}
    (h : BindsCallback env K bound target code n n') (hconfig : env.config.NamesInstance) :
    code.tally (readsName env.config name) = target.tally (readsName env.config name) := by
  have hp := counts_readsName hconfig name
  cases h with
  | kept =>
    rw [hp.tally_memoized env rfl, hp.tally_boundCode]
    rfl
  | passed => exact hp.tally_boundCode target

section

variable (hconfig : env.config.NamesInstance) (hinst : env.config.instanceParam ∉ bound)
  {site : Site} {isComponent : Bool} {readings : List Reading} {parts : List Part}

include hconfig hinst

theorem LowersProperty.tally_value {p : Property} {entry : Entry Code}
    (h : LowersProperty env K bound.contains site isComponent p entry n n') :
    entry.value.tally (readsName env.config name) =
      (p.content.usedNames bound p.directive.isSome).count name := by
  have hp := counts_readsName hconfig name
  cases h with
  | callback reads _ callback =>
    rw [hp.tally_ofProperty, callback.tally_eq hconfig, Term.tally_code hconfig hinst reads]
  | value reads => rw [hp.tally_ofProperty, Term.tally_code hconfig hinst reads]

theorem LowersReadings.entriesTally_eq
    (h : LowersReadings env K bound.contains site isComponent readings parts n n') :
    entriesTally (readsName env.config name) (Part.entries parts) =
      (readings.flatMap (Reading.propertyNames bound)).count name := by
  induction h with
  | nil => rfl
  | cons head _ ih =>
    rw [Part.entries, List.filterMap_append, ← Part.entries, ← Part.entries, entriesTally,
      List.map_append, List.sum_append, ← entriesTally, ← entriesTally, ih, List.flatMap_cons,
      List.count_append]
    congr 1
    cases head with
    | iteration | slot | component | condition | alternative => rfl
    | property lowers =>
      simpa [entriesTally, Part.entries, Reading.propertyNames] using
        lowers.tally_value hconfig hinst

theorem LowersReadings.conditionTally_eq
    (h : LowersReadings env K bound.contains site isComponent readings parts n n') :
    conditionTally (readsName env.config name) parts =
      ((Reading.condition? readings).toList.flatMap (Content.usedNames bound true)).count name := by
  unfold conditionTally
  rcases h.condition?_cases with ⟨hp, hr⟩ | ⟨content, term, hr, hterm, hp⟩
  · rw [hp, hr]
    rfl
  · simp [hp, hr, Term.tally_code hconfig hinst hterm]

theorem LowersReadings.componentTally_eq
    (h : LowersReadings env K bound.contains site isComponent readings parts n n') :
    componentTally (readsName env.config name) parts =
      ((Reading.component? readings).toList.flatMap
        (Content.usedNames bound false)).count name := by
  unfold componentTally
  rcases h.component?_cases with ⟨hp, hr⟩ | ⟨content, term, hr, hterm, hp⟩
  · rw [hp, hr]
    rfl
  · simp [hp, hr, Term.tally_code hconfig hinst hterm]

theorem LowersReadings.partsTally_eq
    (h : LowersReadings env K bound.contains site isComponent readings parts n n')
    (kind : ElementKind) (isHollow : Bool) :
    partsTally (readsName env.config name) kind isHollow parts =
      (Reading.keptNames bound kind isHollow readings).count name := by
  have hcondition : conditionTally (readsName env.config name) parts = _ :=
    h.conditionTally_eq hconfig hinst
  have hcomponent : componentTally (readsName env.config name) parts = _ :=
    h.componentTally_eq hconfig hinst
  have hentries : entriesTally (readsName env.config name) (Part.entries parts) = _ :=
    h.entriesTally_eq hconfig hinst
  unfold partsTally Reading.keptNames
  cases kind with
  | template =>
    cases isHollow with
    | false => exact hcondition
    | true => rfl
  | outlet => rfl
  | dynamic =>
    simp only [List.count_append]
    omega
  | virtual | custom | plain =>
    simp only [List.count_append]
    omega

end

/-! ### Nodes -/

theorem OpensLoop.binds_inside {binders : List Binder} {place : Place} {readings : List Reading}
    {loop : Option Loop} (h : OpensLoop config binders place readings loop)
    (hbound : binds binders = bound.contains) :
    binds (inside loop binders) = (Reading.parameters readings ++ bound).contains := by
  funext name
  have hname := congrFun hbound name
  cases h with
  | once reads =>
    simp only [inside, Option.map_none, Option.toList_none, List.nil_append, Reading.parameters,
      reads]
    exact hname
  | @repeated _ _ parameters reads _ binder =>
    have hparameters : Reading.parameters readings = parameters := by
      simp only [Reading.parameters, reads, binder]
    show (parameters.contains name || binds binders name) = _
    rw [hname, hparameters, List.contains_append]

theorem OpensLoop.tally_iterable {binders : List Binder} {place : Place}
    {readings : List Reading} {loop : Option Loop}
    (h : OpensLoop config binders place readings loop) (hconfig : config.NamesInstance)
    (hinst : config.instanceParam ∉ bound) (hbound : binds binders = bound.contains) :
    (loop.toList.map fun l => l.iterable.tally (readsName config name)).sum =
      (Reading.iterableNames bound readings).count name := by
  unfold Reading.iterableNames
  cases h with
  | once reads =>
    rw [reads]
    rfl
  | repeated reads iterable =>
    rw [reads, hbound]
    simp [Term.tally_code hconfig hinst iterable]

/-- An element never repeats for the name of the instance. -/
theorem Reading.instanceParam_notMem_parameters {attributes : List Attribute}
    {readings : List Reading} (h : ofAttributes config [] attributes = .ok readings) :
    config.instanceParam ∉ parameters readings := by
  intro hmem
  obtain ⟨part, hpart, hname⟩ := mem_names_of_mem_parameters hmem
  obtain ⟨_, -, hread⟩ := exists_attribute_of_mem h hpart
  exact notMem_reserved_of_isRead hread _ hname (by simp [Config.reserved])

theorem LowersElement.tally_reads {binders : List Binder} {place : Place} {pos : Position}
    {tag : Tag} {attributes : List Attribute} {children : List Node} {sibling : Sibling}
    {ds : List Declaration}
    (h : LowersElement env K binders place pos tag attributes children sibling ds n n')
    (hconfig : env.config.NamesInstance) (hbound : binds binders = bound.contains)
    (hinst : env.config.instanceParam ∉ bound)
    (hchildren : ∀ {bound binders siblings ds n n'},
      LowersNodes env K binders place 0 children siblings ds n n' →
      binds binders = bound.contains → env.config.instanceParam ∉ bound →
      rowTally (readsName env.config name) siblings +
        statementsTally (readsName env.config name) ds =
          (Node.readNamesOf env.config bound children).count name) :
    sibling.tally (readsName env.config name) +
      statementsTally (readsName env.config name) ds =
        ((Node.element pos tag attributes children).readNames env.config bound).count name := by
  obtain ⟨readings, loop, parts, siblings, inner, made, _, _, htallies⟩ := h.exists_tallies
  have lowersReadings := htallies.lowersReadings
  have hreadings : (Node.element pos tag attributes children).readings env.config = readings := by
    simp only [Node.readings, htallies.reads]
  have hinside := htallies.opens.binds_inside hbound
  have hinst' : env.config.instanceParam ∉ Reading.parameters readings ++ bound := by
    rw [List.mem_append, not_or]
    exact ⟨Reading.instanceParam_notMem_parameters htallies.reads, hinst⟩
  rw [hinside] at lowersReadings
  have hiterable :
      (loop.toList.map fun l => l.iterable.tally (readsName env.config name)).sum = _ :=
    htallies.opens.tally_iterable hconfig hinst hbound
  have hparts : partsTally (readsName env.config name) (elementKind tag readings)
      (allVoid children) parts = _ := lowersReadings.partsTally_eq hconfig hinst' _ _
  have hmade : made.countP (readsName env.config name) = 0 :=
    htallies.countP_made fun _ _ _ => rfl
  have hrest := hchildren htallies.lowersChildren hinside hinst'
  have htally := htallies.tally _ (counts_readsName hconfig name)
  rw [Node.readNames, hreadings]
  simp only [List.count_append]
  omega

mutual

theorem LowersNode.tally_reads (hconfig : env.config.NamesInstance) :
    ∀ {node : Node} {bound binders around before siblings ds n n'},
      LowersNode env K binders around before node siblings ds n n' →
      binds binders = bound.contains → env.config.instanceParam ∉ bound →
      rowTally (readsName env.config name) siblings +
        statementsTally (readsName env.config name) ds =
          (node.readNames env.config bound).count name
  | .text .., _, _, _, _, _, _, _, _, h, _, _ => by
    have htext := (counts_readsName hconfig name).tally_text
    cases h with
    | blank => rfl
    | text =>
      simp [rowTally, Sibling.tally, htext, statementsTally, allDeclarations, Node.readNames]
  | .placeholder .., _, _, _, _, _, _, _, _, h, hbound, hinst => by
    have hp := counts_readsName hconfig name
    cases h with
    | nothing => rfl
    | placeholder =>
      rw [hbound, Node.readNames]
      simpa [rowTally, Sibling.tally, statementsTally, allDeclarations, hp.tally_callPrimitive]
        using tally_qualify hconfig hinst _
  | .fragment _ children, _, _, _, _, _, _, _, _, h, hbound, hinst => by
    cases h with
    | fragment lowersChildren =>
      rw [Node.readNames]
      exact LowersNodes.tally_reads hconfig lowersChildren hbound hinst
  | .element .., _, _, _, _, _, _, _, _, h, hbound, hinst => by
    cases h with
    | element lowers =>
      rw [← lowers.tally_reads hconfig hbound hinst
        fun h hbound hinst => LowersNodes.tally_reads hconfig h hbound hinst]
      simp [rowTally]
  | .literal .., _, _, _, _, _, _, _, _, h, _, _ => nomatch h
  | .attr .., _, _, _, _, _, _, _, _, h, _, _ => nomatch h
  | .template .., _, _, _, _, _, _, _, _, h, _, _ => nomatch h

theorem LowersNodes.tally_reads (hconfig : env.config.NamesInstance) :
    ∀ {nodes : List Node} {bound binders around before siblings ds n n'},
      LowersNodes env K binders around before nodes siblings ds n n' →
      binds binders = bound.contains → env.config.instanceParam ∉ bound →
      rowTally (readsName env.config name) siblings +
        statementsTally (readsName env.config name) ds =
          (Node.readNamesOf env.config bound nodes).count name
  | [], _, _, _, _, _, _, _, _, h, _, _ => by
    cases h
    rfl
  | node :: rest, _, _, _, _, _, _, _, _, h, hbound, hinst => by
    cases h with
    | cons head tail =>
      have hhead := LowersNode.tally_reads hconfig head hbound hinst
      have htail := LowersNodes.tally_reads hconfig tail hbound hinst
      rw [rowTally_append, statementsTally_append, Node.readNamesOf, List.count_append]
      omega

end

end

/-! ## Units -/

section

variable {env : Env} {config : Config} {t : Template} {compiled : Compiled}

theorem count_instanceNames (config : Config) (f : Function) (name : String) :
    (f.instanceNames config.instanceParam).count name =
      f.result.tally (readsName config name) +
        statementsTally (readsName config name) f.declarations := by
  rw [← Function.countP_subterms, Function.instanceNames, List.count, List.countP_filterMap]
  refine List.countP_congr fun code _ => ?_
  rcases hread : code.read? config.instanceParam with _ | found <;> simp [readsName, hread]

theorem perm_instanceNames (h : (compile env t).1 = .ok compiled)
    (hconfig : env.config.NamesInstance) :
    (compiled.module.function.instanceNames env.config.instanceParam).Perm
      (t.readNames env.config) := by
  obtain ⟨K, sibling, ds, n, hc⟩ := compiles_of_ok h
  obtain ⟨pos, attributes, children, hroot, hl⟩ := hc.root
  refine List.perm_iff_count.2 fun name => ?_
  have hbound : binds [] = [].contains := funext fun _ => rfl
  have htally : _ = ((Node.element pos _ attributes children).readNames env.config []).count name :=
    hl.tally_reads hconfig hbound (by simp)
      fun h hbound hinst => LowersNodes.tally_reads hconfig h hbound hinst
  rw [hl.tally_root (counts_readsName hconfig name)] at htally
  rw [count_instanceNames, hc.function, Template.readNames, hroot]
  exact htally

/-! ### All that is read is listed -/

theorem Reading.keptNames_subset (bound : List String) (kind : ElementKind) (isHollow : Bool)
    (readings : List Reading) :
    keptNames bound kind isHollow readings ⊆ readings.flatMap (usedNames bound) := by
  have hconditions : (condition? readings).toList.flatMap (Content.usedNames bound true) ⊆
      readings.flatMap (usedNames bound) := by
    intro name hname
    obtain ⟨content, hcontent, hname⟩ := List.mem_flatMap.1 hname
    obtain ⟨reading, hr, hsome⟩ := List.exists_of_findSome?_eq_some (Option.mem_toList.1 hcontent)
    cases reading <;> simp at hsome
    subst hsome
    exact List.mem_flatMap.2 ⟨_, hr, hname⟩
  have hcomponents : (component? readings).toList.flatMap (Content.usedNames bound false) ⊆
      readings.flatMap (usedNames bound) := by
    intro name hname
    obtain ⟨content, hcontent, hname⟩ := List.mem_flatMap.1 hname
    obtain ⟨reading, hr, hsome⟩ := List.exists_of_findSome?_eq_some (Option.mem_toList.1 hcontent)
    cases reading <;> simp at hsome
    subst hsome
    exact List.mem_flatMap.2 ⟨_, hr, hname⟩
  have hproperties : readings.flatMap (propertyNames bound) ⊆
      readings.flatMap (usedNames bound) := by
    intro name hname
    obtain ⟨reading, hr, hname⟩ := List.mem_flatMap.1 hname
    cases reading with
    | property p => exact List.mem_flatMap.2 ⟨_, hr, hname⟩
    | iteration | component | condition | alternative | slot => simp [propertyNames] at hname
  unfold keptNames
  cases kind with
  | template =>
    cases isHollow with
    | false => exact hconditions
    | true => exact List.nil_subset _
  | outlet => exact List.nil_subset _
  | dynamic =>
    exact List.append_subset.2 ⟨hconditions, List.append_subset.2 ⟨hcomponents, hproperties⟩⟩
  | virtual | custom | plain => exact List.append_subset.2 ⟨hconditions, hproperties⟩

/-- The readings of an element have the names of its attributes. -/
theorem Node.flatMap_usedNames_subset (config : Config) (bound : List String) (pos : Position)
    (tag : Tag) (attributes : List Attribute) (children : List Node) :
    ((Node.element pos tag attributes children).readings config).flatMap
      (Reading.usedNames bound) ⊆ attributes.flatMap (Attribute.usedNames bound) := by
  rw [Node.readings]
  split
  · rename_i reads
    rw [Reading.usedNames_of_ofAttributes reads]
    exact List.Subset.refl _
  · exact List.nil_subset _

mutual

theorem Node.readNames_subset (config : Config) : ∀ (node : Node) (bound : List String),
    node.readNames config bound ⊆ node.usedNames config bound
  | .element pos tag attributes children, bound => by
    intro name hname
    rw [Node.readNames, List.mem_append, List.mem_append] at hname
    rw [Node.usedNames, List.mem_append, List.mem_append]
    rcases hname with (hiterable | hkept) | hchildren
    · exact .inl (.inl hiterable)
    · exact .inl (.inr (Node.flatMap_usedNames_subset config _ pos tag attributes children
        (Reading.keptNames_subset _ _ _ _ hkept)))
    · exact .inr (Node.readNamesOf_subset config children _ hchildren)
  | .fragment _ children, bound => by
    rw [Node.readNames, Node.usedNames]
    exact Node.readNamesOf_subset config children bound
  | .placeholder _ (some _), _ | .placeholder _ none, _ | .text .., _ | .literal .., _
  | .attr _, _ | .template .., _ => by
    rw [Node.readNames, Node.usedNames]
    exact List.Subset.refl _

theorem Node.readNamesOf_subset (config : Config) : ∀ (nodes : List Node) (bound : List String),
    Node.readNamesOf config bound nodes ⊆ Node.usedNamesOf config bound nodes
  | [], _ => List.Subset.refl _
  | node :: rest, bound => by
    intro name hname
    rw [Node.readNamesOf, List.mem_append] at hname
    rw [Node.usedNamesOf, List.mem_append]
    exact hname.imp (@Node.readNames_subset config node bound name)
      (@Node.readNamesOf_subset config rest bound name)

end

theorem Template.readNames_subset (config : Config) (t : Template) :
    t.readNames config ⊆ t.usedNames config := by
  unfold Template.readNames Template.usedNames
  rcases t.root? with _ | root
  · exact List.Subset.refl _
  · exact Node.readNames_subset config root []

/-- Every name that a module reads from the instance is on its list. -/
theorem mem_usedNames_of_mem_instanceNames (h : (compile env t).1 = .ok compiled)
    (hconfig : env.config.NamesInstance) {name : String}
    (hname : name ∈ compiled.module.function.instanceNames env.config.instanceParam) :
    name ∈ compiled.module.usedNames := by
  have hread := (perm_instanceNames h hconfig).mem_iff.1 hname
  exact (mem_usedNames_iff h).2 (t.readNames_subset env.config hread)

/-- Rows that are repeated by a function of their own, each with a condition, a callback and a name
that is no identifier. -/
def rowsTemplate : Template :=
  .ofRoot [.plain "ul" [.text "repeat" "for" "row in table.rows", .text "set" "class" "is-wide"]
    [.plain "template" [.text "set" "if" "row.open"]
      [.plain "li" [.named "onclick" "pick", .text "set" "title" "row.title"] [.name "count"]]]]

theorem mem_usedNames_of_mem_instanceNames_dashed :
    ∃ compiled, (compile .default rowsTemplate).1 = .ok compiled ∧
      "is-wide" ∈ compiled.module.function.instanceNames "cmp" ∧
      "is-wide" ∈ compiled.module.usedNames := by
  have hnames : (compile .default rowsTemplate).1.toOption.map (fun c =>
      c.module.function.instanceNames "cmp") = some ["table", "is-wide", "pick", "count"] := by
    decide +kernel
  obtain ⟨compiled, hc, hread⟩ := exists_ok_of_map hnames
  have hmem : "is-wide" ∈ compiled.module.function.instanceNames "cmp" := by
    rw [hread]
    simp
  exact ⟨compiled, hc, hmem, mem_usedNames_of_mem_instanceNames hc (by decide +kernel) hmem⟩

/-- A module reads from the instance what the walk of its template tells, each name as often as it
is written there. So it reads every name on its list just if the walk comes to all of them. -/
theorem instanceNames_exact (h : (compile env t).1 = .ok compiled)
    (hconfig : env.config.NamesInstance) :
    (compiled.module.function.instanceNames env.config.instanceParam).Perm
        (t.readNames env.config) ∧
      (compiled.module.usedNames ⊆
          compiled.module.function.instanceNames env.config.instanceParam ↔
        t.usedNames env.config ⊆ t.readNames env.config) := by
  have hperm := perm_instanceNames h hconfig
  refine ⟨hperm, fun hsub name hname => ?_, fun hsub name hname => ?_⟩
  · exact hperm.mem_iff.1 (hsub ((mem_usedNames_iff h).2 hname))
  · exact hperm.mem_iff.2 (hsub ((mem_usedNames_iff h).1 hname))

/-- Attributes of a template and of an outlet, and the value of an else marker. -/
def vainTemplate : Template :=
  .ofRoot [.plain "template" [.text "set" "title" "a", .text "set" "if" "b"] [.name "c"],
    .plain "template" [.text "set" "if" "d"] [],
    .plain "p" [.text "set" "if" "e"] [], .plain "i" [.text "set" "else" "f"] []]

theorem instanceNames_exact_vain :
    ∃ compiled, (compile .default vainTemplate).1 = .ok compiled ∧
      (compiled.module.function.instanceNames "cmp").Perm ["b", "c", "e"] ∧
      (compiled.module.usedNames ⊆ compiled.module.function.instanceNames "cmp" ↔
        vainTemplate.usedNames {} ⊆ ["b", "c", "e"]) := by
  have hok : (compile .default vainTemplate).1.toOption.map (fun _ => ()) = some () := by
    decide +kernel
  obtain ⟨compiled, hc, -⟩ := exists_ok_of_map hok
  have hwalk : vainTemplate.readNames {} = ["b", "c", "e"] := by decide +kernel
  have hexact := instanceNames_exact hc (by decide +kernel)
  rw [show Env.default.config = {} from rfl, hwalk] at hexact
  exact ⟨compiled, hc, hexact⟩

/-- A template with an attribute, and nothing in it. -/
def titledTemplate : Template :=
  .ofRoot [.plain "template" [.text "set" "title" "bar"] []]

/-- A name is listed, and nothing is read from the instance at all. -/
theorem listed_name_is_not_read :
    ∃ compiled, (compile .default titledTemplate).1 = .ok compiled ∧
      compiled.module.usedNames = ["bar"] ∧
      compiled.module.function.instanceNames "cmp" = [] := by
  have hnames : (compile .default titledTemplate).1.toOption.map (fun c =>
      (c.module.usedNames, c.module.function.instanceNames "cmp")) = some (["bar"], []) := by
    decide +kernel
  obtain ⟨compiled, hc, hboth⟩ := exists_ok_of_map hnames
  rw [Prod.mk.injEq] at hboth
  exact ⟨compiled, hc, hboth⟩

end

end TemplateCompiler
