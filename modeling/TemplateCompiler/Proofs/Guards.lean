import TemplateCompiler.Proofs.Primitives
import TemplateCompiler.Proofs.Refinement
import TemplateCompiler.Proofs.Void

/-!
# What guards protect

Reads can fail. Where no element repeats, a module reads what its markup reads, each in its place,
save for the conditions of templates: those are tested once, before anything is rendered, so that no
condition around them protects them. A template that contributes nothing has no test.
-/

namespace TemplateCompiler

variable {α : Type} {host : Host α} {env : Env} {config : Config} {K : Context} {n n' : Numbering}

mutual

/-- The conditions of the templates in a node that contribute something, those inside first. -/
def Node.templateConditions (config : Config) : Node → List Content
  | .element pos tag attributes children =>
    let readings := (Node.element pos tag attributes children).readings config
    templateConditionsOf config children ++
      if elementKind tag readings = .template && !allVoid children then
        (Reading.condition? readings).toList
      else []
  | .fragment _ children => templateConditionsOf config children
  | .text .. | .placeholder .. | .literal .. | .attr _ | .template .. => []

def templateConditionsOf (config : Config) : List Node → List Content
  | [] => []
  | node :: rest => node.templateConditions config ++ templateConditionsOf config rest

end

def Template.templateConditions (config : Config) (t : Template) : List Content :=
  (t.root?.map (Node.templateConditions config)).getD []

/-! ## Statements are tests of conditions -/

/-- A statement that tests a condition. -/
def Declaration.Tests (config : Config) (content : Content) (d : Declaration) : Prop :=
  ∃ name site term, content.term? true = some term ∧
    d = .assign name (.or (term.code config site (binds [])) (.constant none .null))

theorem Declaration.Tests.isReadable_iff {content : Content} {d : Declaration}
    (h : d.Tests config content) :
    d.IsReadable host config ↔ (content.render host true).isSome := by
  obtain ⟨name, site, term, hterm, rfl⟩ := h
  have hcontent : content.render host true = term.render host := by
    simp [Content.render, hterm]
  rw [hcontent]
  refine ⟨fun hreadable => ?_, fun hread => ⟨name, site, term, rfl, hread⟩⟩
  obtain ⟨name', site', term', heq, hread⟩ := hreadable
  obtain ⟨-, hor⟩ := Declaration.assign.inj heq
  -- the code is the same, so it comes to the same where the instance is known
  let ρ : Locals α := [(config.instanceParam, some host.inst)]
  have hρ : ρ.find config.instanceParam = some host.inst := Locals.find_cons_self _ _ _
  rwa [← term.eval_code hρ site, (Code.or.inj hor).1, term'.eval_code hρ site']

theorem LowersReadings.condition?_cases {bound : String → Bool} {site : Site} {isComponent : Bool}
    {readings : List Reading} {parts : List Part}
    (h : LowersReadings env K bound site isComponent readings parts n n') :
    (Part.condition? parts = none ∧ Reading.condition? readings = none) ∨
      ∃ content term, Reading.condition? readings = some content ∧
        content.term? true = some term ∧
        Part.condition? parts = some (term.code env.config site bound) := by
  induction h with
  | nil => exact .inl ⟨rfl, rfl⟩
  | cons head _ ih =>
    unfold Part.condition? Reading.condition? at *
    rw [List.findSome?_append, List.findSome?_cons]
    cases head with
    | condition reads => exact .inr ⟨_, _, rfl, reads, rfl⟩
    | iteration | slot | component | alternative | property => simpa using ih

theorem GuardsItems.tests {readings : List Reading} {parts : List Part} {site : Site}
    {isComponent : Bool} {items kept : List Item} {ds : List Declaration} {n₁ n₂ : Numbering}
    (h : GuardsItems (Part.condition? parts) items kept ds n n')
    (hlowers : LowersReadings env K (binds []) site isComponent readings parts n₁ n₂) :
    List.Forall₂ (Declaration.Tests env.config)
      (if items = [] then [] else (Reading.condition? readings).toList) ds := by
  rcases hlowers.condition?_cases with ⟨hp, hr⟩ | ⟨content, term, hr, hterm, hp⟩
  · rw [hp] at h
    rw [hr]
    cases h
    simp
  · rw [hp] at h
    rw [hr]
    cases h with
    | nothing => simp
    | guarded nonempty =>
      rw [if_neg nonempty]
      exact .cons ⟨_, site, term, hterm, rfl⟩ .nil

theorem SealsElement.tests {pos : Position} {tag : Tag} {readings : List Reading}
    {parts : List Part} {items : List Item} {ds outer : List Declaration} {kind : ElementKind}
    {sibling : Sibling} {site : Site} {isComponent : Bool} {n₁ n₂ : Numbering}
    {inner : List Content}
    (h : SealsElement env.config K pos tag readings parts items ds kind none sibling outer n n')
    (hlowers : LowersReadings env K (binds []) site isComponent readings parts n₁ n₂)
    (hds : List.Forall₂ (Declaration.Tests env.config) inner ds) :
    List.Forall₂ (Declaration.Tests env.config)
      (inner ++ if kind = .template ∧ items ≠ [] then (Reading.condition? readings).toList else [])
      outer := by
  cases h with
  | spliced guarded =>
    have hguards := guarded.tests hlowers
    refine List.rel_append hds ?_
    by_cases hitems : items = [] <;> simpa [hitems] using hguards
  | outlet => simpa using hds
  | fixed _ calls | guarded _ calls => cases calls <;> simpa using hds

theorem LowersElement.tests {place : Place} {pos : Position} {tag : Tag}
    {attributes : List Attribute} {children : List Node} {sibling : Sibling}
    {ds : List Declaration}
    (h : LowersElement env K [] place pos tag attributes children sibling ds n n')
    (honce : (Node.element pos tag attributes children).repeats = false)
    (hchildren : ∀ {siblings ds n n'}, LowersNodes env K [] place 0 children siblings ds n n' →
      List.Forall₂ (Declaration.Tests env.config) (templateConditionsOf env.config children) ds) :
    List.Forall₂ (Declaration.Tests env.config)
      ((Node.element pos tag attributes children).templateConditions env.config) ds := by
  rw [Node.repeats, Bool.or_eq_false_iff] at honce
  cases h with
  | @mk _ _ _ _ _ _ readings loop _ siblings items _ ds₁ ds₂ _ _ _ _ _ _ reads opens lowersReadings
      lowersChildren finishes seals =>
    obtain rfl := opens.eq_none reads honce.1
    have hitems : items = [] ↔ allVoid children := by
      rw [finishes.eq_nil_iff fun _ => List.isChain_of_mem_splitBy, Sibling.chains,
        List.flatten_splitBy]
      exact LowersNodes.isVoid_iff lowersChildren
    have hnone : ds₂ = [] := by
      refine finishes.eq_nil ?_
      rw [Sibling.chains, List.flatten_splitBy]
      exact (LowersNodes.temporaries lowersChildren honce.2).2
    have hinner := hchildren lowersChildren
    rw [← List.append_nil ds₁, ← hnone] at hinner
    have htests := seals.tests lowersReadings hinner
    have hreadings : (Node.element pos tag attributes children).readings env.config = readings := by
      simp only [Node.readings, reads]
    rw [Node.templateConditions, hreadings]
    simpa [hitems] using htests

mutual

theorem LowersNode.tests :
    ∀ {node : Node} {around before siblings ds n n'},
      LowersNode env K [] around before node siblings ds n n' → node.repeats = false →
      List.Forall₂ (Declaration.Tests env.config) (node.templateConditions env.config) ds
  | .text .., _, _, _, _, _, _, h, _ => by
    cases h <;> exact .nil
  | .placeholder .., _, _, _, _, _, _, h, _ => by
    cases h <;> exact .nil
  | .fragment _ children, _, _, _, _, _, _, h, honce => by
    cases h with
    | fragment lowersChildren => exact LowersNodes.tests lowersChildren honce
  | .element _ _ _ children, _, _, _, _, _, _, h, honce => by
    have hrepeats := honce
    rw [Node.repeats, Bool.or_eq_false_iff] at hrepeats
    cases h with
    | element lowers => exact lowers.tests honce fun h => LowersNodes.tests h hrepeats.2
  | .literal .., _, _, _, _, _, _, h, _ => nomatch h
  | .attr .., _, _, _, _, _, _, h, _ => nomatch h
  | .template .., _, _, _, _, _, _, h, _ => nomatch h

theorem LowersNodes.tests :
    ∀ {nodes : List Node} {around before siblings ds n n'},
      LowersNodes env K [] around before nodes siblings ds n n' → anyRepeats nodes = false →
      List.Forall₂ (Declaration.Tests env.config) (templateConditionsOf env.config nodes) ds
  | [], _, _, _, _, _, _, h, _ => by
    cases h
    exact .nil
  | node :: rest, _, _, _, _, _, _, h, honce => by
    rw [anyRepeats, Bool.or_eq_false_iff] at honce
    cases h with
    | cons head tail =>
      exact List.rel_append (LowersNode.tests head honce.1) (LowersNodes.tests tail honce.2)

end

/-! ## Units -/

namespace Compiles

variable {t : Template} {compiled : Compiled} {sibling : Sibling} {ds : List Declaration}

/-- The statements of a unit test the conditions of its templates, in their order. -/
theorem tests (h : Compiles env t compiled K sibling ds n) (honce : t.repeats = false) :
    List.Forall₂ (Declaration.Tests env.config) (t.templateConditions env.config) ds := by
  obtain ⟨pos, attributes, children, hroot, hl⟩ := h.root
  have hrepeats := Template.repeats_root honce hroot
  rw [Template.templateConditions, hroot]
  refine hl.tests hrepeats fun h => LowersNodes.tests h ?_
  rw [Node.repeats, Bool.or_eq_false_iff] at hrepeats
  exact hrepeats.2

theorem isReadable_iff (h : Compiles env t compiled K sibling ds n) (honce : t.repeats = false) :
    (∀ d ∈ ds, d.IsReadable host env.config) ↔
      ∀ content ∈ t.templateConditions env.config, (content.render host true).isSome := by
  have htests := h.tests honce
  clear h
  generalize t.templateConditions env.config = contents at htests
  induction htests with
  | nil => simp
  | cons head _ ih =>
    rw [List.forall_mem_cons, List.forall_mem_cons]
    exact and_congr head.isReadable_iff ih

theorem isTemporary (h : Compiles env t compiled K sibling ds n) (honce : t.repeats = false) :
    ∀ d ∈ ds, d.IsTemporary env.config := by
  obtain ⟨pos, attributes, children, hroot, hl⟩ := h.root
  have hrepeats := Template.repeats_root honce hroot
  rw [Node.repeats, Bool.or_eq_false_iff] at hrepeats
  exact (hl.temporaries hrepeats.1 fun h => LowersNodes.temporaries h hrepeats.2).1

/-- A module renders what its markup does if the conditions that it tests first can be read, and
nothing else. -/
theorem render_eq (h : Compiles env t compiled K sibling ds n) (honce : t.repeats = false)
    (hnames : compiled.module.NamesApart env.config) (hprimitives : env.config.primitives = {}) :
    ((∀ content ∈ t.templateConditions env.config, (content.render host true).isSome) →
      compiled.module.render host = t.render host env.config) ∧
    ((compiled.module.render host).isSome →
      ∀ content ∈ t.templateConditions env.config, (content.render host true).isSome) := by
  rw [← h.isReadable_iff honce, h.render_eq_run]
  constructor
  · intro hreadable
    obtain ⟨ρ, hrun, hsettled, hfind⟩ := h.run_start hnames hreadable
    have hρ := h.start_provides hnames hprimitives hfind
    rw [hrun, Option.bind_some, h.eval_result honce hρ hsettled]
  · intro hsome
    rcases hrun : runStatements host (compiled.module.start env.config host) ds with _ | ρ
    · simp [hrun] at hsome
    · refine readable_of_run (h.isTemporary honce) ?_ (hnames.find_start host).2.1 hrun
      exact h.notMem_hoistedNames (hnames.numbered _ (by simp [Config.reserved]))

end Compiles

/-! ## Configured primitives -/

/-- The default name of a primitive that is named otherwise. -/
def Primitives.standard (p : Primitives) (name : String) : String :=
  if name = p.element then "h"
  else if name = p.customElement then "c"
  else if name = p.virtualElement then "v"
  else if name = p.text then "t"
  else if name = p.iterator then "i"
  else if name = p.flatten then "f"
  else if name = p.empty then "e"
  else name

def Primitives.names (p : Primitives) : List String :=
  [p.element, p.customElement, p.virtualElement, p.text, p.iterator, p.flatten, p.empty]

/-- What a module renders for an interface that has the primitives under their configured names. -/
def Module.renderUnder (config : Config) (host : Host α) (m : Module) : Option (Value α) :=
  (m.rename ⟨config.apiParam, config.primitives.standard⟩).render host

theorem Primitives.standard_default (name : String) : standard {} name = name := by
  unfold standard
  split_ifs <;> simp_all

/-- Under the default names of the primitives that is what the module renders. -/
theorem Module.renderUnder_default (hprimitives : config.primitives = {}) (m : Module) :
    m.renderUnder config host = m.render host := by
  rw [renderUnder, rename, hprimitives, Function.rename_self Primitives.standard_default]

theorem Primitives.standard_between (hslots : config.slotsetParam ≠ config.apiParam)
    (hmemo : config.contextParam ≠ config.apiParam) (hnodup : config.primitives.names.Nodup) :
    Renaming.Between ⟨config.apiParam, config.primitives.standard⟩ config
      { config with primitives := {} } := by
  simp only [Primitives.names, List.nodup_cons, List.mem_cons, List.not_mem_nil, or_false, not_or]
    at hnodup
  obtain ⟨⟨hc, hv, ht, hi, hf, he⟩, ⟨hv', ht', hi', hf', he'⟩, ⟨ht'', hi'', hf'', he''⟩,
    ⟨hi₃, hf₃, he₃⟩, ⟨hf₄, he₄⟩, he₅, -⟩ := hnodup
  constructor
  case interface => rfl
  case slots => exact hslots
  case memo => exact hmemo
  case same => rfl
  all_goals simp [standard, Ne.symm, *]

section

variable (primitives : Primitives)

theorem Node.readings_primitives (node : Node) :
    node.readings { config with primitives } = node.readings config := by
  have hreserved : Config.reserved { config with primitives } = config.reserved := rfl
  cases node with
  | element => simp only [Node.readings, Reading.ofAttributes_congr hreserved]
  | text | placeholder | fragment | literal | attr | template => rfl

mutual

theorem renderNode_primitives : ∀ (node : Node) (rest : Rendered α),
    renderNode host { config with primitives } node rest = renderNode host config node rest
  | .element pos tag attributes children, rest => by
    rw [renderNode, renderNode, renderNodes_primitives children, Node.readings_primitives]
    rfl
  | .fragment _ children, rest => by
    rw [renderNode, renderNode, renderNodes_primitives children]
  | .text .., _ | .placeholder _ none, _ | .placeholder _ (some _), _ | .literal .., _ | .attr _, _
  | .template .., _ => by rw [renderNode, renderNode]

theorem renderNodes_primitives : ∀ (nodes : List Node) (rest : Rendered α),
    renderNodes host { config with primitives } nodes rest = renderNodes host config nodes rest
  | [], _ => by rw [renderNodes, renderNodes]
  | node :: nodes, rest => by
    rw [renderNodes, renderNodes, renderNodes_primitives nodes, renderNode_primitives node]

end

mutual

theorem Node.templateConditions_primitives : ∀ node : Node,
    node.templateConditions { config with primitives } = node.templateConditions config
  | .element pos tag attributes children => by
    rw [Node.templateConditions, Node.templateConditions, templateConditionsOf_primitives children,
      Node.readings_primitives]
  | .fragment _ children => by
    rw [Node.templateConditions, Node.templateConditions, templateConditionsOf_primitives children]
  | .text .. | .placeholder .. | .literal .. | .attr _ | .template .. => by
    rw [Node.templateConditions, Node.templateConditions]

theorem templateConditionsOf_primitives : ∀ nodes : List Node,
    templateConditionsOf { config with primitives } nodes = templateConditionsOf config nodes
  | [] => by rw [templateConditionsOf, templateConditionsOf]
  | node :: nodes => by
    rw [templateConditionsOf, templateConditionsOf, Node.templateConditions_primitives node,
      templateConditionsOf_primitives nodes]

end

/-- What a template renders has nothing to do with the names of the primitives. -/
theorem Template.render_primitives (t : Template) :
    t.render host { config with primitives } = t.render host config := by
  unfold Template.render
  split
  · simp only [renderNodes_primitives]
    rw [Node.readings_primitives]
  · rfl

theorem Template.templateConditions_primitives (t : Template) :
    t.templateConditions { config with primitives } = t.templateConditions config := by
  unfold Template.templateConditions
  rcases t.root? with _ | root
  · rfl
  · simp only [Option.map_some, Node.templateConditions_primitives]

end

/-! ## What fails, and what does not -/

variable {t : Template} {compiled : Compiled}

/-- Where no element repeats, a module renders what its markup does if all conditions of templates
can be read, and nothing else. -/
theorem renderUnder_eq (h : (compile env t).1 = .ok compiled) (honce : t.repeats = false)
    (hnames : compiled.module.NamesApart env.config)
    (hprimitives : env.config.primitives.names.Nodup) :
    compiled.module.renderUnder env.config host =
      if ∀ content ∈ t.templateConditions env.config, (content.render host true).isSome then
        t.render host env.config
      else none := by
  have hservices : [env.config.apiParam, env.config.instanceParam, env.config.slotsetParam,
      env.config.contextParam].Nodup := hnames.nodup.sublist (List.drop_sublist 3 env.config.names)
  simp only [List.nodup_cons, List.mem_cons, List.not_mem_nil, or_false, not_or] at hservices
  obtain ⟨⟨-, hslots, hmemo⟩, -⟩ := hservices
  have hbetween := Primitives.standard_between (Ne.symm hslots) (Ne.symm hmemo) hprimitives
  have hrename := compile_rename _ hbetween t
  rw [h] at hrename
  obtain ⟨K, sibling, ds, n, hc⟩ := compiles_of_ok (congrArg Prod.fst hrename)
  -- under the default primitives the names are the same, and so are the imports
  have hapart :
      (compiled.rename ⟨env.config.apiParam, env.config.primitives.standard⟩).module.NamesApart
      (env.withConfig { env.config with primitives := {} }).config :=
    ⟨hnames.nodup, hnames.aliases, hnames.numbered⟩
  obtain ⟨hread, hfail⟩ := hc.render_eq honce hapart rfl
  rw [← t.templateConditions_primitives {}, ← t.render_primitives {}]
  split
  · rename_i hconditions
    exact hread hconditions
  · rename_i hconditions
    exact Option.not_isSome_iff_eq_none.1 fun hsome => hconditions (hfail hsome)

/-- A module renders without a failed read if and only if its markup does and every condition of a
template that contributes something can be read, wherever the template stands. -/
theorem guards_protect (h : (compile env t).1 = .ok compiled) (honce : t.repeats = false)
    (hnames : compiled.module.NamesApart env.config)
    (hprimitives : env.config.primitives.names.Nodup) :
    (compiled.module.renderUnder env.config host).isSome ↔
      (t.render host env.config).isSome ∧
        ∀ content ∈ t.templateConditions env.config, (content.render host true).isSome := by
  rw [renderUnder_eq h honce hnames hprimitives]
  split
  · rename_i hconditions
    exact (and_iff_left hconditions).symm
  · rename_i hconditions
    exact iff_of_false (by simp) fun hboth => hconditions hboth.2

/-- The sample host, where only the instance has members. -/
def shallowHost : Host Unit :=
  { sampleHost with
    member := fun v field => match v with
      | .native _ => some (.constant (.text field))
      | _ => none }

/-- Other names for the instance, the interface and what it makes. -/
def renamedEnv : Env :=
  { Env.default with
    config := {
      apiParam := "ui", instanceParam := "self",
      primitives := { element := "tag", text := "show", flatten := "e", empty := "nothing" } } }

/-- An attribute that cannot be read, and a template, in an element that is not rendered. -/
def protectedTemplate : Template :=
  .ofRoot [.plain "p" [.text "set" "if" "no"]
    [.plain "b" [.text "set" "title" "a.b"] [],
      .plain "template" [.text "set" "if" "yes"] [.name "x"]],
    .plain "i" [.bare "set" "else"] []]

theorem guards_protect_renamed :
    ∃ compiled, (compile renamedEnv protectedTemplate).1 = .ok compiled ∧
      (compiled.module.renderUnder renamedEnv.config shallowHost).isSome := by
  have himports : (compile renamedEnv protectedTemplate).1.toOption.map
      (fun c => c.module.imports) = some [] := by
    decide +kernel
  obtain ⟨compiled, hc, hm⟩ := exists_ok_of_map himports
  have hnames : compiled.module.NamesApart renamedEnv.config := by
    refine ⟨by decide, ?_, by decide⟩
    rw [hm]
    decide
  exact ⟨compiled, hc, (guards_protect hc (by decide) hnames (by decide)).2
    ⟨by decide +kernel, by decide +kernel⟩⟩

/-- A template with a condition that cannot be read, in an element that is not rendered. -/
def unprotectedTemplate : Template :=
  .ofRoot [.plain "p" [.text "set" "if" "no"]
    [.plain "template" [.text "set" "if" "a.b"] [.plain "i" [] []]]]

/-- An instance that is named like the first temporary. -/
def clashingEnv : Env :=
  { Env.default with config := { instanceParam := "_expr0" } }

/-- A condition, and a read of the instance after it has been tested. -/
def clashingTemplate : Template :=
  .ofRoot [.plain "template" [.text "set" "if" "no"] [.plain "i" [] []], .name "x"]

/-- The markup is rendered, and the module fails: for a condition that is tested in vain, or for an
instance that a temporary has taken the place of. -/
theorem condition_is_unprotected :
    (unprotectedTemplate.repeats = false ∧ (unprotectedTemplate.render shallowHost {}).isSome ∧
      ∃ compiled, (compile .default unprotectedTemplate).1 = .ok compiled ∧
        compiled.module.render shallowHost = none) ∧
    clashingTemplate.repeats = false ∧
      (clashingTemplate.render shallowHost clashingEnv.config).isSome ∧
      ∃ compiled, (compile clashingEnv clashingTemplate).1 = .ok compiled ∧
        compiled.module.render shallowHost = none := by
  have hunprotected : (compile .default unprotectedTemplate).1.toOption.map (fun c =>
      (c.module.render shallowHost).isSome) = some false := by
    decide +kernel
  have hclashing : (compile clashingEnv clashingTemplate).1.toOption.map (fun c =>
      (c.module.render shallowHost).isSome) = some false := by
    decide +kernel
  obtain ⟨compiled, hc, hm⟩ := exists_ok_of_map hunprotected
  obtain ⟨compiled', hc', hm'⟩ := exists_ok_of_map hclashing
  exact ⟨⟨by decide, by decide +kernel, compiled, hc, by simpa using hm⟩,
    by decide, by decide +kernel, compiled', hc', by simpa using hm'⟩

end TemplateCompiler
