import TemplateCompiler.Proofs.Accounting
import TemplateCompiler.Proofs.Components
import TemplateCompiler.Proofs.Inheritance

/-!
# Imports and the calls that refer to them

A module imports what its markup asks for, once each and under aliases that differ, and refers to
it by these: the calls of components in its function are those of the elements that have one, and
each calls what its element asks for by the alias of its import (`imports_agree`).
-/

namespace TemplateCompiler

variable {env : Env} {config : Config} {K : Context} {t : Template} {n n' : Numbering}

/-! ## Calls of components -/

/-- The calls of components have names of their own. -/
def Config.NamesComponents (config : Config) : Prop :=
  config.apiParam ∉ [config.slotsetParam, config.contextParam] ∧ config.primitives.names.Nodup

instance (config : Config) : Decidable config.NamesComponents :=
  inferInstanceAs (Decidable (_ ∧ _))

/-- The component that a call makes an element of: the second operand for a custom element, the
first for a virtual one. -/
def Code.component? (config : Config) : Code → Option Code
  | .call (.member _ (.ref id) maker) arguments =>
    if id = config.apiParam then
      if maker = config.primitives.customElement then arguments[1]?
      else if maker = config.primitives.virtualElement then arguments[0]?
      else none
    else none
  | _ => none

/-- An element with a component, as a call makes it: what is passed is what the element's own
attributes say, and what is called is imported for the element's tag or its is, or is what an
expression comes to. -/
inductive Node.MadeBy (env : Env) (imports : List Import) (t : Template) (place : Place) :
    Node → Code → Code → Prop where
  | mk {pos tag attributes children readings entries component call}
      (reads : Reading.ofAttributes env.config [] attributes = .ok readings)
      (kind : (elementKind tag readings).isComponent)
      (passes : List.Forall₂ (Property.IsEntry env t ⟨place, false⟩ true)
        (readings.filterMap Reading.property?) entries)
      (called : Called env.config imports tag (Entry.attributes .dict entries)
        (elementKind tag readings) component call)
      (selects : ∀ content, Reading.component? readings = some content → tag.ns = none →
        content.Selects env.config imports t ⟨place, false⟩ component) :
      Node.MadeBy env imports t place (.element pos tag attributes children) component call

theorem Code.component?_callPrimitive (name : String) (arguments : List Code) :
    (config.callPrimitive name arguments).component? config =
      if name = config.primitives.customElement then arguments[1]?
      else if name = config.primitives.virtualElement then arguments[0]? else none :=
  if_pos rfl

section

variable (hconfig : config.NamesComponents)

include hconfig

theorem Config.NamesComponents.custom_ne_virtual :
    config.primitives.customElement ≠ config.primitives.virtualElement := by
  have hnodup := hconfig.2
  simp only [Primitives.names, List.nodup_cons, List.mem_cons, List.not_mem_nil, or_false, not_or]
    at hnodup
  exact hnodup.2.1.1

theorem Code.component?_service {name : String} {arguments : List Code}
    (hname : name ∈ config.primitives.element :: config.primitives.services) :
    (config.callPrimitive name arguments).component? config = none := by
  have hnodup := hconfig.2
  simp only [Primitives.names, List.nodup_cons, List.mem_cons, List.not_mem_nil, or_false, not_or]
    at hnodup
  simp only [Primitives.services, List.mem_cons, List.not_mem_nil, or_false] at hname
  rw [component?_callPrimitive]
  rcases hname with rfl | rfl | rfl | rfl | rfl <;> simp [hnodup, Ne.symm]

/-- No call of a component is in code that makes no content. -/
theorem Plain.component?_eq_none {code : Code} (h : Plain config code) :
    ∀ c ∈ code.subterms, c.component? config = none := by
  have hcontext : config.contextParam ≠ config.apiParam :=
    fun heq => hconfig.1 (by simp [heq])
  induction h with
  | ref | name | constant | foreign =>
    simp [Code.subterms, Code.component?]
  | member _ ih =>
    rw [Code.subterms, List.forall_mem_cons]
    exact ⟨rfl, ih⟩
  | index _ _ ih ih' | or _ _ ih ih' =>
    rw [Code.subterms, List.forall_mem_cons, List.forall_mem_append]
    exact ⟨rfl, ih, ih'⟩
  | dict _ ih =>
    rw [Code.subterms, List.forall_mem_cons, Code.entrySubterms_eq, List.forall_mem_flatMap]
    exact ⟨rfl, ih⟩
  | bound _ ih =>
    simp only [Code.subterms, Code.listSubterms, List.forall_mem_cons, List.forall_mem_append]
    exact ⟨rfl, by simp [Code.component?], ih, by simp [Code.component?]⟩
  | lookup =>
    simp [Code.subterms, Code.listSubterms, Code.component?, Code.refMember, Code.text, hcontext]
  | store _ ih =>
    simpa [Code.subterms, Code.listSubterms, Code.component?, Code.refMember, Code.text, hcontext]
      using ih

end

/-! ## From what is lowered -/

variable {imports : List Import} {place : Place} {component call : Code} {compiled : Compiled}
  {sibling : Sibling} {ds : List Declaration}

theorem Node.MadeBy.component? {e : Node} (h : e.MadeBy env imports t place component call)
    (hconfig : env.config.NamesComponents) : call.component? env.config = some component := by
  cases h with
  | mk _ kind _ called =>
    generalize elementKind _ _ = made at kind called
    cases called with
    | virtual | dynamic =>
      rw [Code.component?_callPrimitive, if_neg hconfig.custom_ne_virtual.symm, if_pos rfl]
      rfl
    | custom =>
      rw [Code.component?_callPrimitive, if_pos rfl]
      rfl
    | plain => simp [ElementKind.isComponent] at kind

/-- What an element asks for is called by the alias that it is imported under. -/
theorem Node.MadeBy.imported {e : Node} (h : e.MadeBy env imports t place component call)
    {path : String} (hpath : e.request? env.config = some path) :
    ∃ i ∈ imports, i.path = path ∧ component = .ref i.localName := by
  cases h with
  | @mk pos tag attributes children readings _ _ _ reads _ _ called selects =>
    simp only [Node.request?, Node.readings, reads] at hpath
    have hdynamic : elementKind tag readings = .dynamic → tag.ns = none := by
      unfold elementKind ElementKind.ofTag
      cases tag.ns <;> simp
    generalize elementKind tag readings = made at hpath called hdynamic
    cases called with
    | virtual imported path =>
      exact ⟨_, imported, path.trans (Option.some.inj hpath), rfl⟩
    | custom imported path =>
      exact ⟨_, imported, path.trans (Option.some.inj hpath), rfl⟩
    | dynamic =>
      obtain ⟨name, hname, rfl⟩ := Option.map_eq_some_iff.1 hpath
      rcases hcomponent : Reading.component? readings with _ | content
      · simp [hcomponent, Text.given] at hname
      · have hselects := selects content hcomponent (hdynamic rfl)
        rw [hcomponent, Option.bind_some] at hname
        rwa [Content.Selects, hname] at hselects
    | plain => simp [ElementKind.request?] at hpath

/-- The call of an element makes a component of it, or a plain element if it asks for none. -/
theorem CallAt.madeBy (h : CallAt env K t place call)
    (hc : Compiles env t compiled K sibling ds n) :
    ∃ e, t.elementAt? place = some e ∧
      ((∃ component, e.MadeBy env compiled.module.imports t place component call) ∨
        e.request? env.config = none ∧ ∃ arguments,
          call = env.config.callPrimitive env.config.primitives.element arguments) := by
  obtain @⟨pos, tag, attributes, children, binders, readings, parts, items, n, n', element, reads,
    within, lowers, calls⟩ := h
  obtain ⟨component, called, selects⟩ := calls.called hc lowers within.binds_eq
  refine ⟨_, element, ?_⟩
  by_cases hkind : (elementKind tag readings).isComponent
  · have hentries := lowers.entries within.binds_eq
    rw [hkind] at hentries
    exact .inl ⟨component, .mk reads hkind hentries called selects⟩
  · simp only [Node.request?, Node.readings, reads]
    generalize elementKind tag readings = made at calls hkind
    cases calls with
    | plain => exact .inr ⟨rfl, _, rfl⟩
    | virtual | named | computed | custom => simp [ElementKind.isComponent] at hkind

/-- All calls of components in some code are those of elements. -/
def CallsElements (env : Env) (K : Context) (t : Template) (code : Code) : Prop :=
  ∀ c ∈ code.subterms, c.component? env.config ≠ none → ∃ place, CallAt env K t place c

theorem callsElements_of_parts {code : Code}
    (hcall : code.component? env.config ≠ none → ∃ place, CallAt env K t place code)
    (hparts : ∀ part ∈ code.parts, CallsElements env K t part) : CallsElements env K t code := by
  intro c hc
  rw [Code.subterms_eq] at hc
  rcases List.mem_cons.1 hc with rfl | hc
  · exact hcall
  · obtain ⟨part, hpart, hc⟩ := List.mem_flatMap.1 hc
    exact hparts part hpart c hc

theorem Plain.callsElements (hconfig : env.config.NamesComponents) {code : Code}
    (h : Plain env.config code) : CallsElements env K t code :=
  fun c hc hcall => absurd (h.component?_eq_none hconfig c hc) hcall

theorem inherits_callsElements (hconfig : env.config.NamesComponents) :
    Inherits env K t (CallsElements env K t) where
  plain h := h.callsElements hconfig
  service {name arguments} hname harguments := by
    have hnone : (env.config.callPrimitive name arguments).component? env.config = none :=
      Code.component?_service hconfig (List.mem_cons_of_mem _ hname)
    have hcallee : Plain env.config (env.config.primitive name) := .member .ref
    refine callsElements_of_parts (fun hcall => absurd hnone hcall) ?_
    exact List.forall_mem_cons.2 ⟨hcallee.callsElements hconfig, harguments⟩
  outlet hcode := by
    have hslotset : env.config.slotsetParam ≠ env.config.apiParam :=
      fun heq => hconfig.1 (by simp [heq])
    refine callsElements_of_parts (fun hcall => absurd rfl hcall) ?_
    refine List.forall_mem_cons.2 ⟨fun c hc hcall => ?_, List.forall_mem_singleton.2 hcode⟩
    simp only [Code.subterms, Code.listSubterms, Code.refMember, Code.text, List.mem_cons,
      List.cons_append, List.nil_append, List.not_mem_nil, or_false] at hc
    rcases hc with rfl | rfl | rfl | rfl <;> simp [Code.component?, hslotset] at hcall
  dict hentries :=
    callsElements_of_parts (fun hcall => absurd rfl hcall) (List.forall_mem_map.2 hentries)
  list hitems := callsElements_of_parts (fun hcall => absurd rfl hcall) hitems
  choice htest hbody halternative :=
    callsElements_of_parts (fun hcall => absurd rfl hcall) (List.forall_mem_cons.2
      ⟨htest, List.forall_mem_cons.2 ⟨hbody, List.forall_mem_singleton.2 halternative⟩⟩)
  guarded {name code} hcode := by
    have hcondition : Plain env.config (.ref name) := .ref
    exact callsElements_of_parts (fun hcall => absurd rfl hcall) (List.forall_mem_cons.2
      ⟨hcondition.callsElements hconfig, List.forall_mem_singleton.2 hcode⟩)
  function hbody :=
    callsElements_of_parts (fun hcall => absurd rfl hcall) (List.forall_mem_singleton.2 hbody)
  call hcall hoperands := by
    refine callsElements_of_parts (fun _ => ⟨_, hcall⟩) ?_
    obtain ⟨-, -, -, -, calls⟩ := hcall
    generalize elementKind _ _ = kind at calls
    cases calls <;> exact hoperands

section

variable (hc : Compiles env t compiled K sibling ds n)

include hc

/-- The call of an element that asks for a component stands in the function. -/
theorem Compiles.exists_call {e : Node} {path : String} (he : t.elementAt? place = some e)
    (hpath : e.request? env.config = some path) :
    ∃ call ∈ compiled.module.function.subterms,
      ∃ component, e.MadeBy env compiled.module.imports t place component call := by
  cases e with
  | element pos tag attributes children =>
    obtain ⟨binders, s, inner, m, m', hl⟩ := hc.exists_lowered place he
    cases hl.lowers with
    | @mk _ _ _ _ _ _ readings loop parts _ _ _ _ _ _ _ _ _ _ _ reads opens lowersReadings _ _
        seals =>
      have hkind : (elementKind tag readings).chooses := by
        simp only [Node.request?, Node.readings, reads] at hpath
        revert hpath
        cases elementKind tag readings <;> simp [ElementKind.request?, ElementKind.chooses]
      have hinside := opens.binds_enclosing hl.binders (Template.readingsAt_element he reads)
      obtain ⟨call, chosen, own, calls, hcode, -, -⟩ := seals.call_stands hkind hl.stands hl.inner
      have hcall : CallAt env K t place call := .mk he reads hinside lowersReadings calls
      obtain ⟨e, he', ⟨component, hmade⟩ | ⟨hnone, -⟩⟩ := hcall.madeBy hc
      · obtain rfl := Option.some.inj (he.symm.trans he')
        exact ⟨call, hcode.choice.stands hcode.body, component, hmade⟩
      · obtain rfl := Option.some.inj (he.symm.trans he')
        exact absurd (hnone.symm.trans hpath) (by simp)
  | text | placeholder | fragment | literal | attr | template => simp [Node.request?] at hpath

/-- Every call of a component in the function is that of an element. -/
theorem Compiles.exists_element (hconfig : env.config.NamesComponents)
    (hcall : call ∈ compiled.module.function.subterms)
    (hcomponent : call.component? env.config = some component) :
    ∃ place e, t.elementAt? place = some e ∧
      e.MadeBy env compiled.module.imports t place component call := by
  obtain ⟨hresult, hinner⟩ := hc.inherits (inherits_callsElements hconfig)
  have hat : ∃ place, CallAt env K t place call := by
    have hne : call.component? env.config ≠ none := by simp [hcomponent]
    rcases List.mem_append.1 hcall with hmem | hmem
    · exact hresult call hmem hne
    · obtain ⟨d, hd, hmem⟩ := List.mem_flatMap.1 hmem
      exact hinner d hd call hmem hne
  obtain ⟨place, hat⟩ := hat
  obtain ⟨e, he, ⟨component', hmade⟩ | ⟨-, arguments, rfl⟩⟩ := hat.madeBy hc
  · obtain rfl := Option.some.inj (hcomponent.symm.trans (hmade.component? hconfig))
    exact ⟨place, e, he, hmade⟩
  · simp [Code.component?_service hconfig] at hcomponent

end

/-! ## Agreement -/

mutual

theorem Node.exists_element_of_mem_requests :
    ∀ {node : Node} {around before path}, t.Shows around before node.elements →
      path ∈ node.requests config →
        ∃ place e, t.elementAt? place = some e ∧ e.request? config = some path
  | .element pos tag attributes children, _, _, _, ht, h => by
    have he := ht 0 _ rfl
    rw [Node.requests] at h
    rcases List.mem_append.1 h with h | h
    · exact exists_element_of_mem_requestsOf (Template.shows_children he) h
    · exact ⟨_, _, he, Option.mem_toList.1 h⟩
  | .fragment _ children, _, _, _, ht, h => by
    rw [Node.requests] at h
    exact exists_element_of_mem_requestsOf ht h
  | .text .., _, _, _, _, h | .placeholder .., _, _, _, _, h | .literal .., _, _, _, _, h
  | .attr _, _, _, _, _, h | .template .., _, _, _, _, h => by simp [Node.requests] at h

theorem exists_element_of_mem_requestsOf :
    ∀ {nodes : List Node} {around before path}, t.Shows around before (elementsOf nodes) →
      path ∈ requestsOf config nodes →
        ∃ place e, t.elementAt? place = some e ∧ e.request? config = some path
  | [], _, _, _, _, h => by simp [requestsOf] at h
  | node :: rest, _, _, _, ht, h => by
    rw [elementsOf] at ht
    rw [requestsOf] at h
    rcases List.mem_append.1 h with h | h
    · exact Node.exists_element_of_mem_requests ht.left h
    · exact exists_element_of_mem_requestsOf ht.right h

end

/-- Everything that a template asks for is asked for by an element of it. -/
theorem Compiles.exists_element_of_mem_requests (hc : Compiles env t compiled K sibling ds n)
    {path : String} (h : path ∈ t.requests env.config) :
    ∃ place e, t.elementAt? place = some e ∧ e.request? env.config = some path := by
  obtain ⟨pos, attributes, children, hroot, -⟩ := hc.root
  have ht : t.elementAt? [] = some (.element pos ⟨none, "template"⟩ attributes children) := by
    simp [Template.elementAt?, hroot]
  rw [Template.requests, hroot, Option.map_some, Option.getD_some, Node.requests,
    List.mem_append] at h
  rcases h with h | h
  · exact exists_element_of_mem_requestsOf (Template.shows_children ht) h
  · exact ⟨[], _, ht, Option.mem_toList.1 h⟩

/-- The imports of a unit, and the calls of components that refer to them. -/
structure ImportsAgree (env : Env) (t : Template) (compiled : Compiled) : Prop where
  dependencies : compiled.dependencies = (t.requests env.config).eraseDups
  paths : compiled.module.imports.map Import.path = compiled.dependencies
  apart : (compiled.module.imports.map Import.localName).Nodup
  called : ∀ place e path, t.elementAt? place = some e → e.request? env.config = some path →
    ∃ i ∈ compiled.module.imports, i.path = path ∧
      ∃ call ∈ compiled.module.function.subterms,
        e.MadeBy env compiled.module.imports t place (.ref i.localName) call
  calls : ∀ call ∈ compiled.module.function.subterms, ∀ component,
    call.component? env.config = some component → ∃ place e, t.elementAt? place = some e ∧
      e.MadeBy env compiled.module.imports t place component call ∧
      ∀ path, e.request? env.config = some path →
        ∃ i ∈ compiled.module.imports, i.path = path ∧ component = .ref i.localName
  used : ∀ i ∈ compiled.module.imports, ∃ call ∈ compiled.module.function.subterms,
    call.component? env.config = some (.ref i.localName)

/-- Different modules are imported under different names. -/
theorem Compiles.nodup_localName (hc : Compiles env t compiled K sibling ds n)
    (hpaths : (compiled.module.imports.map Import.path).Nodup) :
    (compiled.module.imports.map Import.localName).Nodup := by
  refine (List.nodup_map_iff_inj_on hpaths.of_map).2 fun i hi j hj hname => ?_
  have hpath : i.path = j.path := by
    refine hc.apart.path_unique (hc.imports i hi) ?_
    rw [hname]
    exact hc.imports j hj
  exact List.inj_on_of_nodup_map hpaths hi hj hpath

/-- A unit depends on what its elements ask for, in the order of the markup with children first, and
imports each of that once, under aliases that differ. Its calls of components are those of its
elements, each of what the element asks for by the alias of the import, and no import is without
one. -/
theorem imports_agree (h : (compile env t).1 = .ok compiled)
    (hconfig : env.config.NamesComponents) : ImportsAgree env t compiled := by
  obtain ⟨K, sibling, ds, n, hc⟩ := compiles_of_ok h
  have hdependencies := (imports_eq h).1
  have hpaths := map_path_imports h
  have hnodup : (compiled.module.imports.map Import.path).Nodup := by
    rw [hpaths]
    exact nodup_eraseDups _
  have hcalled : ∀ place e path, t.elementAt? place = some e →
      e.request? env.config = some path → ∃ i ∈ compiled.module.imports, i.path = path ∧
        ∃ call ∈ compiled.module.function.subterms,
          e.MadeBy env compiled.module.imports t place (.ref i.localName) call := by
    intro place e path he hpath
    obtain ⟨call, hcall, component, hmade⟩ := hc.exists_call he hpath
    obtain ⟨i, hi, hpath, rfl⟩ := hmade.imported hpath
    exact ⟨i, hi, hpath, call, hcall, hmade⟩
  constructor
  case dependencies => exact hdependencies
  case paths => exact hpaths.trans hdependencies.symm
  case apart => exact hc.nodup_localName hnodup
  case called => exact hcalled
  case calls =>
    intro call hcall component hcomponent
    obtain ⟨place, e, he, hmade⟩ := hc.exists_element hconfig hcall hcomponent
    exact ⟨place, e, he, hmade, fun _ hpath => hmade.imported hpath⟩
  case used =>
    intro i hi
    have hmem : i.path ∈ t.requests env.config := by
      rw [← List.mem_eraseDups, ← hpaths]
      exact List.mem_map_of_mem hi
    obtain ⟨place, e, he, hpath⟩ := hc.exists_element_of_mem_requests hmem
    obtain ⟨j, hj, hsame, call, hcall, hmade⟩ := hcalled place e _ he hpath
    obtain rfl := List.inj_on_of_nodup_map hnodup hj hi hsame
    exact ⟨call, hcall, hmade.component? hconfig⟩

/-- Three elements ask for two components, whose plain aliases are the same. -/
def sharedTemplate : Template :=
  .ofRoot [.plain "x-foo-bar" [.text "set" "if" "a"]
      [.element ⟨none, none⟩ ⟨some "x_foo", "bar"⟩ [.text "repeat" "for" "row in rows"] []],
    .plain "b" [.named "is" "x-foo-bar"] []]

theorem imports_agree_shared :
    ∃ compiled, (compile .default sharedTemplate).1 = .ok compiled ∧
      compiled.module.imports = [⟨"x_foo.bar", "_x_foo_bar"⟩, ⟨"x.foo_bar", "_x_foo_bar_1"⟩] ∧
      ImportsAgree .default sharedTemplate compiled := by
  have himports : (compile .default sharedTemplate).1.toOption.map (fun c => c.module.imports) =
      some [⟨"x_foo.bar", "_x_foo_bar"⟩, ⟨"x.foo_bar", "_x_foo_bar_1"⟩] := by
    decide +kernel
  obtain ⟨compiled, hc, hboth⟩ := exists_ok_of_map himports
  exact ⟨compiled, hc, hboth, imports_agree hc (by decide)⟩

end TemplateCompiler
