import TemplateCompiler.Proofs.Flatness
import TemplateCompiler.Proofs.Refinement

/-!
# Lists of children in rendering

Whatever is evaluated in rendering is code that lowering makes, where names stand for what they
should. So every list of children comes to a list of items that are no lists, but for two cases: a
template repeats and contributes nothing, or an element repeats for a name that the module makes up
(`children_are_flat`).
-/

namespace TemplateCompiler

variable {α : Type} {host : Host α} {ρ ρ' : Locals α} {env : Env} {config : Config} {hollow : Prop}
  {B : List Declaration}

/-! ## Lists of children -/

namespace Code

/-- What is passed to the slots of a component. -/
def slotContents : Code → List Code
  | .dict entries => entries.flatMap fun
    | ("slotset", .dict contents) => contents.map Prod.snd
    | _ => []
  | _ => []

/-- The lists of children in a call of the interface: the last operand of what makes an element, and
what a component is passed for its slots. -/
def childLists (config : Config) : Code → List Code
  | .call (.member _ (.ref api) maker) [_, _, operand] =>
    if api ≠ config.apiParam then []
    else if maker = config.primitives.customElement then operand.slotContents
    else if maker = config.primitives.element ∨ maker = config.primitives.virtualElement then
      [operand]
    else []
  | _ => []

theorem mem_slotContents {attributes slots : List (String × Code)} {isBare : Bool} {c : Code}
    (h : ∀ e ∈ attributes, e.1 ≠ "slotset") (hc : c ∈ slotContents
      (.dict (attributes ++ if isBare then [] else [("slotset", .dict slots)]))) :
    isBare = false ∧ ∃ e ∈ slots, e.2 = c := by
  rw [slotContents] at hc
  obtain ⟨e, he, hc⟩ := List.mem_flatMap.1 hc
  rcases List.mem_append.1 he with he | he
  · split at hc
    · exact absurd rfl (h _ he)
    · simp at hc
  · cases isBare with
    | true => simp at he
    | false =>
      obtain rfl := List.mem_singleton.1 he
      exact ⟨rfl, by simpa using hc⟩

end Code

/-! ## Everything that is evaluated -/

/-- Code that lowering makes, as a whole or in part. -/
inductive Made (config : Config) (hollow : Prop) (B : List Declaration) : Code → Prop where
  | plain {code} (plain : Plain config code) : Made config hollow B code
  | shaped {shape code} (shaped : Shaped config hollow B shape code) : Made config hollow B code
  | function {nested place parameters body} (fresh : Fresh config B parameters)
      (shaped : Shaped config hollow B (.item nested) body) :
      Made config hollow B (.lambda place parameters body)
  | dict {entries} (made : ∀ e ∈ entries, Made config hollow B e.2) :
      Made config hollow B (.dict entries)
  | content {key} : Made config hollow B (.call (.refMember config.slotsetParam "get") [.text key])

theorem Plain.operand {code operand : Code} (h : Plain config code)
    (hmem : operand ∈ code.operands) : Plain config operand := by
  cases h with
  | ref | name | constant | foreign => simp [Code.operands] at hmem
  | member value =>
    rw [Code.operands, List.mem_singleton] at hmem
    exact hmem ▸ value
  | index value key =>
    simp only [Code.operands, List.mem_cons, List.not_mem_nil, or_false] at hmem
    rcases hmem with rfl | rfl
    · exact value
    · exact key
  | or left right =>
    simp only [Code.operands, List.mem_cons, List.not_mem_nil, or_false] at hmem
    rcases hmem with rfl | rfl
    · exact left
    · exact right
  | dict entries =>
    obtain ⟨e, he, rfl⟩ := List.mem_map.1 hmem
    exact entries e he
  | bound target =>
    simp only [Code.operands, List.mem_cons, List.not_mem_nil, or_false] at hmem
    rcases hmem with rfl | rfl | rfl
    · exact .ref
    · exact target
    · exact .ref
  | lookup =>
    simp only [Code.operands, List.mem_cons, List.not_mem_nil, or_false] at hmem
    rcases hmem with rfl | rfl
    · exact .member .ref
    · exact .constant
  | store value =>
    simp only [Code.operands, List.mem_cons, List.not_mem_nil, or_false] at hmem
    rcases hmem with rfl | rfl | rfl
    · exact .member .ref
    · exact .constant
    · exact value

theorem Made.of_call {maker : String} {arguments : List Code}
    (h : ∀ a ∈ arguments, Made config hollow B a) :
    ∀ operand ∈ (config.callPrimitive maker arguments).operands, Made config hollow B operand := by
  intro operand hmem
  rcases List.mem_cons.1 hmem with rfl | hmem
  · exact .plain (.member .ref)
  · exact h operand hmem

theorem Shaped.operand {shape : Shape} {code : Code} (h : Shaped config hollow B shape code) :
    ∀ operand ∈ code.operands, Made config hollow B operand := by
  induction h with
  | text => simp [Code.text, Code.operands]
  | shown plain => exact Made.of_call (by simpa using .plain plain)
  | empty => exact Made.of_call (by simp)
  | element _ plain plainAttributes shaped _ =>
    exact Made.of_call (by
      simpa using ⟨.plain plain, .plain (.dict plainAttributes), .shaped shaped⟩)
  | custom plain plainAttributes _ shaped _ =>
    refine Made.of_call ?_
    rw [List.forall_mem_cons, List.forall_mem_cons, List.forall_mem_singleton]
    refine ⟨.plain .constant, .plain plain, .dict ?_⟩
    rw [List.forall_mem_append]
    refine ⟨fun e he => .plain (plainAttributes e he), ?_⟩
    split
    · simp
    · rw [List.forall_mem_singleton]
      exact .dict fun e he => .shaped (shaped e he)
  | choose plain shaped shapedAlternative _ _ =>
    simpa [Code.operands] using ⟨.plain plain, .shaped shaped, .shaped shapedAlternative⟩
  | guarded _ shaped _ => simpa [Code.operands] using ⟨.plain .ref, .shaped shaped⟩
  | outlet shaped _ => simpa [Code.operands] using ⟨.content, .shaped shaped⟩
  | row shaped _ => exact fun c hc => .shaped (shaped c hc)
  | flattened shaped _ => exact Made.of_call (by simpa using .shaped shaped)
  | inline plain fresh shaped _ =>
    exact Made.of_call (by simpa using ⟨.plain plain, .function fresh shaped⟩)
  | declared plain _ _ _ => exact Made.of_call (by simpa using ⟨.plain plain, .plain .ref⟩)
  | hollow => simp [Code.operands]
  | loose _ ih | spread _ ih => exact ih

theorem Made.operand {code operand : Code} (h : Made config hollow B code)
    (hmem : operand ∈ code.operands) : Made config hollow B operand := by
  cases h with
  | plain plain => exact .plain (plain.operand hmem)
  | shaped shaped => exact shaped.operand operand hmem
  | function => simp [Code.operands] at hmem
  | dict made =>
    obtain ⟨e, he, rfl⟩ := List.mem_map.1 hmem
    exact made e he
  | content =>
    simp only [Code.operands, List.mem_cons, List.not_mem_nil, or_false] at hmem
    rcases hmem with rfl | rfl
    · exact .plain (.member .ref)
    · exact .plain .constant

/-- A function is no content. -/
theorem Shaped.ne_lambda {shape : Shape} {code : Code} (h : Shaped config hollow B shape code)
    {place : Place} {parameters : List String} {body : Code} :
    code ≠ .lambda place parameters body := by
  induction h with
  | loose _ ih | spread _ ih => exact ih
  | _ => exact nofun

theorem Made.of_lambda {place : Place} {parameters : List String} {body : Code}
    (h : Made config hollow B (.lambda place parameters body)) :
    Fresh config B parameters ∧ Made config hollow B body := by
  cases h with
  | plain plain => cases plain
  | shaped shaped => exact absurd rfl shaped.ne_lambda
  | function fresh shaped => exact ⟨fresh, .shaped shaped⟩

/-- Each list of children is a list of items. -/
theorem Shaped.childLists {shape : Shape} {code : Code} (h : Shaped config hollow B shape code)
    (hprimitives : config.primitives = {}) : ∀ c ∈ code.childLists config,
      Shaped config hollow B (.list false) c ∧ ∀ Q, code.All Q → c.All Q := by
  induction h with
  | @element maker _ _ children makes _ _ shaped _ =>
    intro c hc
    obtain rfl : c = children := by
      rcases makes with rfl | rfl <;>
        simpa [Config.callPrimitive, Config.primitive, Code.refMember, Code.childLists,
          hprimitives] using hc
    exact ⟨shaped, fun Q hall => Code.all_callPrimitive_of_all hall _ (by simp)⟩
  | @custom path component attributes slots isBare _ _ apart shaped _ =>
    intro c hc
    have hcontents : c ∈ Code.slotContents
        (.dict (attributes ++ if isBare then [] else [("slotset", .dict slots)])) := by
      simpa [Config.callPrimitive, Config.primitive, Code.refMember, Code.childLists,
        hprimitives] using hc
    obtain ⟨rfl, e, he, rfl⟩ := Code.mem_slotContents apart hcontents
    refine ⟨shaped e he, fun Q hall => ?_⟩
    have hdict := Code.all_dict.1 (Code.all_callPrimitive_of_all hall
      (.dict (attributes ++ [("slotset", .dict slots)])) (by simp))
    exact Code.all_dict.1 (hdict ("slotset", .dict slots) (by simp)) e he
  | loose _ ih | spread _ ih => exact ih
  | _ =>
    simp [Config.callPrimitive, Config.primitive, Code.refMember, Code.childLists, Code.text]

theorem Made.childLists {code : Code} (h : Made config hollow B code)
    (hprimitives : config.primitives = {}) : ∀ c ∈ code.childLists config,
      Shaped config hollow B (.list false) c ∧ ∀ Q, code.All Q → c.All Q := by
  cases h with
  | shaped shaped => exact shaped.childLists hprimitives
  | plain plain => cases plain <;> simp [Code.refMember, Code.childLists]
  | function | dict | content => simp [Code.refMember, Code.childLists]

/-- Code that lowering makes, where names stand for what they should. -/
structure Placed (host : Host α) (config : Config) (hollow : Prop) (B : List Declaration)
    (ρ : Locals α) (code : Code) : Prop where
  respects : Respects host config B ρ
  made : Made config hollow B code
  found : code.All (Mention.FoundIn ρ)

namespace Placed

variable {code code' : Code}

theorem reaches (h : Placed host config hollow B ρ code) (hr : code.Reaches ρ ρ' code') :
    Placed host config hollow B ρ' code' := by
  induction hr with
  | here => exact h
  | operand mem _ ih => exact ih ⟨h.respects, h.made.operand mem, h.found.operand mem⟩
  | item call _ ih =>
    obtain ⟨hfresh, hbody⟩ := h.made.of_lambda
    exact ih ⟨h.respects.body hfresh call, hbody, h.found.body call⟩

/-- What is evaluated for a list of children is a list of items. -/
theorem gives_childLists (h : Placed host config hollow B ρ code) (hhost : host.Serves)
    (hB : Known config hollow B) :
    ∀ c ∈ code.childLists config, host.Gives (Value.IsFlat hollow) (c.eval host ρ) := by
  intro c hc
  obtain ⟨hshaped, hall⟩ := h.made.childLists hB.primitives c hc
  exact hshaped.eval hhost hB h.respects (hall _ h.found)

end Placed

mutual

theorem Function.Reaches.placed (hB : Known config hollow B) {code : Code} :
    ∀ {around : Locals α} {f : Function}, f.Reaches host around ρ' code → .define f ∈ B →
      Respects host config B around → (∀ m ∈ f.mentions, m.FoundIn around) →
      Placed host config hollow B ρ' code
  | _, f, .call entry reaches, hf, haround, hfound => by
    obtain ⟨hfresh, hresult⟩ : Fresh config B f.parameters ∧ Made config hollow B f.result := by
      cases hB.shaped _ hf with
      | define fresh shaped _ => exact ⟨fresh, .shaped shaped⟩
    have hinside := hB.inside f hf
    exact reaches.placed hB hinside hresult (haround.entry hB hfresh hinside entry)
      (Function.covers_entry hfound entry)

/-- What is evaluated in a body is placed, if its statements are known. -/
theorem BodyReaches.placed (hB : Known config hollow B) {code : Code} :
    ∀ {ρ : Locals α} {ds : List Declaration} {result : Code} {earlier : List String},
      BodyReaches host ρ ds result ρ' code → ds ⊆ B → Made config hollow B result →
      Respects host config B ρ → Covers ρ earlier ds result → Placed host config hollow B ρ' code
  | _, _, _, _, .result reaches, _, hresult, hρ, hcovers =>
    Placed.reaches ⟨hρ, hresult, hcovers.all_result⟩ reaches
  | _, _, _, _, .value reaches, hds, _, hρ, hcovers => by
    obtain ⟨hd, -⟩ := List.cons_subset.1 hds
    cases hB.shaped _ hd with
    | assign plain =>
      exact Placed.reaches ⟨hρ, .plain (.or plain .constant), hcovers.head⟩ reaches
  | _, _, _, _, .inner reaches, hds, _, hρ, hcovers =>
    reaches.placed hB (List.cons_subset.1 hds).1 hρ hcovers.head
  | _, _, _, _, .after run reaches, hds, hresult, hρ, hcovers => by
    obtain ⟨hd, hrest⟩ := List.cons_subset.1 hds
    obtain ⟨v, heq, hρ₁⟩ := (hρ.gives_run hB hd hcovers.head).all _ run
    exact reaches.placed hB hrest hresult hρ₁ (heq ▸ hcovers.tail v)

end

/-! ## Modules -/

theorem Locals.mem_of_find {x : String} {v : Value α} (h : ρ.find x = some v) :
    (x, some v) ∈ ρ := by
  obtain ⟨before, after, heq, -⟩ := List.lookup_eq_some_iff.1 (Option.join_eq_some_iff.1 h)
  simp [heq]

/-- What a module imports stands for something in its functions. -/
theorem Module.isSome_find_globals {m : Module} {x : String}
    (h : (∃ i ∈ m.imports, i.localName = x) ∨ m.bindHelper = some x) :
    ((m.globals : Locals α).find x).isSome := by
  have hsome : ∀ e ∈ (m.globals : Locals α), e.2.isSome := by
    simp only [Module.globals, List.mem_append, List.mem_map, Option.mem_toList,
      Option.map_eq_some_iff]
    rintro e (⟨i, -, rfl⟩ | ⟨name, -, rfl⟩) <;> rfl
  have hmem : x ∈ (m.globals : Locals α).map Prod.fst := by
    rw [Module.globals, List.map_append, List.mem_append]
    rcases h with ⟨i, hi, rfl⟩ | hhelper
    · left
      rw [List.map_map]
      exact List.mem_map_of_mem (f := fun i : Import => i.localName) hi
    · right
      simp [hhelper]
  rcases hlookup : List.lookup x (m.globals : Locals α) with _ | v
  · obtain ⟨e, he, rfl⟩ := List.mem_map.1 hmem
    simpa using List.lookup_eq_none_iff.1 hlookup e he
  · obtain ⟨before, after, heq, -⟩ := List.lookup_eq_some_iff.1 hlookup
    have := hsome (x, v) (by simp [heq])
    simpa [Locals.find, hlookup] using this

namespace Compiles

variable {t : Template} {compiled : Compiled} {K : Context} {sibling : Sibling}
  {ds : List Declaration} {n : Numbering} (h : Compiles env t compiled K sibling ds n)
include h

theorem find_globals_cases {x : String} {v : Value α}
    (hfind : (compiled.module.globals : Locals α).find x = some v) :
    (∃ i ∈ compiled.module.imports, i.localName = x) ∨
      x = env.config.bindHelper ∧ v = .methodType := by
  have hmem := Locals.mem_of_find hfind
  rw [Module.globals, List.mem_append, h.helper] at hmem
  rcases hmem with hmem | hmem
  · obtain ⟨i, hi, heq⟩ := List.mem_map.1 hmem
    exact .inl ⟨i, hi, congrArg Prod.fst heq⟩
  · right
    split at hmem
    · simpa using hmem
    · simp at hmem

theorem entry_eq (host : Host α) : compiled.module.function.entry compiled.module.globals
    [.service .interface, host.inst, .service .slots, .service .memo] =
      some (compiled.module.start env.config host) := by
  unfold Function.entry Module.start
  rw [h.function]
  simp [CompileM.renderFunction, Locals.ofCall]

variable (hconfig : env.config = {})
include hconfig

/-- A name that no parameter has stands for what the module imports, if for anything. -/
theorem find_start_cases {x : String} {v : Value α}
    (hx : x ∉ [env.config.apiParam, env.config.instanceParam, env.config.slotsetParam,
      env.config.contextParam])
    (hfind : (compiled.module.start env.config host).find x = some v) :
    ¬ Component.isNumbered x ∧ (x = env.config.bindHelper → v = .methodType) := by
  have hparameters : x ∉ compiled.module.function.parameters := by
    rw [h.function]
    exact hx
  rw [(Function.find_entry (h.entry_eq host) x).2 hparameters] at hfind
  split at hfind
  · simp at hfind
  · rcases h.find_globals_cases hfind with ⟨i, hi, rfl⟩ | ⟨rfl, rfl⟩
    · refine ⟨h.not_isNumbered_localName hi, fun hhelper => ?_⟩
      exact absurd hhelper (h.apart.name_free (h.imports i hi)).1
    · exact ⟨(h.namesApart hconfig).numbered _ (by simp [Config.reserved]), fun _ => rfl⟩

/-- At the top of a render function, names stand for what they should. -/
theorem start_respects :
    Respects host env.config (allDeclarations ds) (compiled.module.start env.config host) := by
  have hnames := h.namesApart hconfig
  obtain ⟨hinterface, -, hslots, hmemo⟩ := hnames.find_start host
  have hnumbered : ∀ x ∈ hoistedNames (allDeclarations ds), ∀ v,
      (compiled.module.start env.config host).find x ≠ some v := by
    intro x hx v hv
    rw [hoistedNames_allDeclarations, ← h.declarations_eq] at hx
    have hx := h.isNumbered_of_mem_boundNames hx
    refine (h.find_start_cases hconfig (fun hmem => ?_) hv).1 hx
    exact hnames.numbered x (List.mem_append_left [env.config.bindHelper] hmem) hx
  have hmem : ∀ {d : Declaration}, d ∈ allDeclarations ds →
      d.name ∈ hoistedNames (allDeclarations ds) := List.mem_map_of_mem
  constructor
  case interface => exact hinterface
  case slots => exact hslots
  case memo => exact hmemo
  case helper =>
    intro v hv
    refine (h.find_start_cases hconfig ?_ hv).2 rfl
    rw [hconfig]
    decide
  case temporary => exact fun name value v hd hv => absurd hv (hnumbered name (hmem hd) v)
  case function => exact fun f v hd hv => absurd hv (hnumbered f.name (hmem hd) v)

variable (hspares : t.Spares env.config (boundNames ds))
include hspares

theorem known : Known env.config t.RepeatsNothing (allDeclarations ds) := by
  have hnames := h.namesApart hconfig
  have hbound : hoistedNames (allDeclarations ds) =
      boundNames compiled.module.function.declarations := by
    rw [hoistedNames_allDeclarations, h.declarations_eq]
  constructor
  case primitives => rw [hconfig]
  case apart =>
    intro x hx hmem
    rw [hbound] at hmem
    exact hnames.numbered x hx (h.isNumbered_of_mem_boundNames hmem)
  case nodup => exact hbound ▸ h.nodup_boundNames
  case shaped =>
    intro d hd
    obtain ⟨outer, houter, hd⟩ := mem_allDeclarations.1 hd
    exact ((h.shaped hspares).1 outer houter).of_mem_all d hd
  case inside =>
    intro f hf
    refine List.Subset.trans (subset_allDeclarations f.declarations) ?_
    rw [← Function.inner_eq]
    exact inner_subset_allDeclarations ds hf

/-- The names that a render function reads are found. -/
theorem found : ∀ m ∈ compiled.module.function.mentions,
    m.FoundIn (compiled.module.globals : Locals α) := by
  intro m hm
  have hresolves : compiled.module.Resolves m := by
    by_contra hmissing
    obtain ⟨inner, layer, outer, hwithin, -, hhoisted, -, -, hmeant⟩ := h.hides hm hmissing
    have hbound := Function.mem_boundNames_of_hoisted hm (by simp [hwithin]) hhoisted
    rcases hmeant with hreserved | ⟨l, -, hparameter⟩
    · exact (h.namesApart hconfig).numbered _ hreserved (h.isNumbered_of_mem_boundNames hbound)
    · exact hspares.binderAt l.place m.name hparameter (h.declarations_eq ▸ hbound)
  unfold Module.Resolves at hresolves
  unfold Mention.FoundIn
  rcases hholder : m.holder? with _ | layer
  · rw [hholder] at hresolves
    exact .inr (Module.isSome_find_globals hresolves)
  · rwa [hholder] at hresolves

end Compiles

variable {t : Template} {compiled : Compiled}

/-- In rendering, each list of children, each content for a slot and the result come to lists of
items that are no lists, if to anything; the items can be empty lists where a template repeats
nothing. -/
theorem children_are_flat (h : (compile env t).1 = .ok compiled) (hconfig : env.config = {})
    (hspares : t.Spares env.config (compiled.module.function.hoistings.map Mention.name))
    (hhost : host.Serves) :
    host.Gives (Value.IsFlat t.RepeatsNothing) (compiled.module.render host) ∧
    ∀ ρ code, compiled.module.Reaches host ρ code → ∀ c ∈ code.childLists env.config,
      host.Gives (Value.IsFlat t.RepeatsNothing) (c.eval host ρ) := by
  obtain ⟨K, sibling, ds, n, hc⟩ := compiles_of_ok h
  rw [Function.map_name_hoistings, hc.declarations_eq] at hspares
  have hB := hc.known hconfig hspares
  have hentry := hc.entry_eq host
  have hstart : Respects host env.config (allDeclarations ds) _ := hc.start_respects hconfig
  have hcovers := Function.covers_entry (hc.found hconfig hspares) hentry
  have hds : compiled.module.function.declarations ⊆ allDeclarations ds := by
    rw [hc.declarations_eq]
    exact subset_allDeclarations ds
  have hresult : Shaped env.config t.RepeatsNothing (allDeclarations ds) (.list false)
      compiled.module.function.result := by
    rw [hc.function]
    exact (hc.shaped hspares).2
  constructor
  · rw [Module.render, Function.call_eq, hentry, Option.bind_some]
    refine (hstart.gives_runStatements hB hds hcovers).bind ?_
    rintro ρ ⟨hρ, hfound⟩
    exact hresult.eval hhost hB hρ hfound
  · rintro ρ code ⟨ρ₀, hρ₀, reaches⟩
    obtain rfl := Option.some.inj (hentry.symm.trans hρ₀)
    exact (reaches.placed hB hds (.shaped hresult) hstart hcovers).gives_childLists hhost hB

/-- A host that iterates over whatever it is given in the same few calls. An empty list is not true,
and there is content for one slot. -/
def callingHost : Host Unit :=
  { sampleHost with
    truthy
      | .constant (.text "no") | .constant .null | .list [] => false
      | _ => true
    content
      | .constant (.text "head") => .list [.constant (.text "passed")]
      | _ => .constant .null
    iterate
      | [_, .made "function" results] => some (.list results)
      | _ => none
    function f := .made "function" ([[.constant (.text "a")], [.constant (.text "no")], [.list []],
      [.constant (.text "a"), .native ()], [.constant (.text "no"), .native ()]].filterMap f)
    null_falsy := rfl }

theorem exists_mapM_eq_filterMap {β γ : Type} (f : β → Option γ) (l : List β) :
    ∃ kept : List β, kept.mapM f = some (l.filterMap f) := by
  induction l with
  | nil => exact ⟨[], rfl⟩
  | cons b rest ih =>
    obtain ⟨kept, hkept⟩ := ih
    rcases hb : f b with _ | c
    · exact ⟨kept, by rw [List.filterMap_cons, hb, hkept]⟩
    · exact ⟨b :: kept, by simp [hb, hkept]⟩

theorem callingHost_serves : callingHost.Serves := by
  constructor
  · intro key htrue
    have hcontent : callingHost.content key = .list [.constant (.text "passed")] ∨
        callingHost.content key = .constant .null := by
      simp only [callingHost]
      split
      · exact .inl rfl
      · exact .inr rfl
    rcases hcontent with h | h
    · exact ⟨_, h, by decide⟩
    · rw [h] at htrue
      exact absurd htrue (by decide)
  · intro xs f v hv
    obtain rfl := Option.some.inj hv
    obtain ⟨kept, hkept⟩ := exists_mapM_eq_filterMap f _
    exact ⟨kept, _, hkept, rfl⟩

theorem callingHost_completes : callingHost.Completes :=
  ⟨⟨fun _ _ => rfl, fun _ _ => rfl⟩, fun _ _ _ _ => rfl⟩

/-- Iterations in one another, a template with a condition in an iteration, an else, two outlets,
and content for two slots. -/
def nestingTemplate : Template :=
  .ofRoot [.plain "ul" []
      [.plain "template" [.text "repeat" "for" "x in xs"]
        [.plain "li" [.text "repeat" "for" "(y, i) in ys", .text "set" "if" "y"] [.name "i"],
          .plain "p" [.bare "set" "else"] [],
          .plain "template" [.text "set" "if" "x"] [.name "x", .plain "slot" [] []]]],
    .plain "x-foo" [] [.plain "b" [.named "slot" "main"] [],
      .plain "template" [.text "repeat" "for" "z in zs"]
        [.plain "slot" [.named "name" "head"] [.plain "i" [] []]]]]

theorem children_are_flat_nested :
    ∃ compiled, (compile .default nestingTemplate).1 = .ok compiled ∧
      ¬ nestingTemplate.RepeatsNothing ∧
      (∃ v, compiled.module.render callingHost = some v ∧
        v.IsFlat nestingTemplate.RepeatsNothing) ∧
      ∀ ρ code, compiled.module.Reaches callingHost ρ code → ∀ c ∈ code.childLists {},
        ∃ v, c.eval callingHost ρ = some v ∧ v.IsFlat nestingTemplate.RepeatsNothing := by
  have hnames : (compile .default nestingTemplate).1.toOption.map (fun c =>
      c.module.function.hoistings.map Mention.name) = some ["_loop0", "_expr0"] := by
    decide +kernel
  obtain ⟨compiled, hc, hn⟩ := exists_ok_of_map hnames
  have hspares : nestingTemplate.Spares {} ["_loop0", "_expr0"] := by decide +kernel
  obtain ⟨hrender, hchildren⟩ := children_are_flat hc rfl (hn ▸ hspares) callingHost_serves
  exact ⟨compiled, hc, by decide, hrender.exists_eq callingHost_completes,
    fun ρ code hr c hmem => (hchildren ρ code hr c hmem).exists_eq callingHost_completes⟩

/-- A template in a list that repeats and contributes nothing. -/
def hollowTemplate : Template :=
  .ofRoot [.plain "ul" [] [.plain "template" [.text "repeat" "for" "x in xs"] []]]

/-- An element that repeats for the name of a temporary, and an else with a condition. -/
def capturingTemplate : Template :=
  .ofRoot [.plain "ul" []
    [.plain "li" [.text "repeat" "for" "_expr0 in xs", .text "set" "if" "no"] [],
      .plain "template" [.bare "set" "else", .text "set" "if" "c"] [.plain "b" [] []]]]

/-- Whether a value is a list of one element with a list among its children. -/
def Value.nestsChildren {α : Type} : Value α → Bool
  | .list [.made "h" [_, _, .list children]] => children.any Value.isList
  | _ => false

theorem children_are_nested :
    callingHost.Serves ∧
      (∃ compiled, (compile .default hollowTemplate).1 = .ok compiled ∧
        (compiled.module.render callingHost).any Value.nestsChildren) ∧
      ∃ compiled, (compile .default capturingTemplate).1 = .ok compiled ∧
        (compiled.module.render callingHost).any Value.nestsChildren := by
  have hhollow : (compile .default hollowTemplate).1.toOption.map (fun c =>
      (c.module.render callingHost).any Value.nestsChildren) = some true := by
    decide +kernel
  have hcapturing : (compile .default capturingTemplate).1.toOption.map (fun c =>
      (c.module.render callingHost).any Value.nestsChildren) = some true := by
    decide +kernel
  exact ⟨callingHost_serves, exists_ok_of_map hhollow, exists_ok_of_map hcapturing⟩

end TemplateCompiler
