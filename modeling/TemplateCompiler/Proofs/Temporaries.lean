import TemplateCompiler.Proofs.Closed
import TemplateCompiler.Proofs.Total

/-!
# Temporaries

Where no element repeats, every statement of a module is a temporary for a condition, which reads
the instance alone. Once the statements are run, each temporary stands for its value, and all other
names for what they did before.
-/

namespace TemplateCompiler

variable {α : Type} {host : Host α} {ρ : Locals α} {env : Env} {config : Config} {K : Context}
  {n n' : Numbering}

/-! ## Elements that do not repeat -/

theorem OpensLoop.eq_none {binders : List Binder} {place : Place} {attributes : List Attribute}
    {readings : List Reading} {loop : Option Loop}
    (h : OpensLoop config binders place readings loop)
    (hreads : Reading.ofAttributes config [] attributes = .ok readings)
    (honce : attributes.any Attribute.iterates = false) : loop = none := by
  have hparts : Reading.loopParts readings = [] := by
    simp only [Reading.loopParts, List.filterMap_eq_nil_iff]
    intro reading hr
    obtain ⟨a, ha, role, content, hrole, -, hread⟩ := Reading.exists_attribute_of_mem hreads hr
    have hdirective := List.any_eq_false.1 honce a ha
    cases hread with
    | iteration =>
      simp [Attribute.iterates, (Role.directed_of_modifier hrole).1] at hdirective
    | condition | alternative | modifier | event | directed | component | slot | plain => rfl
  cases h with
  | once => rfl
  | repeated reads => simp [hparts, LoopPart.iterable?] at reads

/-- A sibling that does not repeat. -/
def Sibling.Once (s : Sibling) : Prop :=
  ∀ loop ds condition, s.form ≠ .repeated loop ds condition

/-- A statement for a condition. -/
def Declaration.IsTemporary (config : Config) (d : Declaration) : Prop :=
  ∃ name site, ∃ term : Term,
    d = .assign name (.or (term.code config site (binds [])) (.constant none .null))

theorem FinishesSibling.eq_nil {s : Sibling} {alternative : Option Item} {item : Item}
    {ds : List Declaration} (h : FinishesSibling config s alternative item ds n n')
    (hs : s.Once) : ds = [] := by
  cases h with
  | fixed | spliced | guarded => rfl
  | repeated form | filtered form => exact absurd form (hs _ _ _)

theorem FinishesBranches.eq_nil {siblings : List Sibling} {item : Option Item}
    {ds : List Declaration} (h : FinishesBranches config siblings item ds n n')
    (hs : ∀ s ∈ siblings, s.Once) : ds = [] := by
  induction h with
  | nil => rfl
  | cons _ head ih =>
    rw [List.forall_mem_cons] at hs
    rw [ih hs.2, head.eq_nil hs.1, List.append_nil]

theorem FinishesChain.eq_nil {chain : List Sibling} {items : List Item} {ds : List Declaration}
    (h : FinishesChain config chain items ds n n') (hs : ∀ s ∈ chain, s.Once) : ds = [] := by
  cases h with
  | nil | spliced => rfl
  | branches _ _ branches => exact branches.eq_nil hs

theorem FinishesChains.eq_nil {chains : List (List Sibling)} {items : List Item}
    {ds : List Declaration} (h : FinishesChains config chains items ds n n')
    (hs : ∀ s ∈ chains.flatten, s.Once) : ds = [] := by
  induction h with
  | nil => rfl
  | cons head _ ih =>
    rw [List.flatten_cons, List.forall_mem_append] at hs
    rw [head.eq_nil hs.1, ih hs.2, List.append_nil]

theorem LowersReadings.exists_term {bound : String → Bool} {site : Site} {isComponent : Bool}
    {readings : List Reading} {parts : List Part} {code : Code}
    (h : LowersReadings env K bound site isComponent readings parts n n')
    (hc : Part.condition? parts = some code) : ∃ t : Term, code = t.code env.config site bound := by
  obtain ⟨part, hpart, hsome⟩ := List.exists_of_findSome?_eq_some hc
  cases part <;> simp at hsome
  subst hsome
  obtain ⟨reading, -, ps, _, _, hps, hl⟩ := h.exists_reading hpart
  cases hl with
  | condition => exact ⟨_, by simpa using hps⟩
  | iteration | slot | component | alternative | property => simp at hps

theorem GuardsItems.temporaries {condition : Option Code} {items kept : List Item}
    {ds : List Declaration} (h : GuardsItems condition items kept ds n n') {site : Site}
    (hc : ∀ code ∈ condition, ∃ t : Term, code = t.code config site (binds [])) :
    ∀ d ∈ ds, d.IsTemporary config := by
  cases h with
  | unconditional | nothing => simp
  | guarded =>
    obtain ⟨t, rfl⟩ := hc _ rfl
    exact List.forall_mem_singleton.2 ⟨_, site, t, rfl⟩

theorem SealsElement.temporaries {pos : Position} {tag : Tag} {readings : List Reading}
    {parts : List Part} {items : List Item} {ds outer : List Declaration} {kind : ElementKind}
    {sibling : Sibling}
    (h : SealsElement config K pos tag readings parts items ds kind none sibling outer n n')
    {site : Site} (hc : ∀ code ∈ Part.condition? parts,
      ∃ t : Term, code = t.code config site (binds []))
    (hds : ∀ d ∈ ds, d.IsTemporary config) :
    (∀ d ∈ outer, d.IsTemporary config) ∧ sibling.Once := by
  cases h with
  | spliced guarded => exact ⟨List.forall_mem_append.2 ⟨hds, guarded.temporaries hc⟩, nofun⟩
  | outlet | fixed | guarded => exact ⟨hds, nofun⟩

theorem LowersElement.temporaries {place : Place} {pos : Position} {tag : Tag}
    {attributes : List Attribute} {children : List Node} {sibling : Sibling}
    {ds : List Declaration}
    (h : LowersElement env K [] place pos tag attributes children sibling ds n n')
    (honce : attributes.any Attribute.iterates = false)
    (hchildren : ∀ {siblings ds n n'}, LowersNodes env K [] place 0 children siblings ds n n' →
      (∀ d ∈ ds, d.IsTemporary env.config) ∧ ∀ s ∈ siblings, s.Once) :
    (∀ d ∈ ds, d.IsTemporary env.config) ∧ sibling.Once := by
  cases h with
  | mk reads opens lowersReadings lowersChildren finishes seals =>
    obtain rfl := opens.eq_none reads honce
    obtain ⟨hds, hsiblings⟩ := hchildren lowersChildren
    refine seals.temporaries (fun _ hc => lowersReadings.exists_term hc) ?_
    rw [finishes.eq_nil (by rwa [Sibling.chains, List.flatten_splitBy]), List.append_nil]
    exact hds

mutual

theorem LowersNode.temporaries :
    ∀ {node : Node} {around before siblings ds n n'},
      LowersNode env K [] around before node siblings ds n n' → node.repeats = false →
      (∀ d ∈ ds, d.IsTemporary env.config) ∧ ∀ s ∈ siblings, s.Once
  | .text .., _, _, _, _, _, _, h, _ => by
    cases h with
    | blank => simp
    | text => exact ⟨by simp, List.forall_mem_singleton.2 nofun⟩
  | .placeholder .., _, _, _, _, _, _, h, _ => by
    cases h with
    | nothing => simp
    | placeholder => exact ⟨by simp, List.forall_mem_singleton.2 nofun⟩
  | .fragment _ children, _, _, _, _, _, _, h, honce => by
    cases h with
    | fragment lowersChildren => exact LowersNodes.temporaries lowersChildren honce
  | .element _ _ _ children, _, _, _, _, _, _, h, honce => by
    rw [Node.repeats, Bool.or_eq_false_iff] at honce
    cases h with
    | element lowers =>
      obtain ⟨hds, hsibling⟩ := lowers.temporaries honce.1 fun h =>
        LowersNodes.temporaries h honce.2
      exact ⟨hds, List.forall_mem_singleton.2 hsibling⟩
  | .literal .., _, _, _, _, _, _, h, _ => nomatch h
  | .attr .., _, _, _, _, _, _, h, _ => nomatch h
  | .template .., _, _, _, _, _, _, h, _ => nomatch h

theorem LowersNodes.temporaries :
    ∀ {nodes : List Node} {around before siblings ds n n'},
      LowersNodes env K [] around before nodes siblings ds n n' → anyRepeats nodes = false →
      (∀ d ∈ ds, d.IsTemporary env.config) ∧ ∀ s ∈ siblings, s.Once
  | [], _, _, _, _, _, _, h, _ => by
    cases h
    simp
  | node :: rest, _, _, _, _, _, _, h, honce => by
    rw [anyRepeats, Bool.or_eq_false_iff] at honce
    cases h with
    | cons head tail =>
      obtain ⟨hds, hsiblings⟩ := LowersNode.temporaries head honce.1
      obtain ⟨hds', hmore⟩ := LowersNodes.temporaries tail honce.2
      exact ⟨List.forall_mem_append.2 ⟨hds, hds'⟩, List.forall_mem_append.2 ⟨hsiblings, hmore⟩⟩

end

/-! ## Running statements -/

/-- Every temporary of some statements stands for its value. -/
def Settled (host : Host α) (ρ : Locals α) (ds : List Declaration) : Prop :=
  ∀ name value, .assign name value ∈ ds →
    ∃ v, value.eval host ρ = some v ∧ ρ.find name = some v

theorem Settled.mono {ds ds' : List Declaration} (h : Settled host ρ ds') (hsub : ds ⊆ ds') :
    Settled host ρ ds :=
  fun name value hmem => h name value (hsub hmem)

theorem Locals.find_cons_self (name : String) (v : Option (Value α)) (ρ : Locals α) :
    Locals.find ((name, v) :: ρ) name = v := by
  simp [Locals.find]

theorem Locals.find_cons_of_ne {name x : String} (h : x ≠ name) (v : Option (Value α))
    (ρ : Locals α) : Locals.find ((name, v) :: ρ) x = ρ.find x := by
  simp [Locals.find, List.lookup_cons, beq_eq_false_iff_ne.2 h]

/-- A temporary's value depends on nothing but the instance. -/
theorem Term.eval_temporary (h : ρ.find config.instanceParam = some host.inst) (site : Site)
    (t : Term) :
    (Code.or (t.code config site (binds [])) (.constant none .null)).eval host ρ =
      (t.render host).map fun v => if host.truthy v then v else .constant .null := by
  rw [Code.eval, t.eval_code h]
  rcases t.render host with _ | v
  · rfl
  · simp only [Option.bind_eq_bind, Option.bind_some, Option.map_some]
    split <;> rfl

/-- A statement for a condition that can be read. -/
def Declaration.IsReadable (host : Host α) (config : Config) (d : Declaration) : Prop :=
  ∃ name site, ∃ term : Term,
    d = .assign name (.or (term.code config site (binds [])) (.constant none .null)) ∧
      (term.render host).isSome

theorem Declaration.IsTemporary.isReadable {d : Declaration} (h : d.IsTemporary config)
    (htotal : host.Total) : d.IsReadable host config := by
  obtain ⟨name, site, t, rfl⟩ := h
  exact ⟨name, site, t, rfl, htotal.term t⟩

theorem run_temporaries :
    ∀ {ds : List Declaration} {ρ : Locals α}, (∀ d ∈ ds, d.IsReadable host config) →
      (hoistedNames ds).Nodup → config.instanceParam ∉ hoistedNames ds →
      ρ.find config.instanceParam = some host.inst →
      ∃ ρ', runStatements host ρ ds = some ρ' ∧ Settled host ρ' ds ∧
        ∀ x ∉ hoistedNames ds, ρ'.find x = ρ.find x
  | [], ρ, _, _, _, _ => ⟨ρ, rfl, by simp [Settled], fun _ _ => rfl⟩
  | d :: rest, ρ, hds, hnodup, hnot, hinst => by
    rw [List.forall_mem_cons] at hds
    obtain ⟨⟨name, site, t, rfl, hreadable⟩, hrest⟩ := hds
    rw [hoistedNames, List.map_cons, Declaration.name, ← hoistedNames] at hnodup hnot
    obtain ⟨hname, hnodup⟩ := List.nodup_cons.1 hnodup
    obtain ⟨hne, hout⟩ :
        config.instanceParam ≠ name ∧ config.instanceParam ∉ hoistedNames rest := by
      simpa using hnot
    obtain ⟨v, hv⟩ := Option.isSome_iff_exists.1 hreadable
    have heval : ∀ {ρ : Locals α}, ρ.find config.instanceParam = some host.inst →
        (Code.or (t.code config site (binds [])) (.constant none .null)).eval host ρ =
          some (if host.truthy v then v else .constant .null) := fun h => by
      rw [t.eval_temporary h, hv, Option.map_some]
    have hinst' : Locals.find
        ((name, some (if host.truthy v then v else .constant .null)) :: ρ) config.instanceParam =
          some host.inst := (Locals.find_cons_of_ne hne _ ρ).trans hinst
    obtain ⟨ρ', hrun, hsettled, hfind⟩ := run_temporaries hrest hnodup hout hinst'
    refine ⟨ρ', ?_, ?_, ?_⟩
    · simp [runStatements, Declaration.run, heval hinst, hrun]
    · intro x value hmem
      rcases List.mem_cons.1 hmem with h | hmem
      · obtain ⟨rfl, rfl⟩ := Declaration.assign.inj h
        refine ⟨_, heval ((hfind _ hout).trans hinst'), ?_⟩
        rw [hfind _ hname, Locals.find_cons_self]
      · exact hsettled x value hmem
    · intro x hx
      obtain ⟨hxne, hx⟩ : x ≠ name ∧ x ∉ hoistedNames rest := by
        simpa [hoistedNames, Declaration.name] using hx
      rw [hfind x hx, Locals.find_cons_of_ne hxne]

/-- Statements for conditions run through only if all of the conditions can be read. -/
theorem readable_of_run :
    ∀ {ds : List Declaration} {ρ ρ' : Locals α}, (∀ d ∈ ds, d.IsTemporary config) →
      config.instanceParam ∉ hoistedNames ds → ρ.find config.instanceParam = some host.inst →
      runStatements host ρ ds = some ρ' → ∀ d ∈ ds, d.IsReadable host config
  | [], _, _, _, _, _, _ => by simp
  | d :: rest, ρ, ρ', hds, hnot, hinst, hrun => by
    rw [List.forall_mem_cons] at hds
    obtain ⟨⟨name, site, t, rfl⟩, hrest⟩ := hds
    obtain ⟨hne, hout⟩ :
        config.instanceParam ≠ name ∧ config.instanceParam ∉ hoistedNames rest := by
      simpa [hoistedNames, Declaration.name] using hnot
    rw [runStatements, Declaration.run, t.eval_temporary hinst] at hrun
    rcases ht : t.render host with _ | v
    · simp [ht] at hrun
    · have hrun' : runStatements host
          ((name, some (if host.truthy v then v else .constant .null)) :: ρ) rest = some ρ' := by
        simpa [ht] using hrun
      refine List.forall_mem_cons.2 ⟨⟨name, site, t, rfl, by rw [ht]; rfl⟩, ?_⟩
      exact readable_of_run hrest hout ((Locals.find_cons_of_ne hne _ ρ).trans hinst) hrun'

/-! ## Modules -/

theorem Locals.find_append {name : String} {inner : Locals α} (h : name ∉ inner.map Prod.fst)
    (outer : Locals α) : Locals.find (inner ++ outer) name = outer.find name := by
  have hnone : inner.lookup name = none := by
    rw [List.lookup_eq_none_iff]
    intro entry hentry
    rw [bne_iff_ne]
    rintro rfl
    exact h (List.mem_map_of_mem hentry)
  rw [find, List.lookup_append, hnone, Option.none_or, find]

theorem Locals.find_of_unique {name : String} {v : Option (Value α)} {ρ : Locals α}
    (hmem : (name, v) ∈ ρ) (hunique : ∀ v', (name, v') ∈ ρ → v' = v) : ρ.find name = v := by
  rcases hlookup : ρ.lookup name with _ | v'
  · have := List.lookup_eq_none_iff.1 hlookup _ hmem
    simp at this
  · obtain ⟨before, after, heq, -⟩ := List.lookup_eq_some_iff.1 hlookup
    have := hunique v' (by simp [heq])
    simp [find, hlookup, this]

theorem AliasesApart.path_unique {c : Context} (h : AliasesApart env c) {path path' name : String}
    (hp : c.aliases.lookup path = some name) (hp' : c.aliases.lookup path' = some name) :
    path = path' := by
  have hmem : ∀ {path}, c.aliases.lookup path = some name → (path, name) ∈ c.aliases := by
    intro path hp
    obtain ⟨before, after, heq, -⟩ := List.lookup_eq_some_iff.1 hp
    simp [heq]
  exact congrArg Prod.fst (List.inj_on_of_nodup_map h.nodup (hmem hp) (hmem hp') rfl)

theorem AliasesApart.name_free {c : Context} (h : AliasesApart env c) {path name : String}
    (hp : c.aliases.lookup path = some name) :
    name ≠ env.config.bindHelper ∧ ∃ rest, name.toList = '_' :: rest := by
  obtain ⟨before, after, heq, -⟩ := List.lookup_eq_some_iff.1 hp
  exact (h.free name (by simp [heq])).2

/-- What names stand for at the top of a render function. -/
def Module.start (config : Config) (host : Host α) (m : Module) : Locals α :=
  [(config.apiParam, some (.service .interface)), (config.instanceParam, some host.inst),
    (config.slotsetParam, some (.service .slots)), (config.contextParam, some (.service .memo))] ++
    (hoistedNames m.function.declarations).map (·, none) ++ m.globals

/-- The names that a configuration gives a module. -/
def Config.names (c : Config) : List String :=
  [c.functionName, c.usedIdsName, c.bindHelper, c.apiParam, c.instanceParam, c.slotsetParam,
    c.contextParam]

/-- The names that a module is configured to have are apart from one another, from the aliases of
what it imports and from numbered names. -/
structure Module.NamesApart (config : Config) (m : Module) : Prop where
  nodup : config.names.Nodup
  aliases : ∀ i ∈ m.imports, i.localName ∉ config.names
  numbered : ∀ name ∈ config.reserved, ¬ Component.isNumbered name

variable (host) in
/-- The parameters stand for what a render function is called with. -/
theorem Module.NamesApart.find_start {config : Config} {m : Module} (h : m.NamesApart config) :
    (m.start config host).find config.apiParam = some (.service .interface) ∧
      (m.start config host).find config.instanceParam = some host.inst ∧
      (m.start config host).find config.slotsetParam = some (.service .slots) ∧
      (m.start config host).find config.contextParam = some (.service .memo) := by
  have hnodup : [config.apiParam, config.instanceParam, config.slotsetParam,
      config.contextParam].Nodup := h.nodup.sublist (List.drop_sublist 3 config.names)
  simp only [List.nodup_cons, List.mem_cons, List.not_mem_nil, or_false, not_or] at hnodup
  obtain ⟨⟨hinst, hslots, hmemo⟩, ⟨hslots', hmemo'⟩, hmemo'', -⟩ := hnodup
  simp only [Module.start, List.cons_append, List.nil_append]
  refine ⟨Locals.find_cons_self _ _ _, ?_, ?_, ?_⟩
  · rw [Locals.find_cons_of_ne (Ne.symm hinst), Locals.find_cons_self]
  · rw [Locals.find_cons_of_ne (Ne.symm hslots), Locals.find_cons_of_ne (Ne.symm hslots'),
      Locals.find_cons_self]
  · rw [Locals.find_cons_of_ne (Ne.symm hmemo), Locals.find_cons_of_ne (Ne.symm hmemo'),
      Locals.find_cons_of_ne (Ne.symm hmemo''), Locals.find_cons_self]

/-- A name that is no parameter and is not numbered stands for what it does in the module. -/
theorem Module.find_start_global {config : Config} {m : Module} {x : String}
    (hparameters : x ∉ [config.apiParam, config.instanceParam, config.slotsetParam,
      config.contextParam]) (hhoisted : x ∉ hoistedNames m.function.declarations) :
    (m.start config host).find x = (m.globals : Locals α).find x := by
  refine Locals.find_append ?_ _
  rw [List.map_append, List.map_map, List.mem_append]
  rintro (hmem | hmem)
  · exact hparameters hmem
  · exact hhoisted (by simpa [Function.comp_def] using hmem)

namespace Compiles

variable {t : Template} {compiled : Compiled} {sibling : Sibling} {ds : List Declaration}
  (h : Compiles env t compiled K sibling ds n)
include h

theorem exists_import {path localName : String} (hi : Imported K path localName) :
    ∃ i ∈ compiled.module.imports, i.path = path ∧ i.localName = localName := by
  have hmem := hi.component
  rw [← h.paths] at hmem
  obtain ⟨i, himport, rfl⟩ := List.mem_map.1 hmem
  exact ⟨i, himport, rfl, Option.some.inj ((h.imports i himport).symm.trans hi.known)⟩

theorem find_globals_component {path localName : String} (hi : Imported K path localName) :
    (compiled.module.globals : Locals α).find localName = some (.component path) := by
  have hne := (h.apart.name_free hi.known).1
  refine Locals.find_of_unique (List.mem_append_left _ ?_) fun v hv => ?_
  · obtain ⟨i, hmem, rfl, rfl⟩ := h.exists_import hi
    exact List.mem_map_of_mem hmem
  · rcases List.mem_append.1 hv with hv | hv
    · obtain ⟨i, hmem, heq⟩ := List.mem_map.1 hv
      obtain ⟨rfl, rfl⟩ := Prod.mk.inj heq
      rw [h.apart.path_unique (h.imports i hmem) hi.known]
    · rw [h.helper] at hv
      split at hv
      · simp only [Option.map_some, Option.toList_some, List.mem_singleton, Prod.mk.injEq] at hv
        exact absurd hv.1 hne
      · simp at hv

theorem find_globals_helper (hbinds : K.bindsCallbacks) :
    (compiled.module.globals : Locals α).find env.config.bindHelper = some .methodType := by
  have hfree : env.config.bindHelper ∉ List.map Prod.fst (compiled.module.imports.map
      fun i => (i.localName, some (.component i.path)) : Locals α) := by
    rw [List.map_map]
    intro hmem
    obtain ⟨i, hi, heq⟩ := List.mem_map.1 hmem
    exact (h.apart.name_free (h.imports i hi)).1 heq
  rw [Module.globals, Locals.find_append hfree, h.helper, if_pos hbinds]
  exact Locals.find_cons_self _ _ _

theorem declarations_eq : compiled.module.function.declarations = ds := by
  rw [h.function]
  rfl

theorem notMem_hoistedNames {x : String} (hx : ¬ Component.isNumbered x) :
    x ∉ hoistedNames ds := by
  intro hmem
  rw [← h.declarations_eq] at hmem
  exact hx (h.isNumbered_of_mem_boundNames ((hoistedNames_sublist _).mem hmem))

/-- The default names are apart from whatever a module imports. -/
theorem namesApart (hconfig : env.config = {}) : compiled.module.NamesApart env.config := by
  rw [hconfig]
  refine ⟨by decide, fun i hi hmem => ?_, by decide⟩
  obtain ⟨hne, rest, hrest⟩ := h.apart.name_free (h.imports i hi)
  rw [hconfig] at hne
  have hnames : ∀ name ∈ Config.names {}, name ≠ "_bind" → name.toList.head? ≠ some '_' := by decide
  exact hnames _ hmem hne (by simp [hrest])

variable (hnames : compiled.module.NamesApart env.config)
include hnames

theorem start_provides (hprimitives : env.config.primitives = {})
    (hfind : ∀ x ∉ hoistedNames ds, ρ.find x = (compiled.module.start env.config host).find x) :
    Provides host env.config K ρ := by
  have hreserved : ∀ x ∈ env.config.reserved,
      ρ.find x = (compiled.module.start env.config host).find x :=
    fun x hx => hfind x (h.notMem_hoistedNames (hnames.numbered x hx))
  have hglobal : ∀ x, ¬ Component.isNumbered x → x ∉ [env.config.apiParam,
      env.config.instanceParam, env.config.slotsetParam, env.config.contextParam] →
      ρ.find x = (compiled.module.globals : Locals α).find x := by
    intro x hx hparameters
    have hhoisted := h.notMem_hoistedNames hx
    rw [hfind x hhoisted]
    exact Module.find_start_global hparameters (h.declarations_eq ▸ hhoisted)
  obtain ⟨hinterface, hinst, hslots, hmemo⟩ := hnames.find_start host
  constructor
  case primitives => exact hprimitives
  case interface => exact (hreserved _ (by simp [Config.reserved])).trans hinterface
  case inst => exact (hreserved _ (by simp [Config.reserved])).trans hinst
  case slots => exact (hreserved _ (by simp [Config.reserved])).trans hslots
  case memo => exact (hreserved _ (by simp [Config.reserved])).trans hmemo
  case helper =>
    intro hbinds
    have hdistinct : [env.config.bindHelper, env.config.apiParam, env.config.instanceParam,
        env.config.slotsetParam, env.config.contextParam].Nodup :=
      hnames.nodup.sublist (List.drop_sublist 2 env.config.names)
    refine (hglobal _ (hnames.numbered _ (by simp [Config.reserved])) ?_).trans
      (h.find_globals_helper hbinds)
    exact (List.nodup_cons.1 hdistinct).1
  case component =>
    intro path localName hi
    obtain ⟨i, himport, -, rfl⟩ := h.exists_import hi
    refine (hglobal _ (h.not_isNumbered_localName himport) fun hmem => ?_).trans
      (h.find_globals_component hi)
    exact hnames.aliases i himport ((List.drop_sublist 3 env.config.names).mem hmem)

theorem run_start (hds : ∀ d ∈ ds, d.IsReadable host env.config) :
    ∃ ρ, runStatements host (compiled.module.start env.config host) ds = some ρ ∧
      Settled host ρ ds ∧
      ∀ x ∉ hoistedNames ds, ρ.find x = (compiled.module.start env.config host).find x := by
  have hnodup : (hoistedNames ds).Nodup := by
    have := h.nodup_boundNames.sublist (hoistedNames_sublist _)
    rwa [h.declarations_eq] at this
  exact run_temporaries hds hnodup
    (h.notMem_hoistedNames (hnames.numbered _ (by simp [Config.reserved])))
    (hnames.find_start host).2.1

omit hnames in
theorem render_eq_run : compiled.module.render host =
    (runStatements host (compiled.module.start env.config host) ds).bind
      fun ρ => sibling.item.code.eval host ρ := by
  rw [Module.render, Module.start, h.function, CompileM.renderFunction]
  simp [Function.call, Locals.ofCall]

end Compiles

end TemplateCompiler
