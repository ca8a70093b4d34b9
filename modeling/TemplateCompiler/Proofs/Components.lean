import TemplateCompiler.Proofs.UsedNames

/-!
# The components a module depends on

What a template asks for, told from the markup alone: a walk through its elements, children before
their parents. A run registers the paths of the walk and hands out an alias for each that is new, so
the registry and the alias table stay in step, and the imports are the table
(`imports_eq`).
-/

namespace TemplateCompiler

/-! ## What elements ask for -/

/-- The path of the component that an element of a kind asks for, if no expression selects it. -/
def ElementKind.request? (tag : Tag) (written : Option Content) : ElementKind → Option String
  | virtual ns => some (Component.modulePath ns tag.name)
  | dynamic => (Text.given (written.bind Content.text?)).map Component.tagPath
  | custom => some (Component.tagPath tag.name)
  | template | outlet | plain => none

def Node.request? (config : Config) : Node → Option String
  | .element pos tag attributes children =>
    let readings := Node.readings config (.element pos tag attributes children)
    (elementKind tag readings).request? tag (Reading.component? readings)
  | .text .. | .placeholder .. | .fragment .. | .literal .. | .attr _ | .template .. => none

mutual

/-- The paths that a node asks for, with repetition. -/
def Node.requests (config : Config) : Node → List String
  | .element pos tag attributes children =>
    requestsOf config children ++
      ((Node.element pos tag attributes children).request? config).toList
  | .fragment _ children => requestsOf config children
  | .text .. | .placeholder .. | .literal .. | .attr _ | .template .. => []

def requestsOf (config : Config) : List Node → List String
  | [] => []
  | node :: rest => node.requests config ++ requestsOf config rest

end

def Template.requests (config : Config) (t : Template) : List String :=
  (t.root?.map (Node.requests config)).getD []

/-! ## Alias tables -/

theorem nodup_foldl_record (names : List String) {members : List String} (h : members.Nodup) :
    (names.foldl record members).Nodup := by
  induction names generalizing members with
  | nil => exact h
  | cons name rest ih => exact ih (nodup_record h name)

namespace Component

variable (helper : String)

/-- A table of aliases once a path is asked for: one that is new gets an alias that is free. -/
def withAlias (table : List (String × String)) (path : String) : List (String × String) :=
  match table.lookup path with
  | some _ => table
  | none => table ++ [(path, freshAlias (table.map Prod.snd ++ [helper]) (plainAlias path))]

/-- The aliases of some paths, which are asked for in their order. -/
def aliasTable (paths : List String) : List (String × String) :=
  paths.foldl (withAlias helper) []

variable {helper}

theorem map_fst_withAlias (table : List (String × String)) (path : String) :
    (withAlias helper table path).map Prod.fst = record (table.map Prod.fst) path := by
  unfold withAlias record
  rcases hlookup : table.lookup path with _ | known
  · have hnew : path ∉ table.map Prod.fst := by
      intro hmem
      obtain ⟨e, he, rfl⟩ := List.mem_map.1 hmem
      have := List.lookup_eq_none_iff.1 hlookup e he
      simp at this
    simp [hnew]
  · obtain ⟨before, after, rfl, -⟩ := List.lookup_eq_some_iff.1 hlookup
    simp

theorem map_fst_foldl_withAlias (paths : List String) (table : List (String × String)) :
    (paths.foldl (withAlias helper) table).map Prod.fst =
      paths.foldl record (table.map Prod.fst) := by
  induction paths generalizing table with
  | nil => rfl
  | cons path rest ih => rw [List.foldl_cons, ih, map_fst_withAlias, List.foldl_cons]

theorem map_fst_aliasTable (helper : String) (paths : List String) :
    (aliasTable helper paths).map Prod.fst = paths.eraseDups := by
  rw [aliasTable, map_fst_foldl_withAlias, foldl_record]
  simp [unbound]

/-- What a table without repetition has for a path is found under it. -/
theorem lookup_aliasTable {paths : List String} {e : String × String}
    (h : e ∈ aliasTable helper paths) : (aliasTable helper paths).lookup e.1 = some e.2 := by
  have hnodup : ((aliasTable helper paths).map Prod.fst).Nodup := by
    rw [aliasTable, map_fst_foldl_withAlias]
    exact nodup_foldl_record paths List.nodup_nil
  obtain ⟨before, after, heq⟩ := List.append_of_mem h
  rw [heq] at hnodup ⊢
  refine List.lookup_eq_some_iff.2 ⟨before, after, rfl, fun other hother => ?_⟩
  rw [List.map_append, List.map_cons] at hnodup
  rw [bne_iff_ne]
  intro hsame
  exact List.disjoint_of_nodup_append hnodup (List.mem_map_of_mem hother)
    (hsame ▸ List.mem_cons_self)

end Component

/-! ## What a step registers -/

/-- A step that registers components, in their order, and hands out an alias for each new one. -/
structure Registers (env : Env) (c c' : Context) (paths : List String) : Prop where
  components : c'.manifest.components = paths.foldl record c.manifest.components
  aliases : c'.aliases = paths.foldl (Component.withAlias env.config.bindHelper) c.aliases

variable {env : Env} {c c' : Context}

theorem Registers.trans {c₁ : Context} {paths more : List String} (h : Registers env c c₁ paths)
    (h' : Registers env c₁ c' more) : Registers env c c' (paths ++ more) :=
  ⟨by rw [h'.components, h.components, List.foldl_append],
    by rw [h'.aliases, h.aliases, List.foldl_append]⟩

theorem Uses.registers {names : List String} (h : Uses c c' names) : Registers env c c' [] :=
  ⟨h.components, h.aliases⟩

namespace CompileM

theorem componentAlias_aliases {path name : String}
    (h : Yields (componentAlias env path) c name c') :
    c'.aliases = Component.withAlias env.config.bindHelper c.aliases path := by
  unfold componentAlias at h
  unfold Component.withAlias
  simp only [yields_bind, yields_get] at h
  obtain ⟨_, _, ⟨rfl, rfl⟩, h⟩ := h
  rcases hlookup : c.aliases.lookup path with _ | known
  · simp only [hlookup, yields_bind, yields_set, yields_pure] at h
    obtain ⟨_, _, rfl, -, rfl⟩ := h
    rfl
  · simp only [hlookup, yields_pure] at h
    rw [h.2]

theorem importComponent_registers {pos : Position} {path : String} {code : Code}
    (h : Yields (importComponent env pos path) c code c') : Registers env c c' [path] := by
  obtain ⟨_, c₁, c₂, ha, hu, rfl⟩ := importComponent_steps h
  have hmanifest := (componentAlias_yields ha).2.2
  refine ⟨?_, hu.aliases.trans (componentAlias_aliases ha)⟩
  rw [List.foldl_cons, List.foldl_nil, ← hmanifest, ← hu.components]
  rfl

theorem dynamicReference_registers {pos : Position} {written : Option Content}
    {resolved : Option Code} {code : Code}
    (h : Yields (dynamicReference env pos written resolved) c code c') (tag : Tag) :
    Registers env c c' (ElementKind.request? tag written .dynamic).toList := by
  unfold dynamicReference at h
  unfold ElementKind.request?
  dsimp only at h ⊢
  generalize Text.given (written.bind Content.text?) = named at h ⊢
  split at h
  · exact importComponent_registers h
  · exact (pure_uses h).registers
  · exact absurd h yields_reject

theorem elementCall_registers {pos : Position} {tag : Tag} {kind : ElementKind}
    {written : Option Content} {parts : List Part} {items : List Item} {code : Code}
    (h : Yields (elementCall env pos tag kind written parts items) c code c') :
    Registers env c c' (kind.request? tag written).toList := by
  unfold elementCall at h
  cases kind with
  | virtual ns =>
    simp only [yields_bind, yields_pure] at h
    obtain ⟨_, _, hi, -, rfl⟩ := h
    exact importComponent_registers hi
  | dynamic =>
    simp only [yields_bind, yields_pure] at h
    obtain ⟨_, _, hr, -, rfl⟩ := h
    exact dynamicReference_registers hr tag
  | custom =>
    simp only [yields_bind, yields_pure] at h
    obtain ⟨_, _, hi, -, rfl⟩ := h
    exact importComponent_registers hi
  | template | outlet | plain => exact (pure_uses h).registers

theorem lowerElement_registers {place : Place} {pos : Position} {tag : Tag}
    {attributes : List Attribute} {children : CompileM (List Sibling)} {nodes : List Node}
    {sibling : Sibling}
    (hchildren : ∀ {c c' siblings}, Yields children c siblings c' →
      Registers env c c' (requestsOf env.config nodes))
    (h : Yields (lowerElement env place pos tag attributes children) c sibling c') :
    Registers env c c' ((Node.element pos tag attributes nodes).requests env.config) := by
  simp only [lowerElement, yields_bind] at h
  obtain ⟨⟨readings, kind⟩, c₀, hr, loop, c₁, ho, parts, c₂, hp, siblings, c₃, hs, items, c₄, hi, h⟩
    := h
  obtain ⟨hread, hkind, -, rfl⟩ := readElement_yields hr
  have hreadings : Node.readings env.config (.element pos tag attributes nodes) = readings := by
    simp only [Node.readings, hread]
  have hbefore : Registers env c₀ c₂ [] :=
    ((openLoop_uses ho (Scope.isBound_eq_contains _)).trans
      (resolveReadings_uses hp (Scope.isBound_eq_contains _))).registers
  have hrest : Registers env c₃ c' (kind.request? tag (Reading.component? readings)).toList := by
    refine Registers.trans (finishChains_uses hi).registers ?_
    dsimp only at h
    split at h
    · exact (templateSibling_uses h).registers
    · exact (pure_uses h).registers
    · simp only [yields_bind, yields_pure] at h
      obtain ⟨_, c₅, hcall, _, _, hform, -, rfl⟩ := h
      have := (elementCall_registers hcall).trans (elementForm_uses hform).registers
      rwa [List.append_nil] at this
  have := (hbefore.trans (hchildren hs)).trans hrest
  simpa only [Node.requests, Node.request?, hreadings, ← hkind, List.nil_append] using this

mutual

theorem lowerNode_registers {around : Place} {before : Nat} :
    ∀ {node : Node} {c c' siblings}, Yields (lowerNode env around before node) c siblings c' →
      Registers env c c' (node.requests env.config)
  | .text pos value, _, _, _, h => by
    rw [Node.requests]
    simp only [lowerNode, yields_ite, yields_pure] at h
    split at h <;> exact h.2 ▸ (Uses.refl _).registers
  | .placeholder pos none, _, _, _, h => by
    rw [Node.requests]
    rw [lowerNode] at h
    exact (pure_uses h).registers
  | .placeholder pos (some e), _, _, _, h => by
    rw [Node.requests]
    simp only [lowerNode, yields_bind, yields_pure] at h
    obtain ⟨_, _, hc, code, _, hq, -, rfl⟩ := h
    obtain ⟨-, rfl⟩ := yields_check hc
    exact (qualify_uses hq (Scope.isBound_eq_contains _)).registers
  | .fragment pos children, _, _, _, h => by
    rw [Node.requests]
    rw [lowerNode] at h
    exact lowerNodes_registers h
  | .element pos tag attributes children, _, _, _, h => by
    simp only [lowerNode, yields_bind, yields_pure] at h
    obtain ⟨sibling, _, h, -, rfl⟩ := h
    exact lowerElement_registers (fun h => lowerNodes_registers h) h
  | .literal _ _, _, _, _, h => by
    rw [lowerNode] at h
    exact absurd h yields_throw
  | .attr _, _, _, _, h => by
    rw [lowerNode] at h
    exact absurd h yields_throw
  | .template _ _, _, _, _, h => by
    rw [lowerNode] at h
    exact absurd h yields_throw

theorem lowerNodes_registers {around : Place} {before : Nat} :
    ∀ {nodes : List Node} {c c' siblings},
      Yields (lowerNodes env around before nodes) c siblings c' →
      Registers env c c' (requestsOf env.config nodes)
  | [], _, _, _, h => by
    rw [requestsOf]
    rw [lowerNodes] at h
    exact (pure_uses h).registers
  | node :: rest, _, _, _, h => by
    rw [requestsOf]
    simp only [lowerNodes, yields_bind, yields_pure] at h
    obtain ⟨head, c₁, hh, more, c₂, ht, -, rfl⟩ := h
    exact (lowerNode_registers hh).trans (lowerNodes_registers ht)

end

theorem lowerRoot_registers {t : Template} {code : Code} (h : Yields (lowerRoot env t) c code c') :
    Registers env c c' (t.requests env.config) := by
  unfold lowerRoot at h
  split at h
  · exact absurd h yields_reject
  · exact absurd h yields_reject
  · rename_i pos attributes children hroot
    simp only [yields_bind, yields_pure] at h
    obtain ⟨sibling, _, h, -, rfl⟩ := h
    have := lowerElement_registers (fun h => lowerNodes_registers h) h
    simpa only [Template.requests, Template.root?, hroot, List.head?_cons, Option.map_some,
      Option.getD_some] using this
  · exact absurd h yields_reject

/-- What has an alias keeps it when it is imported. -/
theorem importsOf_known :
    ∀ {entries : List (String × String)} {c c' : Context} {imports : List Import},
      (∀ e ∈ entries, c.aliases.lookup e.1 = some e.2) →
      Yields (importsOf env (entries.map Prod.fst)) c imports c' →
      imports = entries.map fun e => ⟨e.1, e.2⟩
  | [], _, _, _, _, h => by
    rw [List.map_nil, importsOf, yields_pure] at h
    exact h.1.symm
  | e :: rest, c, _, _, hknown, h => by
    rw [List.forall_mem_cons] at hknown
    simp only [List.map_cons, importsOf, importOf, componentAlias, yields_bind, yields_get,
      yields_pure] at h
    obtain ⟨_, c₁, ⟨_, _, ⟨_, _, ⟨rfl, rfl⟩, h⟩, rfl, rfl⟩, more, _, hm, rfl, -⟩ := h
    simp only [hknown.1, yields_pure] at h
    obtain ⟨rfl, rfl⟩ := h
    rw [List.map_cons, importsOf_known hknown.2 hm]

end CompileM

/-- A module depends on what its markup asks for, every path where it is first asked for, and its
imports are the aliases of that. -/
theorem imports_eq {t : Template} {compiled : Compiled} (h : (compile env t).1 = .ok compiled) :
    compiled.dependencies = (t.requests env.config).eraseDups ∧
      compiled.module.imports =
        (Component.aliasTable env.config.bindHelper (t.requests env.config)).map
          fun e => ⟨e.1, e.2⟩ := by
  obtain ⟨K, hrun⟩ := exists_run_of_ok h
  simp only [CompileM.compileUnit, CompileM.yields_bind, CompileM.yields_get,
    CompileM.yields_pure] at hrun
  obtain ⟨_, c₁, hn₁, _, c₂, ho, code, c₃, hr, ds, c₄, hc, _, _, ⟨rfl, rfl⟩, imports, c₅, hi, _, _,
    ⟨rfl, rfl⟩, _, _, -, rfl, -⟩ := hrun
  have hregisters : Registers env .initial c₄ (t.requests env.config) := by
    have hbefore := (CompileM.note_uses hn₁).trans (CompileM.openScope_uses ho)
    have := (hbefore.registers.trans (CompileM.lowerRoot_registers hr)).trans
      (CompileM.closeScope_uses hc).registers
    simpa only [List.nil_append, List.append_nil] using this
  have htable : c₄.aliases = Component.aliasTable env.config.bindHelper (t.requests env.config) :=
    hregisters.aliases
  have hcomponents : c₄.manifest.components = (t.requests env.config).eraseDups := by
    rw [hregisters.components, foldl_record]
    simp [Context.initial, Manifest.empty, unbound]
  rw [hcomponents, ← Component.map_fst_aliasTable env.config.bindHelper] at hi
  refine ⟨hcomponents, CompileM.importsOf_known (fun e he => ?_) hi⟩
  rw [htable]
  exact Component.lookup_aliasTable he

theorem map_path_imports {t : Template} {compiled : Compiled}
    (h : (compile env t).1 = .ok compiled) :
    compiled.module.imports.map Import.path = (t.requests env.config).eraseDups := by
  rw [(imports_eq h).2, List.map_map]
  exact Component.map_fst_aliasTable _ _

end TemplateCompiler
