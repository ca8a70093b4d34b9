import TemplateCompiler.Proofs.Imports

/-!
# Names at the top of a module

A module's body binds the aliases of its imports, the bind helper, its function and its manifest. Of
the configured names an alias gives way to the bind helper only. So the names are apart, and an
alias means its import, exactly where no alias is another configured name and no element repeats for
it (`aliases_denote_iff`). A configuration without leading low lines has no such alias
(`notMem_unguarded_of_head`).
-/

namespace TemplateCompiler

def Statement.name : Statement → String
  | .importFrom _ _ localName => localName
  | .importModule item => item.localName
  | .define function => function.name
  | .manifest name _ => name

/-- The statement that a name has its value from once all of a module's body has run. -/
def Module.holder? (m : Module) (name : String) : Option Statement :=
  m.body.reverse.find? fun s => s.name = name

/-- A mention in a module's function means an import: no function around it has the name, and in the
module's body the import is the last to bind it. -/
def Module.Denotes (M : Module) (m : Mention) (i : Import) : Prop :=
  (∀ layer ∈ m.within, layer.isLocal m.name = false) ∧
    M.holder? m.name = some (.importModule i)

/-- The configured names that an alias does not give way to. -/
def Config.unguarded (c : Config) : List String :=
  [c.functionName, c.usedIdsName, c.apiParam, c.instanceParam, c.slotsetParam, c.contextParam]

/-- The aliases of the components that a template asks for. -/
def Template.aliases (config : Config) (t : Template) : List String :=
  (Component.aliasTable config.bindHelper (t.requests config)).map Prod.snd

/-! ## Aliases begin with a low line -/

theorem Component.head?_of_mem_foldl {helper : String} :
    ∀ (paths : List String) {table : List (String × String)},
      (∀ e ∈ table, e.2.toList.head? = some '_') →
      ∀ e ∈ paths.foldl (withAlias helper) table, e.2.toList.head? = some '_'
  | [], _, htable => htable
  | path :: rest, table, htable => by
    refine head?_of_mem_foldl rest fun e he => ?_
    unfold withAlias at he
    split at he
    · exact htable e he
    · rcases List.mem_append.1 he with he | he
      · exact htable e he
      · obtain rfl := List.mem_singleton.1 he
        obtain ⟨tail, htail⟩ := toList_freshAlias (table.map Prod.snd ++ [helper]) path
        simp [htail]

theorem Template.notMem_unguarded_of_head {config : Config}
    (h : ∀ name ∈ config.unguarded, name.toList.head? ≠ some '_') (t : Template) :
    ∀ name ∈ t.aliases config, name ∉ config.unguarded := by
  intro name hname hmem
  obtain ⟨e, he, rfl⟩ := List.mem_map.1 hname
  exact h _ hmem (Component.head?_of_mem_foldl _ (by simp) e he)

/-! ## The body of a module -/

theorem Module.map_name_body (m : Module) :
    m.body.map Statement.name = m.bindHelper.toList ++ m.imports.map Import.localName ++
      [m.function.name, m.manifestName] := by
  cases h : m.bindHelper <;> simp [Module.body, h, Statement.name, Function.comp_def]

/-- The names of a body are apart where its imports are apart from the function and the manifest. -/
theorem Module.nodup_map_name_body {m : Module} (himports : (m.imports.map Import.localName).Nodup)
    (hown : (m.bindHelper.toList ++ [m.function.name, m.manifestName]).Nodup)
    (hhelper : ∀ i ∈ m.imports, i.localName ∉ m.bindHelper) :
    (m.body.map Statement.name).Nodup ↔
      ∀ i ∈ m.imports, i.localName ≠ m.function.name ∧ i.localName ≠ m.manifestName := by
  have hperm : (m.body.map Statement.name).Perm
      (m.imports.map Import.localName ++
        (m.bindHelper.toList ++ [m.function.name, m.manifestName])) := by
    rw [m.map_name_body, ← List.append_assoc]
    exact List.perm_append_comm.append_right _
  rw [hperm.nodup_iff, List.nodup_append', List.disjoint_left, List.forall_mem_map]
  refine ⟨fun h i hi => ?_, fun h => ⟨himports, hown, fun i hi hmem => ?_⟩⟩
  · have := h.2.2 i hi
    simp only [List.mem_append, List.mem_cons, List.not_mem_nil, or_false] at this
    tauto
  · have := h i hi
    have := hhelper i hi
    simp only [List.mem_append, List.mem_cons, List.not_mem_nil, or_false,
      Option.mem_toList] at hmem
    tauto

/-- A name that one import binds means the import, unless the function or the manifest has it. -/
theorem Module.holder?_localName {m : Module} (h : (m.imports.map Import.localName).Nodup)
    {i : Import} (hi : i ∈ m.imports) :
    m.holder? i.localName = some (.importModule i) ↔
      i.localName ≠ m.function.name ∧ i.localName ≠ m.manifestName := by
  have hlast : m.imports.reverse.find? (fun j => j.localName = i.localName) = some i := by
    obtain ⟨before, after, heq⟩ := List.append_of_mem hi
    rw [heq, List.map_append, List.map_cons] at h
    have hafter : ∀ j ∈ after, j.localName ≠ i.localName := by
      intro j hj hsame
      have := (List.nodup_cons.1 h.of_append_right).1
      exact this (hsame ▸ List.mem_map_of_mem hj)
    rw [heq]
    refine List.find?_eq_some_iff_append.2 ⟨by simp, after.reverse, before.reverse, by simp, ?_⟩
    simpa using hafter
  have hbody : m.holder? i.localName =
      ([.manifest m.manifestName m.usedNames, .define m.function].find?
        fun s : Statement => s.name = i.localName).or (some (.importModule i)) := by
    have himports : (m.imports.map Statement.importModule).reverse.find?
        (fun s => s.name = i.localName) = some (.importModule i) := by
      rw [← List.map_reverse, List.find?_map]
      exact congrArg (Option.map _) hlast
    rw [Module.holder?, Module.body, List.reverse_append, List.reverse_append, List.find?_append,
      List.find?_append, himports, Option.some_or]
    rfl
  rw [hbody]
  by_cases hmanifest : m.manifestName = i.localName
  · simp [Statement.name, hmanifest]
  · by_cases hfunction : m.function.name = i.localName
    · simp [Statement.name, hmanifest, hfunction]
    · simp [Statement.name, hmanifest, hfunction, Ne.symm hmanifest, Ne.symm hfunction]

section

variable {env : Env} {t : Template} {compiled : Compiled} {K : Context} {sibling : Sibling}
  {ds : List Declaration} {n : Numbering}

theorem map_localName_imports (h : (compile env t).1 = .ok compiled) :
    compiled.module.imports.map Import.localName = t.aliases env.config := by
  rw [(imports_eq h).2, List.map_map]
  simp [Template.aliases, Function.comp_def]

theorem manifestName_eq (h : (compile env t).1 = .ok compiled) :
    compiled.module.manifestName = env.config.usedIdsName := by
  obtain ⟨K, hrun⟩ := exists_run_of_ok h
  simp only [CompileM.compileUnit, CompileM.yields_bind, CompileM.yields_pure] at hrun
  obtain ⟨_, _, -, _, _, -, _, _, -, _, _, -, _, _, -, _, _, -, _, _, -, _, _, -, rfl, -⟩ := hrun
  rfl

namespace Compiles

variable (hc : Compiles env t compiled K sibling ds n)
include hc

/-- Of the names around an alias only those that elements repeat for and the parameters of the
render function can be the same. -/
theorem isLocal_localName_iff {i : Import} (hi : i ∈ compiled.module.imports) {m : Mention}
    (hm : m ∈ compiled.module.function.mentions) (hname : i.localName = m.name) :
    (∀ layer ∈ m.within, layer.isLocal m.name = false) ↔
      m.name ∉ compiled.module.function.parameters ∧
        ∀ layer ∈ m.within.dropLast, m.name ∉ (t.binderAt env.config layer.place).parameters := by
  have hlocal : ∀ layer ∈ m.within, layer.isLocal m.name = false ↔ m.name ∉ layer.parameters := by
    intro layer hl
    have hhoisted : m.name ∉ layer.hoisted := fun hmem =>
      hc.not_isNumbered_localName hi
        (hname ▸ hc.isNumbered_of_mem_boundNames (Function.mem_boundNames_of_hoisted hm hl hmem))
    rw [← Bool.not_eq_true, Layer.isLocal_iff, or_iff_left hhoisted]
  obtain ⟨m', hm', last, -, hwithin, -, hparameters⟩ := hc.exists_bodyMention hm
  have hauthored : ∀ layer ∈ m'.within,
      layer.parameters = (t.binderAt env.config layer.place).parameters := fun layer hl =>
    congrArg Binder.parameters ((hc.fits_of_mem hm').authored _ (List.mem_map_of_mem hl))
  have hrender : compiled.module.function.parameters = last.parameters := by
    rw [hc.function, hparameters]
    rfl
  rw [forall₂_congr hlocal, hwithin, List.dropLast_concat, hrender]
  simp only [List.forall_mem_append, List.forall_mem_singleton]
  rw [and_comm, and_congr_right_iff]
  exact fun _ => forall₂_congr fun layer hl => by rw [hauthored layer hl]

end Compiles

/-- A module's names are apart where no alias is a configured name other than the bind helper, and
an alias means its import where moreover no element around it repeats for the alias. -/
theorem aliases_denote_iff (h : (compile env t).1 = .ok compiled)
    (hnames : env.config.names.Nodup) :
    ((compiled.module.body.map Statement.name).Nodup ∧
        (∀ i ∈ compiled.module.imports, i.localName ∉ compiled.module.function.parameters) ↔
      ∀ name ∈ t.aliases env.config, name ∉ env.config.unguarded) ∧
    ∀ m ∈ compiled.module.function.mentions, ∀ i ∈ compiled.module.imports,
      i.localName = m.name →
        (compiled.module.Denotes m i ↔ m.name ∉ env.config.unguarded ∧
          ∀ layer ∈ m.within.dropLast,
            m.name ∉ (t.binderAt env.config layer.place).parameters) := by
  obtain ⟨K, sibling, ds, n, hc⟩ := compiles_of_ok h
  have hfunction : compiled.module.function.name = env.config.functionName := by
    rw [hc.function]
    rfl
  have hparameters : compiled.module.function.parameters =
      [env.config.apiParam, env.config.instanceParam, env.config.slotsetParam,
        env.config.contextParam] := by
    rw [hc.function]
    rfl
  have hunguarded : ∀ name, name ∉ env.config.unguarded ↔
      (name ≠ compiled.module.function.name ∧ name ≠ compiled.module.manifestName) ∧
        name ∉ compiled.module.function.parameters := by
    intro name
    rw [hfunction, manifestName_eq h, hparameters]
    simp [Config.unguarded, and_assoc]
  have hapart : (compiled.module.imports.map Import.localName).Nodup := by
    refine hc.nodup_localName ?_
    rw [map_path_imports h]
    exact nodup_eraseDups _
  constructor
  · have hhelper : ∀ name ∈ compiled.module.bindHelper, name = env.config.bindHelper := by
      intro name hname
      rw [hc.helper, Option.mem_def] at hname
      split at hname
      · exact (Option.some.inj hname).symm
      · simp at hname
    have hfree : ∀ i ∈ compiled.module.imports, i.localName ∉ compiled.module.bindHelper :=
      fun i hi hmem => (hc.apart.name_free (hc.imports i hi)).1 (hhelper _ hmem)
    have hown : (compiled.module.bindHelper.toList ++
        [compiled.module.function.name, compiled.module.manifestName]).Nodup := by
      simp only [Config.names, List.nodup_cons, List.mem_cons, not_or] at hnames
      rw [hfunction, manifestName_eq h, List.nodup_append']
      refine ⟨by cases compiled.module.bindHelper <;> simp, by simp [hnames.1.1], ?_⟩
      intro name hname hmem
      obtain rfl := hhelper name (Option.mem_toList.1 hname)
      simp only [List.mem_cons, List.not_mem_nil, or_false] at hmem
      tauto
    simp only [Module.nodup_map_name_body hapart hown hfree, ← map_localName_imports h,
      List.forall_mem_map, hunguarded, forall_and]
  · intro m hm i hi hname
    rw [Module.Denotes, hc.isLocal_localName_iff hi hm hname, hunguarded, ← hname,
      Module.holder?_localName hapart hi]
    tauto

end

/-- A component whose plain alias is what the render function is called. -/
def reboundTemplate : Template :=
  .ofRoot [.plain "x-foo" [] []]

def reboundEnv : Env :=
  { Env.default with config := { functionName := "_x_foo" } }

/-- The component in the call that renders it. -/
theorem exists_rebound :
    ∃ compiled, (compile reboundEnv reboundTemplate).1 = .ok compiled ∧
      compiled.module.body.map Statement.name = ["_x_foo", "_x_foo", "used_ids"] ∧
      compiled.module.function.name = "_x_foo" ∧
      compiled.module.imports = [⟨"x.foo", "_x_foo"⟩] ∧
      ⟨[⟨⟨[], ["api", "cmp", "slotset", "ctx"]⟩, [], []⟩], [], "_x_foo", none⟩ ∈
        compiled.module.function.mentions := by
  have hfind : (compile reboundEnv reboundTemplate).1.toOption.map (fun c =>
      (c.module.body.map Statement.name, c.module.function.name, c.module.imports,
        c.module.function.mentions.find? fun m => m.name = "_x_foo")) =
      some (["_x_foo", "_x_foo", "used_ids"], "_x_foo", [⟨"x.foo", "_x_foo"⟩],
        some ⟨[⟨⟨[], ["api", "cmp", "slotset", "ctx"]⟩, [], []⟩], [], "_x_foo", none⟩) := by
    decide +kernel
  obtain ⟨compiled, hc, hm⟩ := exists_ok_of_map hfind
  rw [Prod.mk.injEq, Prod.mk.injEq, Prod.mk.injEq] at hm
  exact ⟨compiled, hc, hm.1, hm.2.1, hm.2.2.1, List.mem_of_find?_eq_some hm.2.2.2⟩

theorem aliases_denote_iff_rebound :
    reboundEnv.config.names.Nodup ∧
    ∃ compiled, (compile reboundEnv reboundTemplate).1 = .ok compiled ∧
      ((compiled.module.body.map Statement.name).Nodup ∧
          (∀ i ∈ compiled.module.imports, i.localName ∉ compiled.module.function.parameters) ↔
        ∀ name ∈ reboundTemplate.aliases reboundEnv.config, name ∉ reboundEnv.config.unguarded) ∧
      ∃ m ∈ compiled.module.function.mentions, ∃ i ∈ compiled.module.imports,
        i.localName = m.name ∧
          (compiled.module.Denotes m i ↔ m.name ∉ reboundEnv.config.unguarded ∧
            ∀ layer ∈ m.within.dropLast,
              m.name ∉ (reboundTemplate.binderAt reboundEnv.config layer.place).parameters) := by
  have hnames : reboundEnv.config.names.Nodup := by decide
  obtain ⟨compiled, hc, -, -, himports, hm⟩ := exists_rebound
  obtain ⟨hapart, hdenotes⟩ := aliases_denote_iff hc hnames
  have hi : ⟨"x.foo", "_x_foo"⟩ ∈ compiled.module.imports := himports ▸ List.mem_cons_self
  exact ⟨hnames, compiled, hc, hapart, _, hm, _, hi, rfl, hdenotes _ hm _ hi rfl⟩

theorem alias_is_rebound :
    reboundEnv.config.names.Nodup ∧
    ∃ compiled, (compile reboundEnv reboundTemplate).1 = .ok compiled ∧
      ¬ (compiled.module.body.map Statement.name).Nodup ∧
      ∃ m ∈ compiled.module.function.mentions, ∃ i ∈ compiled.module.imports,
        i.localName = m.name ∧ ¬ compiled.module.Denotes m i := by
  obtain ⟨compiled, hc, hbody, hfunction, himports, hm⟩ := exists_rebound
  have hi : ⟨"x.foo", "_x_foo"⟩ ∈ compiled.module.imports := himports ▸ List.mem_cons_self
  refine ⟨by decide, compiled, hc, by simp [hbody], _, hm, _, hi, rfl, fun hdenotes => ?_⟩
  have hholder := (Module.holder?_localName (by simp [himports]) hi).1 hdenotes.2
  exact hholder.1 hfunction.symm

end TemplateCompiler
