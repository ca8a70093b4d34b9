import TemplateCompiler.Proofs.Lowering

/-!
# Units follow the relation

A unit compiles to a render function with the root element's code as its result, and imports what
the root has been seen to use.
-/

namespace TemplateCompiler

/-- A unit's root element: all else in its body is blank text. -/
def Template.root? (t : Template) : Option Node :=
  (t.body.filter fun node => !node.isBlank).head?

/-- What is known of a unit that compiles: how its root is lowered, and what its module makes of
that. -/
structure Compiles (env : Env) (t : Template) (compiled : Compiled) (K : Context)
    (sibling : Sibling) (ds : List Declaration) (n : Numbering) : Prop where
  root : ∃ pos attributes children,
    t.root? = some (.element pos ⟨none, "template"⟩ attributes children) ∧
      LowersElement env K [] [] pos ⟨none, "template"⟩ attributes children sibling ds ⟨0, 0, 0⟩ n
  apart : AliasesApart env K
  function : compiled.module.function =
    CompileM.renderFunction env.config ds sibling.item.code
  paths : compiled.module.imports.map Import.path = K.manifest.components
  imports : ∀ i ∈ compiled.module.imports, K.aliases.lookup i.path = some i.localName
  helper : compiled.module.bindHelper =
    if K.bindsCallbacks then some env.config.bindHelper else none

namespace CompileM

variable {env : Env} {c c' : Context}

theorem importsOf_yields :
    ∀ {paths : List String} {c c' : Context} {imports : List Import},
      Yields (importsOf env paths) c imports c' →
      imports.map Import.path = paths ∧ c'.manifest = c.manifest ∧ Grows env c c' ∧
        ∀ i ∈ imports, c'.aliases.lookup i.path = some i.localName
  | [], c, _, imports, h => by
    obtain ⟨rfl, rfl⟩ := yields_pure.1 h
    exact ⟨rfl, rfl, .refl env c, by simp⟩
  | path :: rest, c, _, imports, h => by
    simp only [importsOf, importOf, yields_bind, yields_pure] at h
    obtain ⟨_, c₁, ⟨localName, _, ha, rfl, rfl⟩, more, c₂, hm, rfl, rfl⟩ := h
    obtain ⟨hl, hk, hmanifest⟩ := componentAlias_yields ha
    obtain ⟨hpaths, hmanifest', hg, hmore⟩ := importsOf_yields hm
    refine ⟨by simp [hpaths], hmanifest'.trans hmanifest, hk.grows.trans hg, ?_⟩
    intro i hi
    rcases List.mem_cons.1 hi with rfl | hi
    · exact hg.aliases _ _ hl
    · exact hmore i hi

theorem lowerRoot_yields {t : Template} {code : Code} (h : Yields (lowerRoot env t) c code c')
    (hbound : c.scope.isBound = binds []) :
    ∃ pos attributes children sibling ds,
      t.root? = some (.element pos ⟨none, "template"⟩ attributes children) ∧
      code = sibling.item.code ∧ Adds env c c' ds ∧ ∀ K, Grows env c' K →
        LowersElement env K [] [] pos ⟨none, "template"⟩ attributes children sibling ds
          c.numbering c'.numbering := by
  unfold lowerRoot at h
  split at h
  · exact absurd h yields_reject
  · exact absurd h yields_reject
  · rename_i pos attributes children hroot
    simp only [yields_bind, yields_pure] at h
    obtain ⟨sibling, _, h, rfl, rfl⟩ := h
    obtain ⟨ds, ha, hl⟩ := lowerElement_yields (fun h => lowerNodes_yields h) h hbound
    exact ⟨pos, attributes, children, sibling, ds, by simp [Template.root?, hroot], rfl, ha, hl⟩
  · exact absurd h yields_reject

end CompileM

/-- A unit that compiles is one whose compilation runs through. -/
theorem exists_run_of_ok {env : Env} {t : Template} {compiled : Compiled}
    (h : (compile env t).1 = .ok compiled) :
    ∃ K, CompileM.Yields (CompileM.compileUnit env t) .initial compiled K := by
  unfold compile at h
  unfold CompileM.Yields
  split at h
  · rename_i found K hrun
    exact ⟨K, hrun.trans (by simpa using h)⟩
  · simp at h

/-- A module that compiles, read off what is computed of it. -/
theorem exists_ok_of_map {env : Env} {t : Template} {α : Type} {f : Compiled → α} {a : α}
    (h : (compile env t).1.toOption.map f = some a) :
    ∃ compiled, (compile env t).1 = .ok compiled ∧ f compiled = a := by
  rcases hc : (compile env t).1 with failure | compiled
  · simp [hc, Except.toOption] at h
  · exact ⟨compiled, rfl, by simpa [hc, Except.toOption] using h⟩

theorem compiles_of_ok {env : Env} {t : Template} {compiled : Compiled}
    (h : (compile env t).1 = .ok compiled) :
    ∃ K sibling ds n, Compiles env t compiled K sibling ds n := by
  obtain ⟨K, hrun⟩ := exists_run_of_ok h
  simp only [CompileM.compileUnit, CompileM.yields_bind, CompileM.yields_get,
    CompileM.yields_pure] at hrun
  obtain ⟨_, c₁, hn₁, _, c₂, ho, code, c₃, hr, ds, c₄, hc, _, _, ⟨rfl, rfl⟩, imports, c₅, hi, _, _,
    ⟨rfl, rfl⟩, _, _, -, rfl, -⟩ := hrun
  have hk₁ : Keeps env _ c₁ := CompileM.note_keeps hn₁
  obtain ⟨hf₂, hnum₂, hg₂⟩ := CompileM.openScope_yields env ho
  rw [hk₁.scope] at hf₂
  have hbound : c₂.scope.isBound = binds [] := by
    funext name
    rw [Scope.isBound, hf₂]
    rfl
  obtain ⟨pos, attributes, children, sibling, ds', hroot, rfl, ha₃, hl⟩ :=
    CompileM.lowerRoot_yields hr hbound
  have hf₃ : c₃.scope.frames = ⟨[], ds', []⟩ :: Context.initial.scope.frames := by
    rw [ha₃.frames, hf₂]
    rfl
  obtain ⟨rfl, -, hnum₄, hg₄⟩ := CompileM.closeScope_yields env hc hf₃
  obtain ⟨hpaths, hmanifest, hg₅, himports⟩ := CompileM.importsOf_yields hi
  have hg₃ : Grows env c₃ c₅ := hg₄.trans hg₅
  have hg : Grows env .initial c₅ := ((hk₁.grows.trans hg₂).trans ha₃.grows).trans hg₃
  have hapart : AliasesApart env .initial := ⟨.nil, by simp [Context.initial]⟩
  rw [hnum₂, hk₁.numbering] at hl
  exact ⟨c₅, sibling, ds, c₃.numbering, ⟨pos, attributes, children, hroot, hl c₅ hg₃⟩,
    hg.apart hapart, rfl, by rw [hpaths, hmanifest], himports, rfl⟩

end TemplateCompiler
