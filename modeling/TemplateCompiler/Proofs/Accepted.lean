import TemplateCompiler.Proofs.UsedNames

/-!
# What a unit that compiles has passed

Lowering reads the attributes of every element before anything else about it, and stops where one
is wrong. So each element of a unit that compiles has attributes that can be read, and an outlet
among them has no directive.
-/

namespace TemplateCompiler

/-- An element whose attributes can be read, and none of them a directive if it is an outlet. -/
def Node.IsSound (config : Config) : Node → Prop
  | .element _ tag attributes _ => ∃ readings,
      Reading.ofAttributes config [] attributes = .ok readings ∧
        (elementKind tag readings = .outlet → readings.any Reading.isDirective = false)
  | _ => False

namespace CompileM

variable {env : Env} {c c' : Context}

theorem lowerElement_isSound {place : Place} {pos : Position} {tag : Tag}
    {attributes : List Attribute} {nodes : List Node} {children : CompileM (List Sibling)}
    {sibling : Sibling}
    (h : Yields (lowerElement env place pos tag attributes children) c sibling c')
    (hchildren : ∀ {c siblings c'}, Yields children c siblings c' →
      ∀ e ∈ allElementsOf nodes, e.IsSound env.config) :
    ∀ e ∈ (Node.element pos tag attributes nodes).allElements, e.IsSound env.config := by
  simp only [lowerElement, yields_bind] at h
  obtain ⟨⟨readings, kind⟩, _, hr, _, _, -, _, _, -, siblings, _, hs, -⟩ := h
  obtain ⟨hreads, rfl, hdirective, -⟩ := readElement_yields hr
  rw [Node.allElements, List.forall_mem_cons]
  exact ⟨⟨readings, hreads, hdirective⟩, hchildren hs⟩

mutual

theorem lowerNode_isSound {around : Place} {before : Nat} :
    ∀ {node : Node} {c siblings c'}, Yields (lowerNode env around before node) c siblings c' →
      ∀ e ∈ node.allElements, e.IsSound env.config
  | .text .., _, _, _, _ | .placeholder .., _, _, _, _ | .literal .., _, _, _, _
  | .attr _, _, _, _, _ | .template .., _, _, _, _ => by simp [Node.allElements]
  | .fragment _ children, _, _, _, h => by
    rw [lowerNode] at h
    rw [Node.allElements]
    exact lowerNodes_isSound h
  | .element pos tag attributes children, _, _, _, h => by
    simp only [lowerNode, yields_bind] at h
    obtain ⟨_, _, h, -⟩ := h
    exact lowerElement_isSound h fun h => lowerNodes_isSound h

theorem lowerNodes_isSound {around : Place} {before : Nat} :
    ∀ {nodes : List Node} {c siblings c'},
      Yields (lowerNodes env around before nodes) c siblings c' →
        ∀ e ∈ allElementsOf nodes, e.IsSound env.config
  | [], _, _, _, _ => by simp [allElementsOf]
  | node :: rest, _, _, _, h => by
    simp only [lowerNodes, yields_bind] at h
    obtain ⟨_, _, hh, _, _, ht, -⟩ := h
    rw [allElementsOf, List.forall_mem_append]
    exact ⟨lowerNode_isSound hh, lowerNodes_isSound ht⟩

end

end CompileM

variable {env : Env} {t : Template} {compiled : Compiled}

/-- The root of a unit that compiles is lowered where nothing is bound or recorded yet, and what it
records is what the module lists. -/
theorem exists_lowerRoot_of_ok (h : (compile env t).1 = .ok compiled) :
    ∃ c code c', CompileM.Yields (CompileM.lowerRoot env t) c code c' ∧
      c.scope.isBound = [].contains ∧ c.manifest.usedNames = [] ∧
      compiled.module.usedNames = c'.manifest.usedNames := by
  obtain ⟨K, hrun⟩ := exists_run_of_ok h
  simp only [CompileM.compileUnit, CompileM.yields_bind, CompileM.yields_get,
    CompileM.yields_pure] at hrun
  obtain ⟨_, c₁, hn₁, _, c₂, ho, code, c₃, hr, ds, c₄, hc, _, _, ⟨rfl, rfl⟩, imports, c₅, -, _, _,
    ⟨rfl, rfl⟩, _, _, -, rfl, -⟩ := hrun
  have hbound : c₂.scope.isBound = [].contains := by
    obtain ⟨hf₂, -, -⟩ := CompileM.openScope_yields env ho
    have hk₁ : Keeps env _ c₁ := CompileM.note_keeps hn₁
    funext name
    rw [Scope.isBound, hf₂, hk₁.scope]
    rfl
  have hbefore : Records .initial c₂ [] :=
    (CompileM.note_records hn₁).trans (CompileM.openScope_records ho)
  have hafter : Records c₃ c₄ [] := CompileM.closeScope_records hc
  exact ⟨c₂, code, c₃, hr, hbound, hbefore, hafter⟩

theorem isSound_of_ok (h : (compile env t).1 = .ok compiled) :
    ∀ e ∈ t.elements, e.IsSound env.config := by
  obtain ⟨c, code, c', hroot, -⟩ := exists_lowerRoot_of_ok h
  unfold CompileM.lowerRoot at hroot
  split at hroot
  · exact absurd hroot CompileM.yields_reject
  · exact absurd hroot CompileM.yields_reject
  · rename_i pos attributes children hbody
    simp only [CompileM.yields_bind] at hroot
    obtain ⟨_, _, hl, -⟩ := hroot
    have hsound := CompileM.lowerElement_isSound hl fun h => CompileM.lowerNodes_isSound h
    simpa only [Template.elements, Template.root?, hbody, List.head?_cons, Option.map_some,
      Option.getD_some] using hsound
  · exact absurd hroot CompileM.yields_reject

/-- The names that a module lists are those that its markup has. -/
theorem mem_usedNames_iff (h : (compile env t).1 = .ok compiled) {name : String} :
    name ∈ compiled.module.usedNames ↔ name ∈ t.usedNames env.config := by
  obtain ⟨c, code, c', hroot, hbound, hempty, hused⟩ := exists_lowerRoot_of_ok h
  rw [hused, CompileM.lowerRoot_records hroot hbound, foldl_record, hempty]
  simp [unbound]

end TemplateCompiler
