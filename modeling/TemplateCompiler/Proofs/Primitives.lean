import TemplateCompiler.Proofs.Renaming
import TemplateCompiler.Proofs.Simulation

/-!
# The names of the primitives are inert

Two compilations of a template that differ in the names of the primitives fail alike or end with the
same module under other names (`compile_rename`).
-/

namespace TemplateCompiler

variable (r : Renaming)

/-- A renaming that takes the primitives of one configuration to those of another, which differ in
nothing else. -/
structure Renaming.Between (config config' : Config) : Prop where
  interface : r.interface = config.apiParam
  slots : config.slotsetParam ≠ config.apiParam
  memo : config.contextParam ≠ config.apiParam
  same : config' = { config with primitives := config'.primitives }
  element : r.primitive config.primitives.element = config'.primitives.element
  customElement : r.primitive config.primitives.customElement = config'.primitives.customElement
  virtualElement : r.primitive config.primitives.virtualElement = config'.primitives.virtualElement
  text : r.primitive config.primitives.text = config'.primitives.text
  iterator : r.primitive config.primitives.iterator = config'.primitives.iterator
  flatten : r.primitive config.primitives.flatten = config'.primitives.flatten
  empty : r.primitive config.primitives.empty = config'.primitives.empty

def Compiled.rename (compiled : Compiled) : Compiled :=
  { compiled with module := compiled.module.rename r }

variable {r} {config config' : Config}

/-- Only the members of the interface's parameter are called under other names. -/
theorem Renaming.keeps {parameter : String} (h : parameter ≠ r.interface) :
    r.recoding.Keeps parameter := by
  intro field arguments
  change Code.rename r _ = _
  rw [Code.rename, Code.renameList_eq_map]
  simp [Code.refMember, Code.rename, Code.renameCallee, h, recoding]

namespace Renaming.Between

theorem carries (h : r.Between config config') {name name' : String}
    (hname : r.primitive name = name') : r.recoding.Carries config config' name name' := by
  intro arguments
  have hparam : config'.apiParam = config.apiParam := by rw [h.same]
  change Code.rename r _ = _
  simp [Config.callPrimitive, Config.primitive, Code.refMember, Code.rename, Code.renameCallee,
    h.interface, hparam, hname, Code.renameList_eq_map, recoding]

theorem recodes (h : r.Between config config') : r.recoding.Between config config' where
  same := h.same
  slots := Renaming.keeps (h.interface ▸ h.slots)
  memo := Renaming.keeps (h.interface ▸ h.memo)
  element := h.carries h.element
  customElement := h.carries h.customElement
  virtualElement := h.carries h.virtualElement
  text := h.carries h.text
  iterator := h.carries h.iterator
  flatten := h.carries h.flatten
  empty := h.carries h.empty

end Renaming.Between

variable (r)

/-- Compilations under names that a renaming takes to one another fail alike, or end with modules
that it takes to one another. -/
theorem compile_rename {env : Env} {config' : Config} (h : r.Between env.config config')
    (t : Template) : compile (env.withConfig config') t =
      ((compile env t).1.map (Compiled.rename r), (compile env t).2) := by
  have hcompiled : Compiled.mapCode r.recoding.code = Compiled.rename r := by
    funext compiled
    rw [Compiled.rename, Module.rename_eq_mapCode]
    rfl
  have hrecode := compile_recode h.recodes t
  rwa [show t.mapExpr r.recoding.expr = t from t.mapExpr_id, hcompiled] at hrecode

end TemplateCompiler
