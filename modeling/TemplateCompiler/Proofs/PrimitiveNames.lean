import TemplateCompiler.Proofs.Inert

/-!
# The names of the primitives are inert

Under other names for the primitives a template fails as it does under their default names, or it
has the same module, save that each call of a primitive calls it by its configured name
(`compile_primitives`). The callees that this renames are found by the look of them: nothing that is
taken over from a template looks like one.
-/

namespace TemplateCompiler

/-- The configured name of a primitive with a default name. -/
def Primitives.configured (p : Primitives) (name : String) : String :=
  if name = "h" then p.element
  else if name = "c" then p.customElement
  else if name = "v" then p.virtualElement
  else if name = "t" then p.text
  else if name = "i" then p.iterator
  else if name = "f" then p.flatten
  else if name = "e" then p.empty
  else name

/-- From the default names of the primitives to configured ones. -/
def Primitives.fromStandard (p : Primitives) : Renaming :=
  ⟨({} : Config).apiParam, p.configured⟩

theorem Primitives.fromStandard_between (p : Primitives) :
    p.fromStandard.Between {} { primitives := p } := by
  constructor
  case interface => rfl
  case slots | memo => decide
  case same => rfl
  all_goals simp [fromStandard, configured]

/-- A callee that looks like a member of the interface is a primitive that the module calls. -/
theorem Config.Calls.eq_primitive {config : Config} {callee value : Code} {span : Option Span}
    {field : String} (h : config.Calls callee) (hcallee : callee = .member span value field)
    (hvalue : value.isNamed config.apiParam) (hslots : config.slotsetParam ≠ config.apiParam)
    (hmemo : config.contextParam ≠ config.apiParam) :
    field ∈ config.primitives.names ∧ callee = config.primitive field := by
  cases h with
  | primitive named =>
    obtain ⟨-, -, rfl⟩ := Code.member.inj hcallee
    exact ⟨named, rfl⟩
  | slot =>
    obtain ⟨-, rfl, -⟩ := Code.member.inj hcallee
    exact absurd (beq_iff_eq.1 hvalue) hslots
  | lookup | store =>
    obtain ⟨-, rfl, -⟩ := Code.member.inj hcallee
    exact absurd (beq_iff_eq.1 hvalue) hmemo
  | bindHelper => exact nomatch hcallee

/-- Under any names for the primitives a template fails as under the default ones, or its module is
the one under the default names with the primitives renamed where they are called. A callee that is
a member of the interface is one of these primitives, whatever names the template has. -/
theorem compile_primitives (env : Env) (p : Primitives) (t : Template) :
    compile (env.withConfig { primitives := p }) t =
      ((compile (env.withConfig {}) t).1.map (Compiled.rename p.fromStandard),
        (compile (env.withConfig {}) t).2) ∧
    ∀ compiled, (compile (env.withConfig {}) t).1 = .ok compiled →
      ∀ span value field arguments,
        .call (.member span value field) arguments ∈ compiled.module.function.subterms →
        value.isNamed ({} : Config).apiParam →
        field ∈ ({} : Primitives).names ∧
          Code.member span value field = ({} : Config).primitive field := by
  have hbetween : p.fromStandard.Between (env.withConfig {}).config { primitives := p } :=
    p.fromStandard_between
  refine ⟨compile_rename _ hbetween t, fun compiled h span value field arguments hcall hvalue => ?_⟩
  have hself : Expr.selfName ∉ ({} : Config).reserved := by decide
  obtain ⟨K, sibling, ds, n, hc⟩ := compiles_of_ok h
  have hcalls := (hc.licit (hc.sparesSelf hself) _ hcall).calls _ _ rfl
  have hparams : ({} : Config).slotsetParam ≠ ({} : Config).apiParam ∧
      ({} : Config).contextParam ≠ ({} : Config).apiParam := by decide
  exact hcalls.eq_primitive rfl hvalue hparams.1 hparams.2

end TemplateCompiler
