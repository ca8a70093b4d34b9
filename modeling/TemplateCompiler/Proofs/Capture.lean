import TemplateCompiler.Proofs.Hoisting
import TemplateCompiler.Proofs.Scoping

/-!
# What captures a name

A function made for a repeating element binds what the element repeats for, and nothing else. A name
of the template means the binder that the markup gives it, unless it stands in an else that has been
put into the function of the element with the if (`binder_of_bare_name`). A name of the module's own
is captured exactly where the author has chosen the same one (`captured_iff`).
-/

namespace TemplateCompiler

variable {env : Env} {t : Template} {compiled : Compiled}

/-! ## Names of the template -/

/-- The function nearest to a bare name that binds it is made for the element that the markup means,
except in an else of the element it is made for. -/
theorem binder_of_bare_name (h : (compile env t).1 = .ok compiled) {m : Mention}
    (hm : m ∈ compiled.module.function.bodyMentions) {s : Site} (hs : m.site = some s) :
    ∃ b meant, nearest m.binders m.name = some b ∧
      t.binder? env.config s m.name = some meant ∧
      (b = meant ↔ ¬ t.InElseOf env.config b.place s) := by
  obtain ⟨K, sibling, ds, n, hc⟩ := compiles_of_ok h
  obtain ⟨b, meant, hn, hmeant, hor⟩ := (hc.fits_of_mem hm).template s hs
  refine ⟨b, meant, by simpa using hn, hmeant, ?_⟩
  constructor
  · rintro rfl hin
    exact hin.binder?_ne rfl m.name hmeant
  · intro hout
    exact (hor.resolve_right hout).symm

/-- An if and an else that repeat under one element, which binds a name that the if binds again. -/
def shadowingTemplate : Template :=
  .ofRoot [.plain "ul" [.text "repeat" "for" "x in xs"]
    [.plain "li" [.text "repeat" "for" "x in ys", .text "set" "if" "c"] [],
      .plain "p" [.bare "set" "else"] [.name "x"]]]

/-- The x of the else, inside of the function that is made for the if. -/
theorem exists_shadowed :
    ∃ compiled, (compile .default shadowingTemplate).1 = .ok compiled ∧
      ⟨[⟨⟨[0, 0], ["x"]⟩, [], []⟩, ⟨⟨[0], ["x"]⟩, [], []⟩], [], "x", some ⟨[0, 1], false⟩⟩ ∈
        compiled.module.function.bodyMentions := by
  have hfind : (compile .default shadowingTemplate).1.toOption.map (fun c =>
      c.module.function.bodyMentions.find? fun m => m.site.isSome) =
      some (some ⟨[⟨⟨[0, 0], ["x"]⟩, [], []⟩, ⟨⟨[0], ["x"]⟩, [], []⟩], [], "x",
        some ⟨[0, 1], false⟩⟩) := by
    decide +kernel
  obtain ⟨compiled, hc, hm⟩ := exists_ok_of_map hfind
  exact ⟨compiled, hc, List.mem_of_find?_eq_some hm⟩

theorem binder_of_bare_name_shadowing :
    ∃ compiled, (compile .default shadowingTemplate).1 = .ok compiled ∧
      ∃ m ∈ compiled.module.function.bodyMentions, ∃ s, m.site = some s ∧
        ∃ b meant, nearest m.binders m.name = some b ∧
          shadowingTemplate.binder? {} s m.name = some meant ∧
          (b = meant ↔ ¬ shadowingTemplate.InElseOf {} b.place s) := by
  obtain ⟨compiled, hc, hm⟩ := exists_shadowed
  exact ⟨compiled, hc, _, hm, _, rfl, binder_of_bare_name hc hm rfl⟩

theorem shadowing_captures :
    ∃ compiled, (compile .default shadowingTemplate).1 = .ok compiled ∧
      ∃ m ∈ compiled.module.function.bodyMentions, ∃ s, m.site = some s ∧
        nearest m.binders m.name = some ⟨[0, 0], ["x"]⟩ ∧
        shadowingTemplate.binder? {} s m.name = some ⟨[0], ["x"]⟩ := by
  obtain ⟨compiled, hc, hm⟩ := exists_shadowed
  exact ⟨compiled, hc, _, hm, _, rfl, by decide +kernel, by decide +kernel⟩

/-! ## Names of the module's own -/

/-- The names a function reads or binds that are not of the template, from inside of it. -/
def Function.ownMentions (f : Function) : List Mention :=
  (f.bodyMentions.filter fun m => m.site.isNone) ++ f.bodyHoistings

/-- A function around a mention has a parameter of its name. -/
def Mention.IsCaptured (m : Mention) : Prop :=
  ∃ b ∈ m.binders, m.name ∈ b.parameters

/-- The names a module makes up: temporaries, loop functions and aliases. -/
def Module.Generates (M : Module) (name : String) : Prop :=
  name ∈ M.function.hoistings.map Mention.name ∨ ∃ i ∈ M.imports, i.localName = name

theorem Compiles.generates_or_reserved {K : Context} {sibling : Sibling} {ds : List Declaration}
    {n : Numbering} (h : Compiles env t compiled K sibling ds n) {m : Mention}
    (hm : m ∈ compiled.module.function.ownMentions) :
    compiled.module.Generates m.name ∨ m.name ∈ env.config.reserved := by
  rcases List.mem_append.1 hm with hm | hm
  · obtain ⟨hm, hsite⟩ := List.mem_filter.1 hm
    rcases (h.fits_of_mem hm).own (by simpa using hsite) with
      (hgiven | ⟨hhelper, -⟩ | ⟨path, hpath, halias⟩) | hvisible
    · refine .inr ?_
      simp only [Config.reserved, List.mem_cons, List.not_mem_nil, or_false] at hgiven ⊢
      tauto
    · exact .inr (by simp [Config.reserved, hhelper])
    · rw [← h.paths] at hpath
      obtain ⟨i, hi, rfl⟩ := List.mem_map.1 hpath
      exact .inl (.inr ⟨i, hi, by simpa [h.imports i hi] using halias⟩)
    · refine .inl (.inl ?_)
      rw [Function.map_name_hoistings]
      exact Function.mem_boundNames hm hvisible
  · refine .inl (.inl ?_)
    rw [Function.map_name_hoistings]
    exact List.mem_map_of_mem hm

/-- A name of the module's own is captured by the functions whose elements repeat for it; no name is
but one that the module makes up. -/
theorem captured_iff (h : (compile env t).1 = .ok compiled) {m : Mention}
    (hm : m ∈ compiled.module.function.ownMentions) :
    m.IsCaptured ↔ compiled.module.Generates m.name ∧
      ∃ b ∈ m.binders, m.name ∈ (t.binderAt env.config b.place).parameters := by
  obtain ⟨K, sibling, ds, n, hc⟩ := compiles_of_ok h
  have hauthored : ∀ b ∈ m.binders, b = t.binderAt env.config b.place := by
    rcases List.mem_append.1 hm with hm | hm
    · exact (hc.fits_of_mem (List.mem_of_mem_filter hm)).authored
    · exact hc.authored_of_mem hm
  constructor
  · rintro ⟨b, hb, hname⟩
    rw [hauthored b hb] at hname
    have hreserved := t.notMem_reserved hname
    exact ⟨(hc.generates_or_reserved hm).resolve_right hreserved, b, hb, hname⟩
  · rintro ⟨-, b, hb, hname⟩
    exact ⟨b, hb, by rwa [← hauthored b hb] at hname⟩

/-- An iteration of a component for the alias that the component is imported under. -/
def aliasTemplate : Template :=
  .ofRoot [.plain "x-foo" [.text "repeat" "for" "_x_foo in xs"] []]

/-- The component in the function of its own iteration. -/
theorem exists_aliased :
    ∃ compiled, (compile .default aliasTemplate).1 = .ok compiled ∧
      compiled.module.imports = [⟨"x.foo", "_x_foo"⟩] ∧
      ⟨[⟨⟨[0], ["_x_foo"]⟩, [], []⟩], [], "_x_foo", none⟩ ∈
        compiled.module.function.ownMentions := by
  have hfind : (compile .default aliasTemplate).1.toOption.map (fun c =>
      (c.module.imports, c.module.function.ownMentions.find? fun m => m.name = "_x_foo")) =
      some ([⟨"x.foo", "_x_foo"⟩], some ⟨[⟨⟨[0], ["_x_foo"]⟩, [], []⟩], [], "_x_foo", none⟩) := by
    decide +kernel
  obtain ⟨compiled, hc, hm⟩ := exists_ok_of_map hfind
  rw [Prod.mk.injEq] at hm
  exact ⟨compiled, hc, hm.1, List.mem_of_find?_eq_some hm.2⟩

theorem captured_iff_alias :
    ∃ compiled, (compile .default aliasTemplate).1 = .ok compiled ∧
      ∃ m ∈ compiled.module.function.ownMentions, m.name = "_x_foo" ∧
        (m.IsCaptured ↔ compiled.module.Generates m.name ∧
          ∃ b ∈ m.binders, m.name ∈ (aliasTemplate.binderAt {} b.place).parameters) := by
  obtain ⟨compiled, hc, -, hm⟩ := exists_aliased
  exact ⟨compiled, hc, _, hm, rfl, captured_iff hc hm⟩

theorem alias_is_captured :
    ∃ compiled, (compile .default aliasTemplate).1 = .ok compiled ∧
      ∃ m ∈ compiled.module.function.ownMentions,
        (∃ i ∈ compiled.module.imports, i.localName = m.name) ∧ m.IsCaptured := by
  obtain ⟨compiled, hc, himports, hm⟩ := exists_aliased
  refine ⟨compiled, hc, _, hm, ?_, ⟨[0], ["_x_foo"]⟩, ?_, ?_⟩
  · rw [himports]
    exact ⟨_, List.mem_cons_self, rfl⟩
  · decide
  · decide

end TemplateCompiler
