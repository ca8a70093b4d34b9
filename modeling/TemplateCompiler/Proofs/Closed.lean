import TemplateCompiler.Proofs.Capture

/-!
# Modules are closed

Every name a module reads is a parameter or an earlier statement's of a function around it, or is
imported, and no two statements bind the same name. When it is rendered, a name is looked for in the
innermost function that has it as a parameter or binds it anywhere in its body. So a name can still
be missing: it is if its function binds the same name only later, and what is meant is outside of
that function (`closed_unless_hidden`).
-/

namespace TemplateCompiler

/-- A mention's name is bound around it, by its spelling. -/
def Module.Lists (M : Module) (m : Mention) : Prop :=
  (∃ layer ∈ m.within, m.name ∈ layer.parameters ∨ m.name ∈ layer.earlier) ∨
    (∃ i ∈ M.imports, i.localName = m.name) ∨ M.bindHelper = some m.name

/-- Whether a name in a function is the function's own. -/
def Layer.isLocal (layer : Layer) (name : String) : Bool :=
  layer.parameters.contains name || layer.hoisted.contains name

/-- The function whose own name a mention reads. -/
def Mention.holder? (m : Mention) : Option Layer :=
  m.within.find? fun layer => layer.isLocal m.name

/-- A mention finds its name bound when it is evaluated. -/
def Module.Resolves (M : Module) (m : Mention) : Prop :=
  match m.holder? with
  | some layer => m.name ∈ layer.parameters ∨ m.name ∈ layer.earlier
  | none => (∃ i ∈ M.imports, i.localName = m.name) ∨ M.bindHelper = some m.name

/-- A name that is configured, or that an element repeats for, is read in a function inside of what
binds it, and the function binds the same name after that. -/
def Template.Hides (config : Config) (t : Template) (m : Mention) : Prop :=
  ∃ inner layer outer, m.within = inner ++ layer :: outer ∧
    (∀ l ∈ inner, l.isLocal m.name = false) ∧
    m.name ∈ layer.hoisted ∧ m.name ∉ layer.earlier ∧ m.name ∉ layer.parameters ∧
    (m.name ∈ config.reserved ∨ ∃ l ∈ outer, m.name ∈ (t.binderAt config l.place).parameters)

theorem Layer.isLocal_iff {layer : Layer} {name : String} :
    layer.isLocal name ↔ name ∈ layer.parameters ∨ name ∈ layer.hoisted := by
  simp [Layer.isLocal]

variable {env : Env} {t : Template} {compiled : Compiled} {K : Context} {sibling : Sibling}
  {ds : List Declaration} {n : Numbering}

namespace Compiles

theorem count_boundNames_le (h : Compiles env t compiled K sibling ds n) (x : String) :
    (boundNames compiled.module.function.declarations).count x ≤ n.issued.count x := by
  obtain ⟨pos, attributes, children, -, hl⟩ := h.root
  have := hl.count_le fun h => LowersNodes.count_le (x := x) h
  rw [h.function, CompileM.renderFunction]
  dsimp only
  omega

theorem nodup_boundNames (h : Compiles env t compiled K sibling ds n) :
    (boundNames compiled.module.function.declarations).Nodup := by
  rw [List.nodup_iff_count_le_one]
  intro x
  exact (h.count_boundNames_le x).trans (List.nodup_iff_count_le_one.1 n.nodup_issued x)

theorem isNumbered_of_mem_boundNames (h : Compiles env t compiled K sibling ds n) {x : String}
    (hx : x ∈ boundNames compiled.module.function.declarations) : Component.isNumbered x := by
  have hle := h.count_boundNames_le x
  have hpos : 0 < n.issued.count x := (List.count_pos_iff.2 hx).trans_le hle
  exact Numbering.isNumbered_of_mem_issued (List.count_pos_iff.1 hpos)

theorem not_isNumbered_localName (h : Compiles env t compiled K sibling ds n) {i : Import}
    (hi : i ∈ compiled.module.imports) : ¬ Component.isNumbered i.localName := by
  have hmem : i.localName ∈ K.aliases.map Prod.snd := by
    have hlookup := h.imports i hi
    rw [List.lookup_eq_some_iff] at hlookup
    obtain ⟨before, after, heq, -⟩ := hlookup
    simp [heq]
  exact (h.apart.free _ hmem).1

/-- What the outermost layer of a mention adds to it. -/
theorem exists_bodyMention (h : Compiles env t compiled K sibling ds n) {m : Mention}
    (hm : m ∈ compiled.module.function.mentions) :
    ∃ m' ∈ compiled.module.function.bodyMentions, ∃ layer : Layer, m.name = m'.name ∧
      m.within = m'.within ++ [layer] ∧ layer.earlier = m'.earlier ∧
      layer.parameters = [env.config.apiParam, env.config.instanceParam, env.config.slotsetParam,
        env.config.contextParam] := by
  rw [Function.mentions_eq] at hm
  obtain ⟨m', hm', rfl⟩ := List.mem_map.1 hm
  exact ⟨m', hm', _, rfl, rfl, rfl, by rw [h.function]; rfl⟩

theorem lists (h : Compiles env t compiled K sibling ds n) {m : Mention}
    (hm : m ∈ compiled.module.function.mentions) : compiled.module.Lists m := by
  obtain ⟨m', hm', last, hname, hwithin, hearlier, hparameters⟩ := h.exists_bodyMention hm
  have hlast : last ∈ m.within := by simp [hwithin]
  have hinner : ∀ layer ∈ m'.within, layer ∈ m.within := fun layer hl => by simp [hwithin, hl]
  have hfits := h.fits_of_mem hm'
  unfold Module.Lists
  rw [hname]
  rcases hs : m'.site with _ | s
  · rcases hfits.own hs with (hgiven | ⟨hhelper, hbinds⟩ | ⟨path, hpath, halias⟩) | hvisible
    · exact .inl ⟨last, hlast, .inl (hparameters ▸ hgiven)⟩
    · exact .inr (.inr (by rw [h.helper, if_pos hbinds, hhelper]))
    · rw [← h.paths] at hpath
      obtain ⟨i, hi, rfl⟩ := List.mem_map.1 hpath
      exact .inr (.inl ⟨i, hi, by simpa [h.imports i hi] using halias⟩)
    · rcases hvisible with he | ⟨layer, hl, he⟩
      · exact .inl ⟨last, hlast, .inr (hearlier ▸ he)⟩
      · exact .inl ⟨layer, hinner layer hl, .inr he⟩
  · obtain ⟨b, meant, hn, -, -⟩ := hfits.template s hs
    rw [List.append_nil] at hn
    obtain ⟨layer, hl, rfl⟩ := List.mem_map.1 (List.mem_of_find?_eq_some hn)
    exact .inl ⟨layer, hinner layer hl, .inl (by simpa using List.find?_some hn)⟩

/-- No two of the functions around a mention hoist the same name. -/
theorem hoisted_once (h : Compiles env t compiled K sibling ds n) {m : Mention}
    (hm : m ∈ compiled.module.function.mentions) {inner outer : List Layer} {layer : Layer}
    (hwithin : m.within = inner ++ layer :: outer) {x : String} (hx : x ∈ layer.hoisted) :
    ∀ l ∈ outer, x ∉ l.hoisted := by
  intro l hl hx'
  have hle := (Function.mentions_among _ m hm).count_le x
  have hone := List.nodup_iff_count_le_one.1 h.nodup_boundNames x
  have hlayer := List.count_pos_iff.2 hx
  have houter := List.count_pos_iff.2 (List.mem_flatMap.2 ⟨l, hl, hx'⟩)
  rw [hwithin, List.flatMap_append, List.flatMap_cons, List.count_append, List.count_append] at hle
  omega

/-- Where a name is missing, something outside of the function that hides it binds it. -/
theorem hides (h : Compiles env t compiled K sibling ds n) {m : Mention}
    (hm : m ∈ compiled.module.function.mentions) (hmissing : ¬ compiled.module.Resolves m) :
    t.Hides env.config m := by
  have hearlier := (Function.mentions_among _ m hm).earlier
  have hlists := h.lists hm
  unfold Module.Resolves at hmissing
  rcases hholder : m.holder? with _ | layer
  · rw [hholder] at hmissing
    rcases hlists with ⟨layer, hl, hbound⟩ | hglobal
    · have hlocal : layer.isLocal m.name :=
        Layer.isLocal_iff.2 (hbound.imp_right (@hearlier layer hl _))
      exact absurd hlocal (List.find?_eq_none.1 hholder layer hl)
    · exact absurd hglobal hmissing
  · rw [hholder] at hmissing
    push Not at hmissing
    obtain ⟨hparameters, hlater⟩ := hmissing
    obtain ⟨hlocal, inner, outer, hwithin, hinner⟩ := List.find?_eq_some_iff_append.1 hholder
    have hhoisted : m.name ∈ layer.hoisted :=
      (Layer.isLocal_iff.1 hlocal).resolve_left hparameters
    have hnotinner : ∀ l ∈ inner, l.isLocal m.name = false := by simpa using hinner
    refine ⟨inner, layer, outer, hwithin, hnotinner, hhoisted, hlater, hparameters, ?_⟩
    -- what binds the name is no function inside, no other that hoists it, and no component
    have hbound := Function.mem_boundNames_of_hoisted hm (by simp [hwithin]) hhoisted
    have hfar : ∀ l ∈ m.within, l.isLocal m.name → l = layer ∨ l ∈ outer := by
      intro l hl hl'
      rw [hwithin, List.mem_append, List.mem_cons] at hl
      refine hl.resolve_left fun hin => ?_
      simp [hnotinner l hin] at hl'
    rcases hlists with ⟨l, hl, hp | he⟩ | ⟨i, hi, hi'⟩ | hhelper
    · rcases hfar l hl (Layer.isLocal_iff.2 (.inl hp)) with rfl | hout
      · exact absurd hp hparameters
      · obtain ⟨m', hm', last, -, hwithin', -, hlast⟩ := h.exists_bodyMention hm
        rw [hwithin', List.mem_append, List.mem_singleton] at hl
        rcases hl with hl | rfl
        · have hb := (h.fits_of_mem hm').authored l.toBinder (List.mem_map_of_mem hl)
          refine .inr ⟨l, hout, ?_⟩
          rwa [← hb]
        · refine .inl ?_
          rw [hlast] at hp
          simp only [Config.reserved, List.mem_cons, List.not_mem_nil, or_false] at hp ⊢
          tauto
    · rcases hfar l hl (Layer.isLocal_iff.2 (.inr (hearlier l hl he))) with rfl | hout
      · exact absurd he hlater
      · exact absurd (hearlier l hl he) (h.hoisted_once hm hwithin hhoisted l hout)
    · refine absurd (h.isNumbered_of_mem_boundNames hbound) ?_
      rw [← hi']
      exact h.not_isNumbered_localName hi
    · refine .inl ?_
      rw [h.helper] at hhelper
      split at hhelper
      · simp [Config.reserved, ← Option.some.inj hhelper]
      · simp at hhelper

end Compiles

theorem closed_unless_hidden (h : (compile env t).1 = .ok compiled) :
    (∀ m ∈ compiled.module.function.mentions, compiled.module.Lists m) ∧
    (compiled.module.function.hoistings.map Mention.name).Nodup ∧
    ∀ m ∈ compiled.module.function.mentions,
      compiled.module.Resolves m ↔ ¬ t.Hides env.config m := by
  obtain ⟨K, sibling, ds, n, hc⟩ := compiles_of_ok h
  refine ⟨fun m hm => hc.lists hm, ?_, fun m hm => ⟨?_, ?_⟩⟩
  · rw [Function.map_name_hoistings]
    exact hc.nodup_boundNames
  · rintro hr ⟨inner, layer, outer, hwithin, hinner, hhoisted, hlater, hparameters, -⟩
    have hholder : m.holder? = some layer := by
      refine List.find?_eq_some_iff_append.2 ⟨Layer.isLocal_iff.2 (.inr hhoisted), inner, outer,
        hwithin, ?_⟩
      simpa using hinner
    rw [Module.Resolves, hholder] at hr
    exact hr.elim hparameters hlater
  · intro hh
    by_contra hr
    exact hh (hc.hides hm hr)

/-- A temporary inside a loop function that is inside an iteration for the temporary's name. -/
def hiddenTemplate : Template :=
  .ofRoot [.plain "ul" [.text "repeat" "for" "_expr0 in xs"]
    [.plain "li" [.text "repeat" "for" "y in ys"]
      [.plain "template" [.text "set" "if" "_expr0"] [.plain "b" [] []]]]]

theorem closed_unless_hidden_loop :
    ∃ compiled, (compile .default hiddenTemplate).1 = .ok compiled ∧
      compiled.module.function.hoistings.map Mention.name = ["_loop1", "_loop0", "_expr0"] ∧
      (∀ m ∈ compiled.module.function.mentions, compiled.module.Lists m) ∧
      (compiled.module.function.hoistings.map Mention.name).Nodup ∧
      ∀ m ∈ compiled.module.function.mentions,
        compiled.module.Resolves m ↔ ¬ hiddenTemplate.Hides {} m := by
  have hnames : (compile .default hiddenTemplate).1.toOption.map (fun c =>
      c.module.function.hoistings.map Mention.name) = some ["_loop1", "_loop0", "_expr0"] := by
    decide +kernel
  obtain ⟨compiled, hc, hn⟩ := exists_ok_of_map hnames
  exact ⟨compiled, hc, hn, closed_unless_hidden hc⟩

theorem hidden_name_is_missing :
    ∃ compiled, (compile .default hiddenTemplate).1 = .ok compiled ∧
      ∃ m ∈ compiled.module.function.mentions,
        m.name = "_expr0" ∧ ¬ compiled.module.Resolves m := by
  have hfind : (compile .default hiddenTemplate).1.toOption.map (fun c =>
      c.module.function.mentions.find? fun m => m.site.isSome) =
      some (some ⟨[⟨⟨[0, 0], ["y"]⟩, [], ["_expr0"]⟩, ⟨⟨[0], ["_expr0"]⟩, [], ["_loop0"]⟩,
        ⟨⟨[], ["api", "cmp", "slotset", "ctx"]⟩, [], ["_loop1"]⟩], [], "_expr0",
        some ⟨[0, 0, 0], false⟩⟩) := by
    decide +kernel
  obtain ⟨compiled, hc, hm⟩ := exists_ok_of_map hfind
  refine ⟨compiled, hc, _, List.mem_of_find?_eq_some hm, rfl, ?_⟩
  have hholder : ∀ m : Mention, m.holder? = some ⟨⟨[0, 0], ["y"]⟩, [], ["_expr0"]⟩ →
      m.name = "_expr0" → ¬ compiled.module.Resolves m := by
    intro m hh hname
    simp [Module.Resolves, hh, hname]
  exact hholder _ (by decide) rfl

end TemplateCompiler
