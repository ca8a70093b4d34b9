import TemplateCompiler.Proofs.Attributes

/-!
# Nodes follow the relation

A step of the compilation that succeeds queues declarations and takes numbers as the relation says
it does, for every context that knows what the step leaves known.
-/

namespace TemplateCompiler

namespace CompileM

variable {env : Env} {c c' : Context} {binders : List Binder}

/-! ## Iterations -/

/-- The frames once an element's iteration is open. -/
def opened (loop : Option Loop) (frames : List Frame) : List Frame :=
  match loop with
  | none => frames
  | some loop => .inside frames loop.parameters :: frames

theorem isBound_opened (loop : Option Loop) (frames : List Frame)
    (h : Scope.isBound ⟨frames⟩ = binds binders) :
    Scope.isBound ⟨opened loop frames⟩ = binds (inside loop binders) := by
  funext name
  have hname := congrFun h name
  cases loop with
  | none => exact hname
  | some loop =>
    simp only [Scope.isBound, binds, opened, Frame.boundIn, Frame.inside, inside, Option.map_some,
      Option.toList_some, List.singleton_append, List.any_cons, List.contains_append] at hname ⊢
    rw [hname]
    rfl

theorem openLoop_yields {place : Place} {pos : Position} {readings : List Reading}
    {loop : Option Loop} (h : Yields (openLoop env place pos readings) c loop c')
    (hbound : c.scope.isBound = binds binders) :
    OpensLoop env.config binders place readings loop ∧
      c'.scope.frames = opened loop c.scope.frames ∧ c'.numbering = c.numbering ∧
      Grows env c c' := by
  simp only [openLoop] at h
  split at h
  · simp at h
  · rename_i hi
    obtain ⟨rfl, rfl⟩ := yields_pure.1 h
    exact ⟨.once hi, rfl, rfl, .refl env c⟩
  · rename_i content hi
    simp only [yields_bind] at h
    obtain ⟨iterable, c₁, hr, h⟩ := h
    obtain ⟨⟨term, hterm, rfl⟩, hk⟩ := resolve_yields hr
    split at h
    · simp at h
    · rename_i parameters hp
      simp only [yields_bind, yields_pure] at h
      obtain ⟨_, _, ho, rfl, rfl⟩ := h
      obtain ⟨hf, hn, hg⟩ := openScope_yields env ho
      refine ⟨?_, by rw [hf, hk.scope]; rfl, hn.trans hk.numbering, hk.grows.trans hg⟩
      rw [hbound]
      exact .repeated hi hterm hp

theorem iterate_yields {loop : Loop} {ds : List Declaration} {body code : Code} {flatten : Bool}
    (h : Yields (iterate env loop ds body flatten) c code c') :
    ∃ outer, Adds env c c' outer ∧
      Iterates env.config loop body flatten ds code outer c.numbering c'.numbering := by
  unfold iterate at h
  rcases ds with _ | ⟨d, ds⟩
  · simp only [List.isEmpty_nil, if_true, yields_bind, yields_pure] at h
    obtain ⟨_, _, ⟨rfl, rfl⟩, rfl, rfl⟩ := h
    exact ⟨[], (Keeps.refl env c).adds, .inline⟩
  · simp only [List.isEmpty_cons, Bool.false_eq_true, if_false, yields_bind, yields_pure] at h
    obtain ⟨name, c₁, hu, _, c₂, hq, _, _, ⟨rfl, rfl⟩, rfl, rfl⟩ := h
    obtain ⟨rfl, hn, ha⟩ := loop_yields env hu
    obtain ⟨ha', hn'⟩ := queue_yields env hq
    refine ⟨_, ha.trans ha', ?_⟩
    rw [hn', hn]
    exact .declared (by simp)

/-! ## Siblings -/

theorem finishSibling_yields {s : Sibling} {alternative : Option Item} {item : Item}
    (h : Yields (finishSibling env s alternative) c item c') :
    ∃ ds, Adds env c c' ds ∧
      FinishesSibling env.config s alternative item ds c.numbering c'.numbering := by
  unfold finishSibling at h
  split at h
  · rename_i hform
    obtain ⟨rfl, rfl⟩ := yields_pure.1 h
    exact ⟨[], (Keeps.refl env c).adds, .fixed hform⟩
  · rename_i items hform
    obtain ⟨rfl, rfl⟩ := yields_pure.1 h
    exact ⟨[], (Keeps.refl env c).adds, .spliced hform⟩
  · rename_i condition hform
    obtain ⟨rfl, rfl⟩ := yields_pure.1 h
    exact ⟨[], (Keeps.refl env c).adds, .guarded hform⟩
  · rename_i loop ds hform
    simp only [yields_bind, yields_pure] at h
    obtain ⟨code, _, hi, rfl, rfl⟩ := h
    obtain ⟨outer, ha, hi⟩ := iterate_yields hi
    exact ⟨outer, ha, .repeated hform hi⟩
  · rename_i loop ds condition hform
    simp only [yields_bind, yields_pure] at h
    obtain ⟨code, _, hi, rfl, rfl⟩ := h
    obtain ⟨outer, ha, hi⟩ := iterate_yields hi
    exact ⟨outer, ha, .filtered hform hi⟩

theorem finishBranches_yields :
    ∀ {siblings : List Sibling} {c c' : Context} {item : Option Item},
      Yields (finishBranches env siblings) c item c' → ∃ ds, Adds env c c' ds ∧
        FinishesBranches env.config siblings item ds c.numbering c'.numbering
  | [], c, _, item, h => by
    obtain ⟨rfl, rfl⟩ := yields_pure.1 h
    exact ⟨[], (Keeps.refl env c).adds, .nil⟩
  | s :: rest, c, _, item, h => by
    simp only [finishBranches, yields_bind, yields_map] at h
    obtain ⟨alternative, c₁, hrest, item, hs, rfl⟩ := h
    obtain ⟨ds, ha, hrest⟩ := finishBranches_yields hrest
    obtain ⟨ds', ha', hs⟩ := finishSibling_yields hs
    exact ⟨ds ++ ds', ha.trans ha', .cons hrest hs⟩

theorem finishChain_yields {chain : List Sibling} {items : List Item}
    (h : Yields (finishChain env chain) c items c') : ∃ ds, Adds env c c' ds ∧
      FinishesChain env.config chain items ds c.numbering c'.numbering := by
  rcases chain with _ | ⟨s, rest⟩
  · obtain ⟨rfl, rfl⟩ := yields_pure.1 h
    exact ⟨[], (Keeps.refl env c).adds, .nil⟩
  · unfold finishChain at h
    by_cases hs : s.isAlternative
    · simp [hs] at h
    · simp only [hs, Bool.false_eq_true, if_false] at h
      split at h
      · rename_i items hform
        obtain ⟨rfl, rfl⟩ := yields_pure.1 h
        exact ⟨[], (Keeps.refl env c).adds, .spliced (by simpa using hs) hform⟩
      · rename_i hform
        simp only [yields_bind, yields_pure] at h
        obtain ⟨item, _, hb, rfl, rfl⟩ := h
        obtain ⟨ds, ha, hb⟩ := finishBranches_yields hb
        cases hb with
        | cons hrest hhead =>
          exact ⟨_, ha, .branches (by simpa using hs) hform (.cons hrest hhead)⟩

theorem finishChains_yields :
    ∀ {chains : List (List Sibling)} {c c' : Context} {items : List Item},
      Yields (finishChains env chains) c items c' → ∃ ds, Adds env c c' ds ∧
        FinishesChains env.config chains items ds c.numbering c'.numbering
  | [], c, _, items, h => by
    obtain ⟨rfl, rfl⟩ := yields_pure.1 h
    exact ⟨[], (Keeps.refl env c).adds, .nil⟩
  | chain :: rest, c, _, items, h => by
    simp only [finishChains, yields_bind, yields_pure] at h
    obtain ⟨head, c₁, hh, more, c₂, ht, rfl, rfl⟩ := h
    obtain ⟨ds, ha, hh⟩ := finishChain_yields hh
    obtain ⟨ds', ha', ht⟩ := finishChains_yields ht
    exact ⟨ds ++ ds', ha.trans ha', .cons hh ht⟩

/-! ## Elements -/

theorem guardItems_yields {condition : Code} {items kept : List Item}
    (h : Yields (guardItems condition items) c kept c') : ∃ ds, Adds env c c' ds ∧
      GuardsItems (some condition) items kept ds c.numbering c'.numbering := by
  simp only [guardItems] at h
  rcases items with _ | ⟨item, items⟩
  · simp only [List.isEmpty_nil, if_true, yields_pure] at h
    obtain ⟨rfl, rfl⟩ := h
    exact ⟨[], (Keeps.refl env c).adds, .nothing⟩
  · simp only [List.isEmpty_cons, Bool.false_eq_true, if_false, yields_bind, yields_pure] at h
    obtain ⟨name, c₁, hu, _, c₂, hq, rfl, rfl⟩ := h
    obtain ⟨rfl, hn, ha⟩ := temporary_yields env hu
    obtain ⟨ha', hn'⟩ := queue_yields env hq
    refine ⟨_, ha.trans ha', ?_⟩
    rw [hn', hn]
    exact .guarded (by simp)

theorem importComponent_yields {pos : Position} {path : String} {code : Code}
    (h : Yields (importComponent env pos path) c code c') :
    Keeps env c c' ∧ ∀ K, Grows env c' K → ∃ localName, code = .ref localName ∧
      Imported K path localName := by
  unfold importComponent at h
  by_cases hp : Component.isImportable path
  · simp only [hp, Bool.not_true, Bool.false_eq_true, if_false, yields_bind, yields_pure,
      yields_get, yields_ite, yields_modify] at h
    obtain ⟨localName, c₁, ha, _, _, ⟨rfl, rfl⟩, h⟩ := h
    obtain ⟨hl, hk, -⟩ := componentAlias_yields ha
    have key : ∀ c₂, Keeps env c₁ c₂ → c₂.aliases = c₁.aliases →
        Keeps env c { c₂ with manifest := c₂.manifest.useComponent path } ∧
        ∀ K, Grows env { c₂ with manifest := c₂.manifest.useComponent path } K →
          ∃ localName', Code.ref localName = .ref localName' ∧ Imported K path localName' := by
      intro c₂ hk' haliases
      have hg : Grows env c₂ { c₂ with manifest := c₂.manifest.useComponent path } :=
        ⟨fun _ _ h => h, fun _ hx => mem_record.2 (.inl hx), id, fun h => ⟨h.nodup, h.free⟩⟩
      refine ⟨hk.trans (hk'.trans ⟨rfl, rfl, hg⟩), fun K hK => ⟨localName, rfl, ?_, ?_, hp⟩⟩
      · exact hK.aliases _ _ (haliases ▸ hl)
      · exact hK.components (mem_record.2 (.inr rfl))
    split at h
    · obtain ⟨_, c₂, hn, _, _, rfl, rfl, rfl⟩ := h
      simp only [note, yields_modify] at hn
      subst hn
      exact key _ ⟨rfl, rfl, .of_eq rfl rfl rfl⟩ rfl
    · obtain ⟨_, _, rfl, rfl, rfl⟩ := h
      exact key c₁ (.refl env c₁) rfl
  · simp [hp] at h

theorem elementCall_yields {pos : Position} {tag : Tag} {kind : ElementKind}
    {written : Option Content} {parts : List Part} {items : List Item} {code : Code}
    (h : Yields (elementCall env pos tag kind written parts items) c code c')
    (hkind : kind ≠ .template ∧ kind ≠ .outlet) :
    Keeps env c c' ∧ ∀ K, Grows env c' K →
      CallsElement env.config K tag written parts items kind code := by
  unfold elementCall at h
  cases kind with
  | virtual ns =>
    simp only [yields_bind, yields_pure] at h
    obtain ⟨_, _, hi, rfl, rfl⟩ := h
    obtain ⟨hk, hi⟩ := importComponent_yields hi
    refine ⟨hk, fun K hK => ?_⟩
    obtain ⟨localName, rfl, himported⟩ := hi K hK
    exact .virtual himported
  | dynamic =>
    simp only [yields_bind, yields_pure] at h
    obtain ⟨reference, _, hr, rfl, rfl⟩ := h
    unfold dynamicReference at hr
    split at hr
    · rename_i name hname
      obtain ⟨hk, hi⟩ := importComponent_yields hr
      refine ⟨hk, fun K hK => ?_⟩
      obtain ⟨localName, rfl, himported⟩ := hi K hK
      exact .named hname himported
    · rename_i hcode hname
      obtain ⟨rfl, rfl⟩ := yields_pure.1 hr
      exact ⟨.refl env c, fun _ _ => .computed hname rfl hcode⟩
    · simp at hr
  | custom =>
    simp only [yields_bind, yields_pure] at h
    obtain ⟨_, _, hi, rfl, rfl⟩ := h
    obtain ⟨hk, hi⟩ := importComponent_yields hi
    refine ⟨hk, fun K hK => ?_⟩
    obtain ⟨localName, rfl, himported⟩ := hi K hK
    exact .custom himported
  | plain =>
    obtain ⟨rfl, rfl⟩ := yields_pure.1 h
    exact ⟨.refl env c, fun _ _ => .plain⟩
  | template => exact absurd rfl hkind.1
  | outlet => exact absurd rfl hkind.2

theorem readElement_yields {pos : Position} {tag : Tag} {attributes : List Attribute}
    {readings : List Reading} {kind : ElementKind}
    (h : Yields (readElement env pos tag attributes) c (readings, kind) c') :
    Reading.ofAttributes env.config [] attributes = .ok readings ∧
      kind = elementKind tag readings ∧
      (kind = .outlet → readings.any Reading.isDirective = false) ∧ c' = c := by
  unfold readElement at h
  by_cases ht : tag.name.toList.contains '.'
  · simp only [ht, if_true, yields_bind] at h
    obtain ⟨_, _, h, -⟩ := h
    exact absurd h yields_reject
  · simp only [ht, Bool.false_eq_true, if_false] at h
    split at h
    · exact absurd h yields_reject
    · rename_i found hread
      simp only [yields_ite, yields_bind, yields_reject, yields_pure, Prod.mk.injEq] at h
      split at h
      · simp at h
      · rename_i hd
        obtain ⟨⟨rfl, rfl⟩, rfl⟩ := h
        refine ⟨hread, rfl, fun hk => ?_, rfl⟩
        simpa [hk] using hd

/-- An outlet does not repeat. -/
theorem loop_eq_none_of_outlet {config : Config} {place : Place} {readings : List Reading}
    {loop : Option Loop} (h : OpensLoop config binders place readings loop)
    (hd : readings.any Reading.isDirective = false) : loop = none := by
  have hparts : Reading.loopParts readings = [] := by
    simp only [Reading.loopParts, List.filterMap_eq_nil_iff]
    intro r hr
    have := List.any_eq_false.1 hd r hr
    cases r <;> simp_all [Reading.isDirective]
  cases h with
  | once => rfl
  | repeated hi _ _ => simp [hparts, LoopPart.iterable?] at hi

/-- An element's declarations are queued on its own frame if it repeats, and go with it. -/
theorem elementForm_yields {loop : Option Loop} {condition : Option Code} {form : Form}
    {frames : List Frame} {ds : List Declaration}
    (hf : c.scope.frames = queued (opened loop frames) ds)
    (h : Yields (elementForm loop condition) c form c') :
    ∃ outer, c'.scope.frames = queued frames outer ∧ c'.numbering = c.numbering ∧
      Grows env c c' ∧
      ((loop = none ∧ outer = ds ∧
          form = (condition.map Form.guarded).getD .fixed) ∨
        ∃ l, loop = some l ∧ outer = [] ∧ form = .repeated l ds condition) := by
  rcases loop with _ | loop
  · refine ⟨ds, ?_⟩
    rcases condition with _ | condition
    · obtain ⟨rfl, rfl⟩ := yields_pure.1 h
      exact ⟨hf, rfl, .refl env c, .inl ⟨rfl, rfl, rfl⟩⟩
    · obtain ⟨rfl, rfl⟩ := yields_pure.1 h
      exact ⟨hf, rfl, .refl env c, .inl ⟨rfl, rfl, rfl⟩⟩
  · simp only [elementForm, yields_bind, yields_pure] at h
    obtain ⟨found, _, hc, rfl, rfl⟩ := h
    obtain ⟨rfl, hf', hn, hg⟩ := closeScope_yields env hc hf
    exact ⟨[], by rw [hf', queued_nil], hn, hg, .inr ⟨loop, rfl, rfl, rfl⟩⟩

/-- The items are guarded first, and what is left is to do as if there were no condition. -/
theorem templateSibling_guarded {pos : Position} {slot : Option String} {isAlternative : Bool}
    {condition : Option Code} {loop : Option Loop} {items : List Item} {sibling : Sibling}
    (h : Yields (templateSibling env pos slot isAlternative condition loop items) c sibling c') :
    ∃ kept c₁ guards, Adds env c c₁ guards ∧
      GuardsItems condition items kept guards c.numbering c₁.numbering ∧
      Yields (templateSibling env pos slot isAlternative none loop kept) c₁ sibling c' := by
  unfold templateSibling at h ⊢
  rcases condition with _ | condition
  · exact ⟨items, c, [], (Keeps.refl env c).adds, .unconditional, h⟩
  · simp only [yields_bind] at h
    obtain ⟨kept, c₁, hg, h⟩ := h
    obtain ⟨guards, ha, hguard⟩ := guardItems_yields hg
    exact ⟨kept, c₁, guards, ha, hguard, h⟩

theorem templateSibling_yields {pos : Position} (tag : Tag) {readings : List Reading}
    {parts : List Part} {loop : Option Loop} {items : List Item} {sibling : Sibling}
    {frames : List Frame} {ds : List Declaration}
    (hf : c.scope.frames = queued (opened loop frames) ds)
    (h : Yields (templateSibling env pos (Reading.slotOf readings) (Part.isAlternative parts)
      (Part.condition? parts) loop items) c sibling c') :
    ∃ outer, c'.scope.frames = queued frames outer ∧ Grows env c c' ∧
      ∀ K, SealsElement env.config K pos tag readings parts items ds .template loop sibling outer
        c.numbering c'.numbering := by
  obtain ⟨kept, c₁, guards, ha, hguard, h⟩ := templateSibling_guarded h
  unfold templateSibling at h
  have hf₁ : c₁.scope.frames = queued (opened loop frames) (ds ++ guards) := by
    rw [ha.frames, hf, queued_queued]
  rcases loop with _ | loop
  · obtain ⟨rfl, rfl⟩ := yields_pure.1 h
    exact ⟨_, hf₁, ha.grows, fun _ => .spliced hguard⟩
  · simp only [yields_bind, yields_pure] at h
    obtain ⟨_, _, ⟨rfl, rfl⟩, found, c₂, hc, code, c₃, hi, rfl, rfl⟩ := h
    obtain ⟨rfl, hf₂, hn₂, hg₂⟩ := closeScope_yields env hc hf₁
    obtain ⟨outer, ha₃, hi⟩ := iterate_yields hi
    refine ⟨outer, by rw [ha₃.frames, hf₂], (ha.grows.trans hg₂).trans ha₃.grows, fun _ => ?_⟩
    rw [hn₂] at hi
    exact .iterated hguard hi

/-- An element that is a call. -/
theorem callSibling_yields {pos : Position} {tag : Tag} {kind : ElementKind}
    {readings : List Reading} {parts : List Part} {loop : Option Loop} {items : List Item}
    {sibling : Sibling} {frames : List Frame} {ds : List Declaration}
    (hf : c.scope.frames = queued (opened loop frames) ds)
    (hkind : kind ≠ .template ∧ kind ≠ .outlet)
    (h : ∃ code c₁, Yields (elementCall env pos tag kind (Reading.component? readings) parts items)
        c code c₁ ∧ ∃ form c₂, Yields (elementForm loop (Part.condition? parts)) c₁ form c₂ ∧
      { item := { code, slot := Reading.slotOf readings }, pos
        isAlternative := Part.isAlternative parts, form } = sibling ∧ c₂ = c') :
    ∃ outer, c'.scope.frames = queued frames outer ∧ Grows env c c' ∧
      ∀ K, Grows env c' K → SealsElement env.config K pos tag readings parts items ds kind loop
        sibling outer c.numbering c'.numbering := by
  obtain ⟨code, c₁, hcall, form, _, hform, rfl, rfl⟩ := h
  obtain ⟨hk, hcall⟩ := elementCall_yields hcall hkind
  rw [← hk.scope] at hf
  obtain ⟨outer, hf', hn, hg, hform⟩ := elementForm_yields hf hform
  refine ⟨outer, hf', hk.grows.trans hg, fun K hK => ?_⟩
  have hcalls := hcall K (hg.trans hK)
  rw [hn, hk.numbering]
  rcases hform with ⟨rfl, rfl, rfl⟩ | ⟨l, rfl, rfl, rfl⟩
  · rcases hc : Part.condition? parts with _ | condition
    · exact .fixed hc hcalls
    · exact .guarded hc hcalls
  · exact .repeated hcalls

theorem lowerElement_yields {place : Place} {pos : Position} {tag : Tag}
    {attributes : List Attribute} {children : CompileM (List Sibling)} {nodes : List Node}
    {sibling : Sibling}
    (hchildren : ∀ {binders c c' siblings}, Yields children c siblings c' →
      c.scope.isBound = binds binders → ∃ ds, Adds env c c' ds ∧ ∀ K, Grows env c' K →
        LowersNodes env K binders place 0 nodes siblings ds c.numbering c'.numbering)
    (h : Yields (lowerElement env place pos tag attributes children) c sibling c')
    (hbound : c.scope.isBound = binds binders) :
    ∃ ds, Adds env c c' ds ∧ ∀ K, Grows env c' K →
      LowersElement env K binders place pos tag attributes nodes sibling ds c.numbering
        c'.numbering := by
  simp only [lowerElement, yields_bind] at h
  obtain ⟨⟨readings, kind⟩, c₀, hr, loop, c₁, ho, parts, c₂, hp, siblings, c₃, hs, items, c₄, hi, h⟩
    := h
  obtain ⟨hread, rfl, hd, rfl⟩ := readElement_yields hr
  obtain ⟨hopens, hf₁, hn₁, hg₁⟩ := openLoop_yields ho hbound
  have hbound₁ : c₁.scope.isBound = binds (inside loop binders) := by
    have := isBound_opened loop c₀.scope.frames hbound
    rwa [← hf₁] at this
  obtain ⟨ha₂, hparts⟩ := resolveReadings_yields hp
  have hbound₂ : c₂.scope.isBound = binds (inside loop binders) :=
    (funext ha₂.isBound).trans hbound₁
  obtain ⟨ds₁, ha₃, hlowers⟩ := hchildren hs hbound₂
  obtain ⟨ds₂, ha₄, hfinishes⟩ := finishChains_yields hi
  have hf₄ : c₄.scope.frames = queued (opened loop c₀.scope.frames) (ds₁ ++ ds₂) := by
    rw [ha₄.frames, ha₃.frames, ha₂.frames, hf₁, queued_nil, queued_queued]
  have hg₄ : Grows env c₂ c₄ := ha₃.grows.trans ha₄.grows
  -- what the last step has to show, in whichever way the element is sealed
  have key : (∃ outer, c'.scope.frames = queued c₀.scope.frames outer ∧ Grows env c₄ c' ∧
      ∀ K, Grows env c' K → SealsElement env.config K pos tag readings parts items (ds₁ ++ ds₂)
        (elementKind tag readings) loop sibling outer c₄.numbering c'.numbering) →
      ∃ ds, Adds env c₀ c' ds ∧ ∀ K, Grows env c' K →
        LowersElement env K binders place pos tag attributes nodes sibling ds c₀.numbering
          c'.numbering := by
    rintro ⟨outer, hf, hg, hseals⟩
    refine ⟨outer, ⟨hf, ((hg₁.trans ha₂.grows).trans hg₄).trans hg⟩, fun K hK => ?_⟩
    have hp := hparts K (hg₄.trans (hg.trans hK))
    rw [hbound₁, hn₁] at hp
    exact .mk hread hopens hp (hlowers K (ha₄.grows.trans (hg.trans hK))) hfinishes (hseals K hK)
  refine key ?_
  dsimp only at h
  generalize elementKind tag readings = kind at h hd ⊢
  split at h
  · obtain ⟨outer, hf, hg, hseals⟩ := templateSibling_yields tag hf₄ h
    exact ⟨outer, hf, hg, fun K _ => hseals K⟩
  · obtain ⟨rfl, rfl⟩ := yields_pure.1 h
    obtain rfl := loop_eq_none_of_outlet hopens (hd rfl)
    exact ⟨_, hf₄, .refl env c₄, fun _ _ => .outlet⟩
  · rename_i hnt hno
    simp only [yields_bind, yields_pure] at h
    exact callSibling_yields hf₄ ⟨hnt, hno⟩ h

/-! ## Nodes -/

mutual

theorem lowerNode_yields {around : Place} {before : Nat} :
    ∀ {node : Node} {binders c c' siblings},
      Yields (lowerNode env around before node) c siblings c' →
      c.scope.isBound = binds binders → ∃ ds, Adds env c c' ds ∧ ∀ K, Grows env c' K →
        LowersNode env K binders around before node siblings ds c.numbering c'.numbering
  | .text pos value, binders, c, _, siblings, h, _ => by
    simp only [lowerNode] at h
    by_cases hv : (Text.collapse value).isEmpty
    · simp only [hv, if_true, yields_pure] at h
      obtain ⟨rfl, rfl⟩ := h
      exact ⟨[], (Keeps.refl env c).adds, fun _ _ => .blank hv⟩
    · simp only [hv, Bool.false_eq_true, if_false, yields_pure] at h
      obtain ⟨rfl, rfl⟩ := h
      exact ⟨[], (Keeps.refl env c).adds, fun _ _ => .text (by simpa using hv)⟩
  | .placeholder pos none, binders, c, _, siblings, h, _ => by
    simp only [lowerNode] at h
    obtain ⟨rfl, rfl⟩ := yields_pure.1 h
    exact ⟨[], (Keeps.refl env c).adds, fun _ _ => .nothing⟩
  | .placeholder pos (some e), binders, c, _, siblings, h, hbound => by
    simp only [lowerNode, yields_bind, yields_pure] at h
    obtain ⟨_, _, hc, code, _, hq, rfl, rfl⟩ := h
    obtain ⟨hvalid, rfl⟩ := yields_check hc
    obtain ⟨rfl, hk⟩ := qualify_yields hq
    refine ⟨[], hk.adds, fun _ _ => ?_⟩
    rw [hk.numbering, hbound]
    exact .placeholder hvalid
  | .fragment pos children, binders, c, _, siblings, h, hbound => by
    simp only [lowerNode] at h
    obtain ⟨ds, ha, hl⟩ := lowerNodes_yields h hbound
    exact ⟨ds, ha, fun K hK => .fragment (hl K hK)⟩
  | .element pos tag attributes children, binders, c, _, siblings, h, hbound => by
    simp only [lowerNode, yields_bind, yields_pure] at h
    obtain ⟨sibling, _, h, rfl, rfl⟩ := h
    obtain ⟨ds, ha, hl⟩ := lowerElement_yields (fun h => lowerNodes_yields h) h hbound
    exact ⟨ds, ha, fun K hK => .element (hl K hK)⟩
  | .literal _ _, _, _, _, _, h, _ => absurd h yields_throw
  | .attr _, _, _, _, _, h, _ => absurd h yields_throw
  | .template _ _, _, _, _, _, h, _ => absurd h yields_throw

theorem lowerNodes_yields {around : Place} {before : Nat} :
    ∀ {nodes : List Node} {binders c c' siblings},
      Yields (lowerNodes env around before nodes) c siblings c' → c.scope.isBound = binds binders →
      ∃ ds, Adds env c c' ds ∧ ∀ K, Grows env c' K →
        LowersNodes env K binders around before nodes siblings ds c.numbering c'.numbering
  | [], binders, c, _, siblings, h, _ => by
    simp only [lowerNodes] at h
    obtain ⟨rfl, rfl⟩ := yields_pure.1 h
    exact ⟨[], (Keeps.refl env c).adds, fun _ _ => .nil⟩
  | node :: rest, binders, c, _, siblings, h, hbound => by
    simp only [lowerNodes, yields_bind, yields_pure] at h
    obtain ⟨head, c₁, hh, more, c₂, ht, rfl, rfl⟩ := h
    obtain ⟨ds, ha, hhead⟩ := lowerNode_yields hh hbound
    have hbound₁ : c₁.scope.isBound = binds binders := (funext ha.isBound).trans hbound
    obtain ⟨ds', ha', htail⟩ := lowerNodes_yields ht hbound₁
    exact ⟨ds ++ ds', ha.trans ha', fun K hK =>
      .cons (hhead K (ha'.grows.trans hK)) (htail K hK)⟩

end

end CompileM

end TemplateCompiler
