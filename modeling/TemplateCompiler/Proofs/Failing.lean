import Mathlib.Data.List.SplitBy
import TemplateCompiler.Proofs.Lowering

/-!
# Compilation steps that fail

The other side of `Yields`: a step made of steps fails in one of them, after those before it have
succeeded (`fails_bind`). A step that only keeps account of things never fails, and one that closes
a frame or queues a declaration fails only where no frame is open. What is left are violations: each
step says here which position it reports.
-/

namespace TemplateCompiler

/-- A violation that is reported at a position. -/
def Failure.IsAt (e : Failure) (pos : Position) : Prop :=
  ∃ problem, e = .violation problem pos

/-- To queue declarations opens and closes no frame. -/
theorem Adds.frames_ne_nil {env : Env} {c c' : Context} {ds : List Declaration}
    (h : Adds env c c' ds) (hc : c.scope.frames ≠ []) : c'.scope.frames ≠ [] := by
  obtain ⟨frame, rest, hf⟩ := List.exists_cons_of_ne_nil hc
  rw [h.frames, hf]
  simp [queued]

namespace CompileM

variable {α β : Type} {env : Env} {c c' : Context} {e : Failure} {pos : Position}

/-- A step that fails, in a context. -/
def Fails (m : CompileM α) (c : Context) (e : Failure) : Prop :=
  ∃ c', m c = .error e c'

@[simp]
theorem not_fails_pure {a : α} : ¬ Fails (pure a) c e := by
  simp [Fails, pure, EStateM.pure]

@[simp]
theorem fails_bind {m : CompileM α} {f : α → CompileM β} :
    Fails (m >>= f) c e ↔ Fails m c e ∨ ∃ a c₁, Yields m c a c₁ ∧ Fails (f a) c₁ e := by
  simp only [Fails, Yields, bind, EStateM.bind]
  rcases m c with ⟨a, c₁⟩ | ⟨e', c₁⟩
  · simp
  · simp

@[simp]
theorem fails_map {m : CompileM α} {f : α → β} : Fails (f <$> m) c e ↔ Fails m c e := by
  simp only [Fails, Functor.map, EStateM.map]
  rcases m c with ⟨a, c₁⟩ | ⟨e', c₁⟩
  · simp
  · simp

@[simp]
theorem fails_throw {e' : Failure} : Fails (throw e' : CompileM α) c e ↔ e' = e := by
  have hrun : (throw e' : CompileM α) c = .error e' c := rfl
  simp [Fails, hrun]

@[simp]
theorem fails_reject {problem : Problem} :
    Fails (reject problem pos : CompileM α) c e ↔ .violation problem pos = e :=
  fails_throw

@[simp]
theorem not_fails_get : ¬ Fails get c e := by
  rintro ⟨c', h⟩
  cases h

@[simp]
theorem not_fails_set {d : Context} : ¬ Fails (set d) c e := by
  rintro ⟨c', h⟩
  cases h

@[simp]
theorem not_fails_modify {f : Context → Context} : ¬ Fails (modify f) c e := by
  rintro ⟨c', h⟩
  cases h

@[simp]
theorem fails_ite {p : Prop} [Decidable p] {m m' : CompileM α} :
    Fails (if p then m else m') c e ↔ if p then Fails m c e else Fails m' c e := by
  split <;> rfl

/-! ## Steps that do not fail -/

@[simp]
theorem not_fails_note {event : Event} : ¬ Fails (note event) c e := by
  simp [note]

@[simp]
theorem not_fails_useName {name : String} : ¬ Fails (useName name) c e := by
  simp [useName]

@[simp]
theorem not_fails_forM_useName {names : List String} : ¬ Fails (forM names useName) c e := by
  induction names generalizing c with
  | nil => simp
  | cons name rest ih => simp [ih]

@[simp]
theorem not_fails_openScope {names : List String} : ¬ Fails (openScope names) c e := by
  simp [openScope]

@[simp]
theorem not_fails_uniqueName {stem : String} : ¬ Fails (uniqueName stem) c e := by
  simp [uniqueName]

@[simp]
theorem not_fails_memoKey : ¬ Fails (memoKey env) c e := by
  simp [memoKey]

@[simp]
theorem not_fails_componentAlias {path : String} : ¬ Fails (componentAlias env path) c e := by
  simp only [componentAlias, fails_bind, not_fails_get, false_or, not_exists, not_and]
  intro ctx c₁ _
  split <;> simp

@[simp]
theorem not_fails_qualify {site : Site} {expression : Expr} :
    ¬ Fails (qualify env site expression) c e := by
  simp [qualify]

@[simp]
theorem not_fails_bindCallback {target : Code} : ¬ Fails (bindCallback env target) c e := by
  unfold bindCallback
  by_cases hm : target.isMethodOf env.config.instanceParam
  · simp [hm]
  · simp [hm]

theorem not_fails_closeScope (hc : c.scope.frames ≠ []) : ¬ Fails closeScope c e := by
  obtain ⟨frame, rest, hf⟩ := List.exists_cons_of_ne_nil hc
  simp [closeScope, Scope.close, hf]

theorem not_fails_queue {declaration : Declaration} (hc : c.scope.frames ≠ []) :
    ¬ Fails (queue declaration) c e := by
  obtain ⟨frame, rest, hf⟩ := List.exists_cons_of_ne_nil hc
  simp [queue, Scope.queue, hf]

/-! ## What is reported where -/

theorem check_fails {result : Except Problem Unit} (h : Fails (check pos result) c e) :
    e.IsAt pos := by
  unfold check at h
  split at h
  · exact absurd h not_fails_pure
  · exact ⟨_, (fails_reject.1 h).symm⟩

theorem resolve_fails {site : Site} {isDirective : Bool} {content : Content}
    (h : Fails (resolve env site pos isDirective content) c e) : e.IsAt pos := by
  unfold resolve at h
  split at h
  · exact absurd h not_fails_qualify
  · split at h
    · split at h
      · unfold binding at h
        split at h
        · exact ⟨_, (fails_reject.1 h).symm⟩
        · exact absurd h not_fails_qualify
        · simp at h
      · exact absurd h not_fails_pure
    · exact absurd h not_fails_pure

theorem resolveProperty_fails {site : Site} {isComponent : Bool} {p : Property}
    (h : Fails (resolveProperty env site pos isComponent p) c e) : e.IsAt pos := by
  simp only [resolveProperty, fails_bind, fails_ite, not_fails_bindCallback, not_fails_pure,
    and_false, exists_false, or_false, ite_self] at h
  exact resolve_fails h

theorem resolveReading_fails {site : Site} {isComponent : Bool} {reading : Reading}
    (h : Fails (resolveReading env site pos isComponent reading) c e) : e.IsAt pos := by
  cases reading with
  | iteration part => exact absurd h not_fails_pure
  | slot name => exact absurd h not_fails_pure
  | component content | condition content | alternative content =>
    simp only [resolveReading, fails_bind, not_fails_pure, and_false, exists_false, or_false] at h
    exact resolve_fails h
  | property p =>
    simp only [resolveReading, fails_bind, not_fails_pure, and_false, exists_false, or_false] at h
    exact resolveProperty_fails h

theorem resolveReadings_fails {site : Site} {isComponent : Bool} :
    ∀ {readings : List Reading} {c : Context},
      Fails (resolveReadings env site pos isComponent readings) c e → e.IsAt pos
  | [], _, h => absurd h not_fails_pure
  | reading :: rest, _, h => by
    simp only [resolveReadings, fails_bind, not_fails_pure, and_false, exists_false, or_false] at h
    rcases h with h | ⟨_, _, _, h⟩
    · exact resolveReading_fails h
    · exact resolveReadings_fails h

theorem importComponent_fails {path : String} (h : Fails (importComponent env pos path) c e) :
    e.IsAt pos := by
  unfold importComponent at h
  by_cases hp : Component.isImportable path
  · simp [hp] at h
  · simp only [hp, Bool.not_false, if_true, fails_bind, fails_reject, yields_reject, false_and,
      exists_false, or_false] at h
    exact ⟨_, h.symm⟩

theorem dynamicReference_fails {written : Option Content} {resolved : Option Code}
    (h : Fails (dynamicReference env pos written resolved) c e) : e.IsAt pos := by
  unfold dynamicReference at h
  split at h
  · exact importComponent_fails h
  · exact absurd h not_fails_pure
  · exact ⟨_, (fails_reject.1 h).symm⟩

theorem elementCall_fails {tag : Tag} {kind : ElementKind} {written : Option Content}
    {parts : List Part} {items : List Item}
    (h : Fails (elementCall env pos tag kind written parts items) c e) : e.IsAt pos := by
  cases kind with
  | virtual ns | custom =>
    simp only [elementCall, fails_bind, not_fails_pure, and_false, exists_false, or_false] at h
    exact importComponent_fails h
  | dynamic =>
    simp only [elementCall, fails_bind, not_fails_pure, and_false, exists_false, or_false] at h
    exact dynamicReference_fails h
  | template | outlet | plain => exact absurd h not_fails_pure

/-- The first wrong attribute is reported at its own place. -/
theorem ofAttributes_error {config : Config} {problem : Problem} {place : Position} :
    ∀ {attributes : List Attribute} {taken : List Modifier},
      Reading.ofAttributes config taken attributes = .error (problem, place) →
        place ∈ attributes.map Attribute.pos
  | [], _, h => by simp [Reading.ofAttributes] at h
  | a :: rest, taken, h => by
    rw [Reading.ofAttributes] at h
    split at h
    · simp only [Except.error.injEq, Prod.mk.injEq] at h
      simp [h.2]
    · rename_i reading m _
      rcases hrest : Reading.ofAttributes config (m.toList ++ taken) rest with ⟨p, q⟩ | readings
      · simp only [hrest, Functor.map, Except.map, Except.error.injEq, Prod.mk.injEq] at h
        exact List.mem_cons_of_mem _ (h.2 ▸ ofAttributes_error hrest)
      · simp [hrest, Functor.map, Except.map] at h

theorem readElement_fails {tag : Tag} {attributes : List Attribute}
    (h : Fails (readElement env pos tag attributes) c e) :
    ∃ place ∈ pos :: attributes.map Attribute.pos, e.IsAt place := by
  unfold readElement at h
  by_cases ht : tag.name.toList.contains '.'
  · simp only [ht, if_true, fails_bind, fails_reject, yields_reject, false_and, exists_false,
      or_false] at h
    exact ⟨pos, by simp, _, h.symm⟩
  · simp only [ht, Bool.false_eq_true, if_false] at h
    split at h
    · rename_i problem place hread
      exact ⟨place, List.mem_cons_of_mem _ (ofAttributes_error hread), _, (fails_reject.1 h).symm⟩
    · refine ⟨pos, by simp, ?_⟩
      simp only [fails_ite, fails_bind, fails_reject, yields_reject, false_and, exists_false,
        or_false, not_fails_pure] at h
      split at h
      · exact ⟨_, h.symm⟩
      · exact h.elim

theorem openLoop_fails {place : Place} {readings : List Reading}
    (h : Fails (openLoop env place pos readings) c e) : e.IsAt pos := by
  simp only [openLoop] at h
  split at h
  · exact ⟨_, (fails_reject.1 h).symm⟩
  · exact absurd h not_fails_pure
  · rw [fails_bind] at h
    rcases h with h | ⟨iterable, _, -, h⟩
    · exact resolve_fails h
    · split at h
      · exact ⟨_, (fails_reject.1 h).symm⟩
      · simp at h

/-! ## Siblings -/

theorem not_fails_iterate {loop : Loop} {ds : List Declaration} {body : Code} {flatten : Bool}
    (hc : c.scope.frames ≠ []) : ¬ Fails (iterate env loop ds body flatten) c e := by
  unfold iterate
  by_cases hds : ds.isEmpty
  · simp [hds]
  · simp only [hds, Bool.false_eq_true, if_false, fails_bind, not_fails_uniqueName,
      not_fails_pure, and_false, exists_false, or_false, false_or, not_exists, not_and]
    intro name c₁ hu
    obtain ⟨-, -, ha⟩ := loop_yields env hu
    exact not_fails_queue (ha.frames_ne_nil hc)

theorem not_fails_finishSibling {s : Sibling} {alternative : Option Item}
    (hc : c.scope.frames ≠ []) : ¬ Fails (finishSibling env s alternative) c e := by
  unfold finishSibling
  split
  · exact not_fails_pure
  · exact not_fails_pure
  · exact not_fails_pure
  · simp [not_fails_iterate hc]
  · simp [not_fails_iterate hc]

theorem not_fails_finishBranches :
    ∀ {siblings : List Sibling} {c : Context}, c.scope.frames ≠ [] →
      ¬ Fails (finishBranches env siblings) c e
  | [], _, _ => not_fails_pure
  | s :: rest, c, hc => by
    simp only [finishBranches, fails_bind, fails_map, not_or, not_exists, not_and]
    refine ⟨not_fails_finishBranches hc, fun alternative c₁ hrest => ?_⟩
    obtain ⟨ds, ha, -⟩ := finishBranches_yields hrest
    exact not_fails_finishSibling (ha.frames_ne_nil hc)

/-- Only an alternative that answers no condition is refused. -/
theorem finishChain_fails {chain : List Sibling} (hc : c.scope.frames ≠ [])
    (h : Fails (finishChain env chain) c e) : ∃ s ∈ chain, e.IsAt s.pos := by
  rcases chain with _ | ⟨head, rest⟩
  · exact absurd h not_fails_pure
  · refine ⟨head, List.mem_cons_self, ?_⟩
    unfold finishChain at h
    by_cases halternative : head.isAlternative
    · simp only [halternative, if_true, fails_reject] at h
      exact ⟨_, h.symm⟩
    · simp only [halternative, Bool.false_eq_true, if_false] at h
      split at h
      · exact absurd h not_fails_pure
      · simp [not_fails_finishBranches hc] at h

theorem finishChains_fails :
    ∀ {chains : List (List Sibling)} {c : Context}, c.scope.frames ≠ [] →
      Fails (finishChains env chains) c e → ∃ s ∈ chains.flatten, e.IsAt s.pos
  | [], _, _, h => absurd h not_fails_pure
  | chain :: rest, c, hc, h => by
    simp only [finishChains, fails_bind, not_fails_pure, and_false, exists_false, or_false] at h
    rw [List.flatten_cons]
    rcases h with h | ⟨items, c₁, hchain, h⟩
    · obtain ⟨s, hs, he⟩ := finishChain_fails hc h
      exact ⟨s, List.mem_append_left _ hs, he⟩
    · obtain ⟨ds, ha, -⟩ := finishChain_yields hchain
      obtain ⟨s, hs, he⟩ := finishChains_fails (ha.frames_ne_nil hc) h
      exact ⟨s, List.mem_append_right _ hs, he⟩

theorem finishSiblings_fails {siblings : List Sibling} (hc : c.scope.frames ≠ [])
    (h : Fails (finishSiblings env siblings) c e) : ∃ s ∈ siblings, e.IsAt s.pos := by
  obtain ⟨s, hs, he⟩ := finishChains_fails hc h
  rw [Sibling.chains, List.flatten_splitBy] at hs
  exact ⟨s, hs, he⟩

/-! ## Elements that are done -/

theorem not_fails_guardItems (env : Env) {condition : Code} {items : List Item}
    (hc : c.scope.frames ≠ []) : ¬ Fails (guardItems condition items) c e := by
  simp only [guardItems]
  by_cases hi : items.isEmpty
  · simp [hi]
  · simp only [hi, Bool.false_eq_true, if_false, fails_bind, not_fails_uniqueName, not_fails_pure,
      and_false, exists_false, or_false, false_or, not_exists, not_and]
    intro name c₁ hu
    obtain ⟨-, -, ha⟩ := temporary_yields env hu
    exact not_fails_queue (ha.frames_ne_nil hc)

/-- A template's own frame, if it has one, stands on those around it. -/
theorem not_fails_unguarded {slot : Option String} {isAlternative : Bool} {loop : Option Loop}
    {items : List Item} {frames : List Frame} {ds : List Declaration}
    (hf : c.scope.frames = queued (opened loop frames) ds) (hframes : frames ≠ []) :
    ¬ Fails (templateSibling env pos slot isAlternative none loop items) c e := by
  unfold templateSibling
  simp only [fails_bind, not_fails_pure, false_or, yields_pure, not_exists, not_and]
  rintro _ _ ⟨rfl, rfl⟩
  cases loop with
  | none => exact not_fails_pure
  | some loop =>
    replace hf : c.scope.frames =
        { Frame.inside frames loop.parameters with declarations := ds } :: frames := hf
    simp only [fails_bind, not_fails_pure, and_false, exists_false, or_false, not_or, not_exists,
      not_and]
    refine ⟨not_fails_closeScope (by simp [hf]), fun found c₁ hclose => ?_⟩
    obtain ⟨-, hf₁, -⟩ := closeScope_yields env hclose hf
    exact not_fails_iterate (hf₁ ▸ hframes)

theorem not_fails_templateSibling {slot : Option String} {isAlternative : Bool}
    {condition : Option Code} {loop : Option Loop} {items : List Item} {frames : List Frame}
    {ds : List Declaration} (hf : c.scope.frames = queued (opened loop frames) ds)
    (hframes : frames ≠ []) :
    ¬ Fails (templateSibling env pos slot isAlternative condition loop items) c e := by
  cases condition with
  | none => exact not_fails_unguarded hf hframes
  | some condition =>
    have hc : c.scope.frames ≠ [] := by
      obtain ⟨frame, rest, rfl⟩ := List.exists_cons_of_ne_nil hframes
      rw [hf]
      cases loop with
      | none | some loop => simp [opened, queued]
    intro h
    unfold templateSibling at h
    rw [fails_bind] at h
    rcases h with h | ⟨kept, c₁, hg, h⟩
    · exact not_fails_guardItems env hc h
    · obtain ⟨guards, ha, -⟩ : ∃ guards, Adds env c c₁ guards ∧ _ := guardItems_yields hg
      have hf₁ : c₁.scope.frames = queued (opened loop frames) (ds ++ guards) := by
        rw [ha.frames, hf, queued_queued]
      exact not_fails_unguarded hf₁ hframes h

theorem not_fails_elementForm {loop : Option Loop} {condition : Option Code}
    {frames : List Frame} {ds : List Declaration}
    (hf : c.scope.frames = queued (opened loop frames) ds) :
    ¬ Fails (elementForm loop condition) c e := by
  cases loop with
  | none =>
    cases condition with
    | none => exact not_fails_pure
    | some condition => exact not_fails_pure
  | some loop =>
    simp only [elementForm, fails_bind, not_fails_pure, and_false, exists_false, or_false]
    exact not_fails_closeScope (by simp [hf, opened, queued])

end CompileM

end TemplateCompiler
