import TemplateCompiler.Proofs.Derivation

/-!
# Attributes follow the relation

To read the attributes of an element queues nothing. Knowledge is read off the context that a step
leaves, so what is shown of a step is shown for every context that still knows as much.
-/

namespace TemplateCompiler

namespace CompileM

variable {env : Env} {c c' : Context}

theorem qualify_yields {site : Site} {e : Expr} {code : Code}
    (h : Yields (qualify env site e) c code c') :
    code = e.qualify env.config.instanceParam site c.scope.isBound ∧ Keeps env c c' := by
  simp only [qualify, yields_bind, yields_get, yields_pure] at h
  obtain ⟨_, _, ⟨rfl, rfl⟩, _, _, hu, rfl, rfl⟩ := h
  exact ⟨rfl, forM_useName_keeps hu⟩

theorem resolve_yields {site : Site} {pos : Position} {isDirective : Bool} {content : Content}
    {code : Code} (h : Yields (resolve env site pos isDirective content) c code c') :
    (∃ term, content.term? isDirective = some term ∧
      code = term.code env.config site c.scope.isBound) ∧ Keeps env c c' := by
  unfold resolve at h
  split at h
  · obtain ⟨rfl, hk⟩ := qualify_yields h
    exact ⟨⟨_, rfl, rfl⟩, hk⟩
  · rename_i constant
    split at h
    · rename_i text htext
      split at h
      · rename_i hd
        unfold binding at h
        split at h
        · simp at h
        · rename_i e hform
          obtain ⟨rfl, hk⟩ := qualify_yields h
          exact ⟨⟨.expression e, by simp [Content.term?, htext, hd, hform], rfl⟩, hk⟩
        · rename_i name hform
          simp only [yields_bind, yields_pure] at h
          obtain ⟨_, _, hu, rfl, rfl⟩ := h
          exact ⟨⟨.dashed name, by simp [Content.term?, htext, hd, hform], rfl⟩, useName_keeps hu⟩
      · rename_i hd
        obtain ⟨rfl, rfl⟩ := yields_pure.1 h
        exact ⟨⟨.constant constant, by simp [Content.term?, hd], rfl⟩, .refl env c⟩
    · rename_i htext
      obtain ⟨rfl, rfl⟩ := yields_pure.1 h
      exact ⟨⟨.constant constant, by simp [Content.term?, htext], rfl⟩, .refl env c⟩

/-- A callback that is kept takes a memo key. -/
theorem keepCallback_yields {target value code : Code}
    (hvalue : boundCode env.config target = value)
    (h : if (target.root.isNamed env.config.instanceParam &&
          !value.names.any c.scope.isBound) = true then
        ∃ name c₁, Yields (memoKey env) c name c₁ ∧ memoized env name value = code ∧ c₁ = c'
      else value = code ∧ c = c')
    (hb : target.isMethodOf env.config.instanceParam = false → c.bindsCallbacks) :
    Adds env c c' [] ∧ ∀ K, Grows env c' K →
      BindsCallback env K c.scope.isBound target code c.numbering c'.numbering := by
  subst hvalue
  split at h
  · rename_i hk
    obtain ⟨name, _, hm, rfl, rfl⟩ := h
    obtain ⟨rfl, hn, ha⟩ := memoKey_yields hm
    refine ⟨ha, fun K hK => ?_⟩
    rw [hn]
    exact .kept (fun ht => (ha.grows.trans hK).binds (hb ht)) hk
  · rename_i hk
    obtain ⟨rfl, rfl⟩ := h
    exact ⟨(Keeps.refl env c).adds, fun K hK =>
      .passed (fun ht => hK.binds (hb ht)) (Bool.eq_false_iff.2 hk)⟩

theorem bindCallback_yields {target code : Code} (h : Yields (bindCallback env target) c code c') :
    Adds env c c' [] ∧ ∀ K, Grows env c' K →
      BindsCallback env K c.scope.isBound target code c.numbering c'.numbering := by
  unfold bindCallback at h
  by_cases hm : target.isMethodOf env.config.instanceParam
  · have hcode : boundCode env.config target = target := by simp [boundCode, hm]
    simp only [hm, if_true, yields_bind, yields_pure, yields_get, yields_ite] at h
    obtain ⟨_, _, ⟨rfl, rfl⟩, _, _, ⟨rfl, rfl⟩, h⟩ := h
    exact keepCallback_yields hcode h (by simp [hm])
  · have hcode : boundCode env.config target =
        .call (.ref env.config.bindHelper) [target, .ref env.config.instanceParam] := by
      simp [boundCode, hm]
    simp only [hm, Bool.false_eq_true, if_false, yields_bind, yields_modify, yields_pure,
      yields_get, yields_ite] at h
    obtain ⟨_, _, rfl, _, _, ⟨rfl, rfl⟩, _, _, ⟨rfl, rfl⟩, h⟩ := h
    obtain ⟨ha, hb⟩ := keepCallback_yields hcode h (fun _ => rfl)
    have hg : Grows env c { c with bindsCallbacks := true } :=
      ⟨fun _ _ h => h, fun _ h => h, fun _ => rfl, fun h => ⟨h.nodup, h.free⟩⟩
    exact ⟨⟨ha.frames, hg.trans ha.grows⟩, hb⟩

theorem resolveProperty_yields {site : Site} {pos : Position} {isComponent : Bool} {p : Property}
    {entry : Entry Code} (h : Yields (resolveProperty env site pos isComponent p) c entry c') :
    Adds env c c' [] ∧ ∀ K, Grows env c' K →
      LowersProperty env K c.scope.isBound site isComponent p entry c.numbering c'.numbering := by
  unfold resolveProperty at h
  simp only [yields_bind] at h
  obtain ⟨value, c₁, hv, h⟩ := h
  obtain ⟨⟨term, hterm, rfl⟩, hk⟩ := resolve_yields hv
  split at h
  · rename_i hevent
    simp only [yields_bind, yields_pure] at h
    obtain ⟨code, _, hb, rfl, rfl⟩ := h
    obtain ⟨ha, hb⟩ := bindCallback_yields hb
    refine ⟨hk.adds.trans ha, fun K hK => .callback hterm hevent ?_⟩
    rw [hk.scope, hk.numbering] at hb
    exact hb K hK
  · rename_i hevent
    obtain ⟨rfl, rfl⟩ := yields_pure.1 h
    refine ⟨hk.adds, fun K _ => ?_⟩
    rw [hk.numbering]
    exact .value hterm (by simpa using hevent)

theorem resolveReading_yields {site : Site} {pos : Position} {isComponent : Bool}
    {reading : Reading} {parts : List Part}
    (h : Yields (resolveReading env site pos isComponent reading) c parts c') :
    Adds env c c' [] ∧ ∀ K, Grows env c' K →
      LowersReading env K c.scope.isBound site isComponent reading parts c.numbering
        c'.numbering := by
  cases reading with
  | iteration part =>
    obtain ⟨rfl, rfl⟩ := yields_pure.1 h
    exact ⟨(Keeps.refl env c).adds, fun _ _ => .iteration⟩
  | slot name =>
    obtain ⟨rfl, rfl⟩ := yields_pure.1 h
    exact ⟨(Keeps.refl env c).adds, fun _ _ => .slot⟩
  | component content =>
    simp only [resolveReading, yields_bind, yields_pure] at h
    obtain ⟨_, _, h, rfl, rfl⟩ := h
    obtain ⟨⟨term, hterm, rfl⟩, hk⟩ := resolve_yields h
    exact ⟨hk.adds, fun _ _ => hk.numbering ▸ .component hterm⟩
  | condition content =>
    simp only [resolveReading, yields_bind, yields_pure] at h
    obtain ⟨_, _, h, rfl, rfl⟩ := h
    obtain ⟨⟨term, hterm, rfl⟩, hk⟩ := resolve_yields h
    exact ⟨hk.adds, fun _ _ => hk.numbering ▸ .condition hterm⟩
  | alternative content =>
    simp only [resolveReading, yields_bind, yields_pure] at h
    obtain ⟨_, _, h, rfl, rfl⟩ := h
    obtain ⟨⟨term, hterm, rfl⟩, hk⟩ := resolve_yields h
    exact ⟨hk.adds, fun _ _ => hk.numbering ▸ .alternative hterm⟩
  | property p =>
    simp only [resolveReading, yields_bind, yields_pure] at h
    obtain ⟨_, _, h, rfl, rfl⟩ := h
    obtain ⟨ha, hp⟩ := resolveProperty_yields h
    exact ⟨ha, fun K hK => .property (hp K hK)⟩

theorem resolveReadings_yields {site : Site} {pos : Position} {isComponent : Bool} :
    ∀ {readings : List Reading} {c c' : Context} {parts : List Part},
      Yields (resolveReadings env site pos isComponent readings) c parts c' →
      Adds env c c' [] ∧ ∀ K, Grows env c' K →
        LowersReadings env K c.scope.isBound site isComponent readings parts c.numbering
          c'.numbering
  | [], c, _, parts, h => by
    obtain ⟨rfl, rfl⟩ := yields_pure.1 h
    exact ⟨(Keeps.refl env c).adds, fun _ _ => .nil⟩
  | reading :: rest, c, _, parts, h => by
    simp only [resolveReadings, yields_bind, yields_pure] at h
    obtain ⟨head, c₁, hh, more, c₂, ht, rfl, rfl⟩ := h
    obtain ⟨ha, hhead⟩ := resolveReading_yields hh
    obtain ⟨ha', htail⟩ := resolveReadings_yields ht
    have hbound : c₁.scope.isBound = c.scope.isBound := funext ha.isBound
    refine ⟨ha.trans ha', fun K hK => .cons (hhead K (ha'.grows.trans hK)) ?_⟩
    rw [← hbound]
    exact htail K hK

end CompileM

end TemplateCompiler
