import TemplateCompiler.Proofs.Temporaries

/-!
# Modules render what the markup does

Where no element repeats, a module comes to the value that its template renders (`renders_markup`).
All its statements are temporaries for conditions, which read the instance alone. So once they are
run, the names of the module stand for what they are taken for, and each temporary for the value of
its condition. Under these names the siblings of a children list are what the nodes render, one by
one and then chain by chain.
-/

namespace TemplateCompiler

variable {α : Type} {host : Host α} {ρ : Locals α} {env : Env} {config : Config} {K : Context}
  {n n' : Numbering}

/-! ## Siblings -/

namespace Sibling

/-- What a sibling comes to in front of a branch. -/
def value (host : Host α) (ρ : Locals α) (s : Sibling) (branch : Option (Option (Value α))) :
    Option (Value α) :=
  match s.form with
  | .guarded condition =>
    chosen host (some (condition.eval host ρ)) (s.item.code.eval host ρ) branch
  | .fixed | .spliced _ | .repeated .. => s.item.code.eval host ρ

/-- What a sibling renders in front of what follows it. -/
def render (host : Host α) (ρ : Locals α) (s : Sibling) (rest : Rendered α) : Rendered α :=
  if s.isAlternative then ⟨some (s.value host ρ rest.branch), rest.contributions⟩
  else match s.form with
    | .spliced items =>
      ⟨none, (items.map fun i => (i.inSlot s.item.slot).contribution host ρ) ++ rest.contributions⟩
    | _ => ⟨none, ⟨s.item.slot, s.value host ρ rest.branch⟩ :: rest.contributions⟩

/-- A sibling that does not repeat and whose items fit. -/
structure Fits (host : Host α) (ρ : Locals α) (s : Sibling) : Prop where
  once : s.Once
  item : s.item.Fits host ρ
  items : ∀ items, s.form = .spliced items → ∀ i ∈ items, i.Fits host ρ

theorem contributions_of_alternatives {siblings : List Sibling}
    (h : ∀ s ∈ siblings, s.isAlternative) (rest : Rendered α) :
    (siblings.foldr (render host ρ) rest).contributions = rest.contributions := by
  induction siblings with
  | nil => rfl
  | cons s siblings ih =>
    rw [List.forall_mem_cons] at h
    rw [List.foldr_cons, render, if_pos h.1]
    exact ih h.2

end Sibling

theorem Item.Fits.inSlot {i : Item} (h : i.Fits host ρ) (slot : Option String) :
    (i.inSlot slot).Fits host ρ :=
  ⟨h.once, h.single⟩

theorem isList_eq_false_of_callPrimitive {name : String} {arguments : List (Value α)} {v : Value α}
    (hname : name ∈ Host.makers) (h : host.callPrimitive name arguments = some v) :
    v.isList = false := by
  unfold Host.callPrimitive at h
  rw [if_pos (List.contains_iff_mem.2 hname), Option.some.injEq] at h
  rw [← h]
  rfl

theorem Sibling.eval_choose (hρ : Provides host config K ρ) (condition body : Code)
    (alternative : Option Item) :
    (Sibling.choose config condition body alternative).eval host ρ =
      chosen host (some (condition.eval host ρ)) (body.eval host ρ)
        (alternative.map fun i => i.code.eval host ρ) := by
  have hbranch : ((alternative.map Item.code).getD
      (config.callPrimitive config.primitives.empty [])).eval host ρ =
      (alternative.map fun i : Item => i.code.eval host ρ).getD (host.callPrimitive "e" []) := by
    rcases alternative with _ | i
    · rw [Option.map_none, Option.getD_none, hρ.eval_callPrimitive, hρ.primitives]
      rfl
    · rfl
  rw [Sibling.choose, Code.eval, hbranch]
  rfl

theorem FinishesSibling.render_eq {s : Sibling} {alternative : Option Item} {item : Item}
    {ds : List Declaration} (h : FinishesSibling config s alternative item ds n n')
    (hρ : Provides host config K ρ) (hs : s.Fits host ρ)
    (ha : ∀ i ∈ alternative, i.Fits host ρ) :
    item.code.eval host ρ = s.value host ρ (alternative.map fun i => i.code.eval host ρ) ∧
      item.slot = s.item.slot ∧ item.Fits host ρ := by
  cases h with
  | fixed form | spliced form => exact ⟨by rw [Sibling.value, form], rfl, hs.item⟩
  | @guarded condition _ form =>
    have heval := Sibling.eval_choose hρ condition s.item.code alternative
    refine ⟨by rw [heval, Sibling.value, form], rfl, rfl, fun hnested v hv => ?_⟩
    rw [Bool.or_eq_false_iff] at hnested
    simp only [heval, chosen, Option.bind_eq_bind, Option.bind_eq_some_iff] at hv
    obtain ⟨test, -, hv⟩ := hv
    split at hv
    · exact hs.item.single hnested.1 v hv
    · rcases alternative with _ | i
      · rw [Option.map_none, Option.getD_none] at hv
        exact isList_eq_false_of_callPrimitive (by decide) hv
      · exact (ha i rfl).single (by simpa using hnested.2) v hv
  | repeated form | filtered form => exact absurd form (hs.once _ _ _)

theorem FinishesBranches.render_eq {siblings : List Sibling} {item : Option Item}
    {ds : List Declaration} (h : FinishesBranches config siblings item ds n n')
    (hρ : Provides host config K ρ) (hs : ∀ s ∈ siblings, s.Fits host ρ) :
    (∀ i ∈ item, i.Fits host ρ) ∧
      ((∀ s ∈ siblings, s.isAlternative) → ∀ contributions,
        siblings.foldr (Sibling.render host ρ) ⟨none, contributions⟩ =
          ⟨item.map fun i => i.code.eval host ρ, contributions⟩) := by
  induction h with
  | nil => exact ⟨by simp, fun _ _ => rfl⟩
  | cons _ head ih =>
    rw [List.forall_mem_cons] at hs
    obtain ⟨hfits, hrender⟩ := ih hs.2
    obtain ⟨hvalue, -, hitem⟩ := head.render_eq hρ hs.1 hfits
    refine ⟨by simpa using hitem, fun halternative contributions => ?_⟩
    rw [List.forall_mem_cons] at halternative
    rw [List.foldr_cons, hrender halternative.2, Sibling.render, if_pos halternative.1, ← hvalue]
    rfl

theorem FinishesChain.render_eq {chain : List Sibling} {items : List Item} {ds : List Declaration}
    (h : FinishesChain config chain items ds n n') (hρ : Provides host config K ρ)
    (hs : ∀ s ∈ chain, s.Fits host ρ) (htail : ∀ s ∈ chain.tail, s.isAlternative) :
    (∀ i ∈ items, i.Fits host ρ) ∧ ∀ contributions,
      chain.foldr (Sibling.render host ρ) ⟨none, contributions⟩ =
        ⟨none, items.map (Item.contribution host ρ) ++ contributions⟩ := by
  cases h with
  | nil => exact ⟨by simp, fun _ => rfl⟩
  | @spliced s rest kept _ head form =>
    rw [List.forall_mem_cons] at hs
    refine ⟨?_, fun contributions => ?_⟩
    · intro i hi
      obtain ⟨j, hj, rfl⟩ := List.mem_map.1 hi
      exact (hs.1.items kept form j hj).inSlot _
    · have hrest : (rest.foldr (Sibling.render host ρ) ⟨none, contributions⟩).contributions =
          contributions := Sibling.contributions_of_alternatives htail _
      rw [List.foldr_cons, Sibling.render, if_neg (by simp [head]), form, List.map_map]
      simp only [hrest]
      rfl
  | @branches s rest item _ _ _ head form branches =>
    rw [List.forall_mem_cons] at hs
    cases branches with
    | cons tail sibling =>
      obtain ⟨hfits, hrender⟩ := tail.render_eq hρ hs.2
      obtain ⟨hvalue, hslot, hitem⟩ := sibling.render_eq hρ hs.1 hfits
      refine ⟨by simpa using hitem, fun contributions => ?_⟩
      rw [List.foldr_cons, hrender htail, Sibling.render, if_neg (by simp [head])]
      split
      · rename_i items hspliced
        exact absurd hspliced (form items)
      · rw [← hvalue, ← hslot]
        rfl

theorem FinishesChains.render_eq {chains : List (List Sibling)} {items : List Item}
    {ds : List Declaration} (h : FinishesChains config chains items ds n n')
    (hρ : Provides host config K ρ) (hchains : ∀ chain ∈ chains,
      (∀ s ∈ chain, s.Fits host ρ) ∧ ∀ s ∈ chain.tail, s.isAlternative) :
    (∀ i ∈ items, i.Fits host ρ) ∧
      chains.flatten.foldr (Sibling.render host ρ) ⟨none, []⟩ =
        ⟨none, items.map (Item.contribution host ρ)⟩ := by
  induction h with
  | nil => exact ⟨by simp, rfl⟩
  | cons head _ ih =>
    rw [List.forall_mem_cons] at hchains
    obtain ⟨hfits, hrender⟩ := head.render_eq hρ hchains.1.1 hchains.1.2
    obtain ⟨hmore, hrest⟩ := ih hchains.2
    refine ⟨List.forall_mem_append.2 ⟨hfits, hmore⟩, ?_⟩
    rw [List.flatten_cons, List.foldr_append, hrest, hrender, List.map_append]

/-! ## Guards -/

/-- An item is guarded by a temporary like its contribution by the condition. -/
theorem Item.contribution_guardItem {name : String} {condition : Code} {v : Value α}
    (heval : (Code.or condition (.constant none .null)).eval host ρ = some v)
    (hfind : ρ.find name = some v) (i : Item) :
    (CompileM.guardItem name i).contribution host ρ =
      (i.contribution host ρ).guard host (condition.eval host ρ) := by
  simp only [Code.eval, Option.bind_eq_bind, Option.bind_eq_some_iff] at heval
  obtain ⟨test, htest, hv⟩ := heval
  simp only [Item.contribution, CompileM.guardItem, Contribution.guard, Code.eval, hfind, htest,
    Option.bind_eq_bind, Option.bind_some, Contribution.mk.injEq, true_and]
  split at hv
  · rename_i htruthy
    obtain rfl := Option.some.inj hv
    rw [if_pos htruthy, if_pos htruthy]
  · rename_i hfalsy
    obtain rfl := Option.some.inj hv
    rw [host.null_falsy, if_neg hfalsy]
    rfl

theorem Item.Fits.guard {i : Item} (h : i.Fits host ρ) {name : String} {test : Option (Value α)}
    (hguard : (CompileM.guardItem name i).contribution host ρ =
      (i.contribution host ρ).guard host test) :
    (CompileM.guardItem name i).Fits host ρ := by
  refine ⟨rfl, fun hnested v hv => ?_⟩
  have hplain : i.nested = false := (Bool.or_eq_false_iff.1 hnested).1
  have hvalue : ((i.contribution host ρ).guard host test).value = some v :=
    (congrArg Contribution.value hguard).symm.trans hv
  simp only [Item.contribution, Contribution.guard, Option.bind_eq_bind,
    Option.bind_eq_some_iff] at hvalue
  obtain ⟨test, -, hvalue⟩ := hvalue
  split at hvalue
  · exact h.single hplain v hvalue
  · rw [← Option.some.inj hvalue]
    rfl

theorem GuardsItems.render_eq {condition : Option Code} {items kept : List Item}
    {ds : List Declaration} (h : GuardsItems condition items kept ds n n')
    (hds : Settled host ρ ds) (hitems : ∀ i ∈ items, i.Fits host ρ) :
    (∀ i ∈ kept, i.Fits host ρ) ∧ kept.map (Item.contribution host ρ) =
      Contribution.guarded host (condition.map (Code.eval host ρ))
        (items.map (Item.contribution host ρ)) := by
  cases h with
  | unconditional => exact ⟨hitems, rfl⟩
  | nothing => exact ⟨by simp, rfl⟩
  | guarded =>
    obtain ⟨v, heval, hfind⟩ := hds _ _ List.mem_cons_self
    have hguard := Item.contribution_guardItem heval hfind
    constructor
    · intro j hj
      obtain ⟨i, hi, rfl⟩ := List.mem_map.1 hj
      exact (hitems i hi).guard (hguard i)
    · rw [List.map_map, Option.map_some, Contribution.guarded, List.map_map]
      exact List.map_congr_left fun i _ => hguard i

/-- The list of what is left of the items of a template is what the template contributes. -/
theorem GuardsItems.eval_assemble {condition : Option Code} {items kept : List Item}
    {ds : List Declaration} (h : GuardsItems condition items kept ds n n')
    (hρ : Provides host config K ρ) (hds : Settled host ρ ds)
    (hitems : ∀ i ∈ items, i.Fits host ρ) :
    (Item.assemble config kept).eval host ρ =
      Contribution.children (Contribution.guarded host (condition.map (Code.eval host ρ))
        (items.map (Item.contribution host ρ))) := by
  obtain ⟨hfits, hkept⟩ := h.render_eq hds hitems
  rw [Item.eval_assemble hρ hfits, hkept]

/-! ## Elements -/

/-- A call is rendered as an element, on a branch or among the contributions. -/
theorem CallsElement.renderElement_eq {tag : Tag} {written : Option Content} {parts : List Part}
    {items : List Item} {kind : ElementKind} {code : Code} {readings : List Reading}
    (h : CallsElement config K tag written parts items kind code)
    (hkind : elementKind tag readings = kind) (inner : List (Contribution α)) (rest : Rendered α) :
    renderElement host config tag readings inner rest =
      let value := chosen host ((Reading.condition? readings).map (Content.render host true))
        (makeElement host config tag readings inner kind) rest.branch
      if readings.any Reading.isAlternative then ⟨some value, rest.contributions⟩
      else ⟨none, ⟨Reading.slotOf readings, value⟩ :: rest.contributions⟩ := by
  cases h <;> simp only [renderElement, hkind]

/-- What is made of an element is no list. -/
theorem isList_eq_false_of_makeElement {tag : Tag} {readings : List Reading}
    {contributions : List (Contribution α)} {kind : ElementKind} {v : Value α}
    (h : makeElement host config tag readings contributions kind = some v) : v.isList = false := by
  cases kind with
  | dynamic =>
    simp only [makeElement, Option.bind_eq_bind, Option.bind_eq_some_iff] at h
    obtain ⟨_, -, _, -, _, -, h⟩ := h
    exact isList_eq_false_of_callPrimitive (by decide) h
  | _ =>
    simp only [makeElement, Option.bind_eq_bind, Option.bind_eq_some_iff] at h
    obtain ⟨_, -, _, -, h⟩ := h
    exact isList_eq_false_of_callPrimitive (by decide) h

theorem SealsElement.render_eq {pos : Position} {tag : Tag} {readings : List Reading}
    {parts : List Part} {items : List Item} {site : Site} {ds outer : List Declaration}
    {kind : ElementKind} {sibling : Sibling} {n₁ n₂ : Numbering}
    (h : SealsElement env.config K pos tag readings parts items ds kind none sibling outer n n')
    (hkind : elementKind tag readings = kind)
    (hlowers : LowersReadings env K (binds []) site kind.isComponent readings parts n₁ n₂)
    (hρ : Provides host env.config K ρ) (hds : Settled host ρ outer)
    (hitems : ∀ i ∈ items, i.Fits host ρ) :
    sibling.Fits host ρ ∧ ∀ rest,
      renderElement host env.config tag readings (items.map (Item.contribution host ρ)) rest =
        sibling.render host ρ rest := by
  have hcondition := hlowers.eval_condition hρ.inst
  have halternative := hlowers.isAlternative_eq
  have hattributes := hlowers.eval_attributes hρ
  have hcomponent := hlowers.eval_component hρ.inst
  have hcalled : ∀ {slot code}, code.eval host ρ = makeElement host env.config tag readings
      (items.map (Item.contribution host ρ)) kind →
      ({ code, slot } : Item).Fits host ρ :=
    fun hcode => ⟨rfl, fun _ v hv => isList_eq_false_of_makeElement (hcode.symm.trans hv)⟩
  cases h with
  | @spliced kept guards _ _ guarded =>
    have hguards := hds.mono (List.subset_append_right _ _)
    obtain ⟨hfits, hkept⟩ := guarded.render_eq hguards hitems
    refine ⟨⟨nofun, ⟨rfl, by simp⟩, ?_⟩, fun rest => ?_⟩
    · rintro items ⟨⟩
      exact hfits
    · have hchildren := guarded.eval_assemble hρ hguards hitems
      rw [hcondition] at hchildren
      simp only [renderElement, hkind, Sibling.render, Sibling.value, halternative, hchildren]
      rw [← hcondition, ← hkept, List.map_map]
      rfl
  | outlet =>
    refine ⟨⟨nofun, ⟨rfl, by simp⟩, by simp⟩, fun rest => ?_⟩
    simp only [renderElement, hkind, Sibling.render, Sibling.value, Bool.false_eq_true, if_false,
      eval_outletCode hρ readings hitems]
  | fixed condition calls =>
    have hcode := calls.eval hρ hitems hattributes hcomponent
    refine ⟨⟨nofun, hcalled hcode, by simp⟩, fun rest => ?_⟩
    rw [condition] at hcondition
    simp only [calls.renderElement_eq hkind, Sibling.render, Sibling.value, halternative, hcode,
      ← hcondition, Option.map_none, chosen]
  | guarded condition calls =>
    have hcode := calls.eval hρ hitems hattributes hcomponent
    refine ⟨⟨nofun, hcalled hcode, by simp⟩, fun rest => ?_⟩
    rw [condition] at hcondition
    simp only [calls.renderElement_eq hkind, Sibling.render, Sibling.value, halternative, hcode,
      ← hcondition, Option.map_some]

theorem SealsElement.subset_outer {pos : Position} {tag : Tag} {readings : List Reading}
    {parts : List Part} {items : List Item} {ds outer : List Declaration} {kind : ElementKind}
    {sibling : Sibling}
    (h : SealsElement config K pos tag readings parts items ds kind none sibling outer n n') :
    ds ⊆ outer := by
  cases h with
  | spliced => exact List.subset_append_left _ _
  | outlet | fixed | guarded => exact List.Subset.refl _

/-- What the children of an element contribute are its items. -/
theorem LowersElement.exists_items {place : Place} {pos : Position} {tag : Tag}
    {attributes : List Attribute} {children : List Node} {sibling : Sibling}
    {ds : List Declaration}
    (h : LowersElement env K [] place pos tag attributes children sibling ds n n')
    (hρ : Provides host env.config K ρ) (hds : Settled host ρ ds)
    (honce : attributes.any Attribute.iterates = false)
    (hchildren : ∀ {siblings ds n n'}, LowersNodes env K [] place 0 children siblings ds n n' →
      Settled host ρ ds → (∀ s ∈ siblings, s.Fits host ρ) ∧ ∀ rest,
        renderNodes host env.config children rest = siblings.foldr (Sibling.render host ρ) rest) :
    ∃ readings parts items inner n₁ n₂,
      (Node.element pos tag attributes children).readings env.config = readings ∧
      LowersReadings env K (binds []) ⟨place, false⟩ (elementKind tag readings).isComponent readings
        parts n n₁ ∧
      SealsElement env.config K pos tag readings parts items inner (elementKind tag readings) none
        sibling ds n₂ n' ∧
      (∀ i ∈ items, i.Fits host ρ) ∧
      (renderNodes host env.config children ⟨none, []⟩).contributions =
        items.map (Item.contribution host ρ) := by
  cases h with
  | @mk _ _ _ _ _ _ readings loop parts siblings items _ ds₁ ds₂ _ _ n₁ _ n₃ _ reads opens
      lowersReadings lowersChildren finishes seals =>
    obtain rfl := opens.eq_none reads honce
    have hinner := hds.mono seals.subset_outer
    obtain ⟨hfits, hrender⟩ := hchildren lowersChildren (hinner.mono (List.subset_append_left _ _))
    obtain ⟨hitems, hcontributions⟩ := finishes.render_eq hρ fun chain hchain =>
      ⟨fun s hs => hfits s ((Sibling.chain_cases hchain).1.mem hs), (Sibling.chain_cases hchain).2⟩
    refine ⟨readings, parts, items, ds₁ ++ ds₂, n₁, n₃, by simp [Node.readings, reads],
      lowersReadings, seals, hitems, ?_⟩
    rw [hrender]
    rw [Sibling.chains, List.flatten_splitBy] at hcontributions
    rw [hcontributions]

theorem LowersElement.render_eq {place : Place} {pos : Position} {tag : Tag}
    {attributes : List Attribute} {children : List Node} {sibling : Sibling}
    {ds : List Declaration}
    (h : LowersElement env K [] place pos tag attributes children sibling ds n n')
    (hρ : Provides host env.config K ρ) (hds : Settled host ρ ds)
    (honce : attributes.any Attribute.iterates = false)
    (hchildren : ∀ {siblings ds n n'}, LowersNodes env K [] place 0 children siblings ds n n' →
      Settled host ρ ds → (∀ s ∈ siblings, s.Fits host ρ) ∧ ∀ rest,
        renderNodes host env.config children rest = siblings.foldr (Sibling.render host ρ) rest) :
    sibling.Fits host ρ ∧ ∀ rest,
      renderNode host env.config (.element pos tag attributes children) rest =
        sibling.render host ρ rest := by
  obtain ⟨readings, parts, items, inner, n₁, n₂, hreadings, hlowers, hseals, hitems,
    hcontributions⟩ := h.exists_items hρ hds honce hchildren
  obtain ⟨hfits, hrender⟩ := hseals.render_eq rfl hlowers hρ hds hitems
  refine ⟨hfits, fun rest => ?_⟩
  rw [renderNode, hreadings, hcontributions, hrender]

/-! ## Nodes -/

theorem Sibling.fits_fixed {code : Code} {pos : Position}
    (h : ∀ v, code.eval host ρ = some v → v.isList = false) :
    Sibling.Fits host ρ { item := { code }, pos } :=
  ⟨nofun, ⟨rfl, fun _ => h⟩, nofun⟩

mutual

theorem LowersNode.render_eq (hρ : Provides host env.config K ρ) :
    ∀ {node : Node} {around before siblings ds n n'},
      LowersNode env K [] around before node siblings ds n n' → node.repeats = false →
      Settled host ρ ds → (∀ s ∈ siblings, s.Fits host ρ) ∧ ∀ rest,
        renderNode host env.config node rest = siblings.foldr (Sibling.render host ρ) rest
  | .text .., _, _, _, _, _, _, h, _, _ => by
    cases h with
    | blank empty => exact ⟨by simp, fun rest => by simp [renderNode, empty]⟩
    | text shown =>
      refine ⟨?_, fun rest => by simp [renderNode, shown, Sibling.render, Sibling.value]⟩
      refine List.forall_mem_singleton.2 (Sibling.fits_fixed fun v hv => ?_)
      rw [← Option.some.inj hv]
      rfl
  | .placeholder .., _, _, _, _, _, _, h, _, _ => by
    cases h with
    | nothing => exact ⟨by simp, fun _ => rfl⟩
    | @placeholder _ _ _ _ _ e =>
      refine ⟨List.forall_mem_singleton.2 (Sibling.fits_fixed fun v hv => ?_), fun rest => ?_⟩
      · rw [hρ.eval_shown, Option.bind_eq_some_iff] at hv
        obtain ⟨_, -, hv⟩ := hv
        exact isList_eq_false_of_callPrimitive (by decide) hv
      · simp [renderNode, Sibling.render, Sibling.value, hρ.eval_shown]
  | .fragment _ children, _, _, _, _, _, _, h, honce, hds => by
    cases h with
    | fragment lowersChildren =>
      obtain ⟨hfits, hrender⟩ := LowersNodes.render_eq hρ lowersChildren honce hds
      exact ⟨hfits, fun rest => by rw [renderNode, hrender]⟩
  | .element _ _ attributes children, _, _, _, _, _, _, h, honce, hds => by
    rw [Node.repeats, Bool.or_eq_false_iff] at honce
    cases h with
    | element lowers =>
      obtain ⟨hfits, hrender⟩ := lowers.render_eq hρ hds honce.1 fun h =>
        LowersNodes.render_eq hρ h honce.2
      exact ⟨by simpa using hfits, fun rest => hrender rest⟩
  | .literal .., _, _, _, _, _, _, h, _, _ => nomatch h
  | .attr .., _, _, _, _, _, _, h, _, _ => nomatch h
  | .template .., _, _, _, _, _, _, h, _, _ => nomatch h

theorem LowersNodes.render_eq (hρ : Provides host env.config K ρ) :
    ∀ {nodes : List Node} {around before siblings ds n n'},
      LowersNodes env K [] around before nodes siblings ds n n' → anyRepeats nodes = false →
      Settled host ρ ds → (∀ s ∈ siblings, s.Fits host ρ) ∧ ∀ rest,
        renderNodes host env.config nodes rest = siblings.foldr (Sibling.render host ρ) rest
  | [], _, _, _, _, _, _, h, _, _ => by
    cases h
    exact ⟨by simp, fun _ => rfl⟩
  | node :: rest, _, _, _, _, _, _, h, honce, hds => by
    rw [anyRepeats, Bool.or_eq_false_iff] at honce
    cases h with
    | cons head tail =>
      obtain ⟨hfits, hrender⟩ := LowersNode.render_eq hρ head honce.1
        (hds.mono (List.subset_append_left _ _))
      obtain ⟨hmore, hrest⟩ := LowersNodes.render_eq hρ tail honce.2
        (hds.mono (List.subset_append_right _ _))
      refine ⟨List.forall_mem_append.2 ⟨hfits, hmore⟩, fun rest => ?_⟩
      rw [renderNodes, hrest, hrender, List.foldr_append]

end

/-! ## Templates -/

theorem repeats_of_mem : ∀ {nodes : List Node}, anyRepeats nodes = false → ∀ {node}, node ∈ nodes →
    node.repeats = false
  | first :: rest, h, node, hmem => by
    rw [anyRepeats, Bool.or_eq_false_iff] at h
    rcases List.mem_cons.1 hmem with rfl | hmem
    · exact h.1
    · exact repeats_of_mem h.2 hmem

theorem Template.repeats_root {t : Template} (h : t.repeats = false) {root : Node}
    (hroot : t.root? = some root) : root.repeats = false :=
  repeats_of_mem h (List.mem_of_mem_filter (List.mem_of_mem_head? hroot))

variable {t : Template} {compiled : Compiled}

/-- What a template renders is always something. -/
theorem Compiles.isSome_render {sibling : Sibling} {ds : List Declaration}
    (h : Compiles env t compiled K sibling ds n) (htotal : host.Total) :
    (t.render host env.config).isSome := by
  obtain ⟨pos, attributes, children, hroot, hl⟩ := h.root
  cases hl with
  | mk reads _ lowersReadings lowersChildren =>
    have hinner : ∀ c ∈ (renderNodes host env.config children ⟨none, []⟩).contributions,
        c.value.isSome :=
      (LowersNodes.total htotal lowersChildren ⟨none, []⟩ ⟨by simp, by simp⟩).contributions
    simp only [Template.render, hroot, Node.readings, reads]
    exact Contribution.isSome_children (Contribution.isSome_guarded
      (htotal.condition lowersReadings.readable) hinner)

/-- Where the statements have been run, the result is what the template renders. -/
theorem Compiles.eval_result {sibling : Sibling} {ds : List Declaration}
    (h : Compiles env t compiled K sibling ds n) (honce : t.repeats = false)
    (hρ : Provides host env.config K ρ) (hds : Settled host ρ ds) :
    sibling.item.code.eval host ρ = t.render host env.config := by
  obtain ⟨pos, attributes, children, hroot, hl⟩ := h.root
  have hrepeats := Template.repeats_root honce hroot
  rw [Node.repeats, Bool.or_eq_false_iff] at hrepeats
  obtain ⟨readings, parts, items, inner, n₁, n₂, hreadings, hlowers, hseals, hitems,
    hcontributions⟩ := hl.exists_items hρ hds hrepeats.1 fun h =>
      LowersNodes.render_eq hρ h hrepeats.2
  simp only [Template.render, hroot, hreadings, hcontributions, ← hlowers.eval_condition hρ.inst]
  generalize hkind : elementKind ⟨none, "template"⟩ readings = kind at hseals
  obtain rfl : ElementKind.template = kind := hkind
  cases hseals with
  | spliced guarded =>
    exact guarded.eval_assemble hρ (hds.mono (List.subset_append_right _ _)) hitems
  | fixed _ calls | guarded _ calls => nomatch calls

/-- Where no element repeats and no read fails, a module renders what the markup does. -/
theorem renders_markup (h : (compile env t).1 = .ok compiled) (hconfig : env.config = {})
    (honce : t.repeats = false) (htotal : host.Total) :
    ∃ v, compiled.module.render host = some v ∧ t.render host {} = some v := by
  obtain ⟨K, sibling, ds, n, hc⟩ := compiles_of_ok h
  obtain ⟨pos, attributes, children, hroot, hl⟩ := hc.root
  have hrepeats := Template.repeats_root honce hroot
  rw [Node.repeats, Bool.or_eq_false_iff] at hrepeats
  have htemporaries := (hl.temporaries hrepeats.1 fun h =>
    LowersNodes.temporaries h hrepeats.2).1
  have hnames := hc.namesApart hconfig
  obtain ⟨ρ, hrun, hsettled, hfind⟩ :=
    hc.run_start hnames fun d hd => (htemporaries d hd).isReadable htotal
  have hρ := hc.start_provides hnames (by rw [hconfig]) hfind
  obtain ⟨v, hv⟩ := Option.isSome_iff_exists.1 (hc.isSome_render htotal)
  refine ⟨v, ?_, hconfig ▸ hv⟩
  rw [hc.render_eq_run, hrun, Option.bind_some, hc.eval_result honce hρ hsettled, hv]

/-- A host whose members are their own names, all of them true but one. -/
def sampleHost : Host Unit where
  inst := .native ()
  member _ name := some (.constant (.text name))
  index _ key := some key
  truthy
    | .constant (.text "no") | .constant .null => false
    | _ => true
  content _ := .constant .null
  iterate _ := none
  function _ := .native ()
  foreign kind := .constant (.text kind)
  null_falsy := rfl

/-- A template on a branch, one with a condition inside of another, and content for a slot. -/
def guardedTemplate : Template :=
  .ofRoot [.plain "p" [.text "set" "if" "no"] [],
    .plain "template" [.bare "set" "else"] [.plain "b" [] [], .plain "slot" [] [.name "x"]],
    .plain "template" [.text "set" "if" "yes"]
      [.plain "template" [.text "set" "if" "no"] [.name "x", .plain "i" [] []]],
    .plain "x-foo" [.text "bind" "onclick" "a.b"] [.name "y"]]

theorem renders_markup_guarded :
    ∃ compiled, (compile .default guardedTemplate).1 = .ok compiled ∧
      ∃ v, compiled.module.render sampleHost = some v ∧
        guardedTemplate.render sampleHost {} = some v := by
  have hnames : (compile .default guardedTemplate).1.toOption.map (fun c =>
      hoistedNames c.module.function.declarations) = some ["_expr0", "_expr1"] := by
    decide +kernel
  obtain ⟨compiled, hc, -⟩ := exists_ok_of_map hnames
  exact ⟨compiled, hc, renders_markup hc rfl (by decide) ⟨fun _ _ => rfl, fun _ _ => rfl⟩⟩

end TemplateCompiler
