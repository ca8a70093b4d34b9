import TemplateCompiler.Proofs.Evaluation

/-!
# Hosts that never fail

If every read gives something, then every expression comes to a value, and so does whatever a node
renders: a lowering has read all its contents, so that none is missing.
-/

namespace TemplateCompiler

variable {α : Type} {host : Host α} {env : Env} {config : Config} {K : Context} {n n' : Numbering}

/-- A host that never fails to read. -/
structure Host.Total (host : Host α) : Prop where
  member : ∀ v name, (host.member v name).isSome
  index : ∀ v key, (host.index v key).isSome

theorem isSome_bind {β γ : Type} {o : Option β} {f : β → Option γ} (ho : o.isSome)
    (hf : ∀ b, (f b).isSome) : (o.bind f).isSome := by
  obtain ⟨b, rfl⟩ := Option.isSome_iff_exists.1 ho
  exact hf b

theorem isSome_mapM {β γ : Type} {f : β → Option γ} {l : List β} (h : ∀ b ∈ l, (f b).isSome) :
    (l.mapM f).isSome := by
  rw [Option.isSome_iff_ne_none, ne_eq, mapM_eq_none_iff]
  rintro ⟨b, hb, hnone⟩
  simpa [hnone] using h b hb

/-! ## Contents -/

namespace Host.Total

variable (h : host.Total)
include h

theorem read (v : Value α) (name : String) : (host.read v name).isSome := by
  cases v with
  | service => rfl
  | _ => exact h.member _ _

theorem expr : ∀ e : Expr, (e.render host).isSome
  | .name _ id => h.read _ id
  | .member _ value id => isSome_bind (expr value) fun v => h.read v id
  | .index _ value key => isSome_bind (expr value) fun v => isSome_bind (expr key) (h.index v)
  | .constant .. => rfl
  | .foreign .. => rfl

theorem term (t : Term) : (t.render host).isSome := by
  cases t with
  | constant => rfl
  | expression e => exact h.expr e
  | dashed => exact h.index _ _

theorem style (t : Term) : (t.renderStyle host).isSome := by
  unfold Term.renderStyle
  split
  · rfl
  · exact h.term t

theorem callback (t : Term) : (t.renderCallback host).isSome := by
  unfold Term.renderCallback
  split
  · exact h.term _
  · exact isSome_bind (h.term t) fun _ => rfl

end Host.Total

/-- What a reading holds is a constant or a binding. -/
def Reading.Readable : Reading → Prop
  | .property p => (p.content.term? p.directive.isSome).isSome
  | .condition content => (content.term? true).isSome
  | .component content => (content.term? false).isSome
  | .iteration _ | .alternative _ | .slot _ => True

theorem LowersReadings.readable {bound : String → Bool} {site : Site} {isComponent : Bool}
    {readings : List Reading} {parts : List Part}
    (h : LowersReadings env K bound site isComponent readings parts n n') :
    ∀ reading ∈ readings, reading.Readable := by
  induction h with
  | nil => simp
  | cons head _ ih =>
    refine List.forall_mem_cons.2 ⟨?_, ih⟩
    cases head with
    | property lowers =>
      cases lowers with
      | callback reads | value reads => simp [Reading.Readable, reads]
    | component reads | condition reads => simp [Reading.Readable, reads]
    | iteration | alternative | slot => trivial

namespace Host.Total

variable (h : host.Total)
include h

theorem property {p : Property} (hp : (Reading.property p).Readable) (isComponent : Bool) :
    (p.render host isComponent).isSome := by
  rw [Property.render, Option.isSome_map]
  refine isSome_bind hp fun t => ?_
  split
  · exact h.callback t
  · split
    · exact h.style t
    · exact h.term t

theorem content {content : Content} {isDirective : Bool}
    (hc : (content.term? isDirective).isSome) : (content.render host isDirective).isSome :=
  isSome_bind hc h.term

variable {readings : List Reading} (hreadings : ∀ reading ∈ readings, reading.Readable)
include hreadings

theorem attributes (isComponent : Bool) :
    (Reading.renderAttributes host isComponent readings).isSome := by
  rw [Reading.renderAttributes, Option.isSome_map]
  refine isSome_mapM fun p hp => h.property ?_ isComponent
  obtain ⟨reading, hr, hsome⟩ := List.mem_filterMap.1 hp
  cases reading <;> simp at hsome
  exact hsome ▸ hreadings _ hr

theorem condition :
    ∀ test ∈ (Reading.condition? readings).map (Content.render host true), test.isSome := by
  intro test htest
  obtain ⟨content, hcontent, rfl⟩ := Option.map_eq_some_iff.1 htest
  obtain ⟨reading, hr, hsome⟩ := List.exists_of_findSome?_eq_some hcontent
  cases reading <;> simp at hsome
  exact h.content (hsome ▸ hreadings _ hr)

theorem component (hcomponent : (Reading.component? readings).isSome) :
    (Reading.renderComponent host readings).isSome := by
  obtain ⟨content, hcontent⟩ := Option.isSome_iff_exists.1 hcomponent
  obtain ⟨reading, hr, hsome⟩ := List.exists_of_findSome?_eq_some hcontent
  cases reading <;> simp at hsome
  rw [Reading.renderComponent, hcontent, Option.bind_eq_bind, Option.bind_some]
  split
  · rfl
  · exact h.content (hsome ▸ hreadings _ hr)

end Host.Total

namespace Contribution

theorem isSome_children {contributions : List (Contribution α)}
    (h : ∀ c ∈ contributions, c.value.isSome) : (children contributions).isSome := by
  rw [children, Option.isSome_map]
  exact isSome_mapM h

theorem isSome_slotset {config : Config} {contributions : List (Contribution α)}
    (h : ∀ c ∈ contributions, c.value.isSome) : (slotset config contributions).isSome := by
  unfold slotset
  split
  · rfl
  · rw [Option.isSome_map]
    refine isSome_mapM fun slot _ => ?_
    rw [Option.isSome_map]
    exact isSome_children fun c hc => h c (List.mem_filter.1 hc).1

theorem isSome_guarded {condition : Option (Option (Value α))}
    {contributions : List (Contribution α)} (hc : ∀ test ∈ condition, test.isSome)
    (h : ∀ c ∈ contributions, c.value.isSome) :
    ∀ c ∈ guarded host condition contributions, c.value.isSome := by
  rcases condition with _ | test
  · exact h
  · intro c hmem
    obtain ⟨inner, hinner, rfl⟩ := List.mem_map.1 hmem
    refine isSome_bind (hc test rfl) fun v => ?_
    split
    · exact h inner hinner
    · rfl

end Contribution

theorem isSome_chosen {condition : Option (Option (Value α))} {value : Option (Value α)}
    {branch : Option (Option (Value α))} (hc : ∀ test ∈ condition, test.isSome)
    (hvalue : value.isSome) (hbranch : ∀ v ∈ branch, v.isSome) :
    (chosen host condition value branch).isSome := by
  rcases condition with _ | test
  · exact hvalue
  · refine isSome_bind (hc test rfl) fun v => ?_
    split
    · exact hvalue
    · rcases branch with _ | b
      · rfl
      · exact hbranch b rfl

theorem isSome_callPrimitive {name : String} (h : name ∈ Host.makers) (arguments : List (Value α)) :
    (host.callPrimitive name arguments).isSome := by
  unfold Host.callPrimitive
  rw [if_pos (List.contains_iff_mem.2 h)]
  rfl

theorem isSome_component_of_dynamic {tag : Tag} {readings : List Reading}
    (h : elementKind tag readings = .dynamic) : (Reading.component? readings).isSome := by
  unfold elementKind ElementKind.ofTag at h
  split at h
  · simp at h
  · split_ifs at h
    assumption

theorem Host.Total.element (h : host.Total) {tag : Tag} {readings : List Reading}
    (hreadings : ∀ reading ∈ readings, reading.Readable) {contributions : List (Contribution α)}
    (hc : ∀ c ∈ contributions, c.value.isSome) :
    (makeElement host config tag readings contributions (elementKind tag readings)).isSome := by
  have hchildren := Contribution.isSome_children hc
  have hattributes := h.attributes hreadings
  rcases hkind : elementKind tag readings with _ | _ | ns | _ | _ | _
  case dynamic =>
    exact isSome_bind (h.component hreadings (isSome_component_of_dynamic hkind)) fun _ =>
      isSome_bind (hattributes true) fun _ => isSome_bind hchildren fun _ =>
        isSome_callPrimitive (by decide) _
  case custom =>
    exact isSome_bind (hattributes true) fun _ =>
      isSome_bind (Contribution.isSome_slotset hc) fun _ => isSome_callPrimitive (by decide) _
  all_goals
    exact isSome_bind (hattributes _) fun _ => isSome_bind hchildren fun _ =>
      isSome_callPrimitive (by decide) _

/-! ## Nodes -/

/-- A row of nodes that renders something wherever it is asked to. -/
structure Rendered.Total (r : Rendered α) : Prop where
  branch : ∀ v ∈ r.branch, v.isSome
  contributions : ∀ c ∈ r.contributions, c.value.isSome

namespace Rendered.Total

variable {rest : Rendered α} (h : rest.Total)
include h

theorem branched {value : Option (Value α)} (hvalue : value.isSome) :
    Rendered.Total ⟨some value, rest.contributions⟩ :=
  ⟨by simpa using hvalue, h.contributions⟩

theorem append {contributions : List (Contribution α)}
    (hc : ∀ c ∈ contributions, c.value.isSome) :
    Rendered.Total ⟨none, contributions ++ rest.contributions⟩ :=
  ⟨by simp, List.forall_mem_append.2 ⟨hc, h.contributions⟩⟩

theorem cons {c : Contribution α} (hc : c.value.isSome) :
    Rendered.Total ⟨none, c :: rest.contributions⟩ :=
  ⟨by simp, List.forall_mem_cons.2 ⟨hc, h.contributions⟩⟩

end Rendered.Total

theorem Host.Total.renderElement (h : host.Total) {tag : Tag} {readings : List Reading}
    (hreadings : ∀ reading ∈ readings, reading.Readable) {inner : List (Contribution α)}
    (hinner : ∀ c ∈ inner, c.value.isSome) {rest : Rendered α} (hrest : rest.Total) :
    (renderElement host config tag readings inner rest).Total := by
  have hcondition := h.condition hreadings
  have hguarded : ∀ c ∈ Contribution.guarded host
      ((Reading.condition? readings).map (Content.render host true)) inner, c.value.isSome :=
    Contribution.isSome_guarded hcondition hinner
  unfold TemplateCompiler.renderElement
  dsimp only
  split
  · split
    · exact hrest.branched (Contribution.isSome_children hguarded)
    · refine hrest.append fun c hc => ?_
      obtain ⟨kept, hkept, rfl⟩ := List.mem_map.1 hc
      exact hguarded kept hkept
  · refine hrest.cons ?_
    unfold renderOutlet
    dsimp only
    split
    · rfl
    · exact Contribution.isSome_children hinner
  · split
    · exact hrest.branched (isSome_chosen hcondition (h.element hreadings hinner) hrest.branch)
    · exact hrest.cons (isSome_chosen hcondition (h.element hreadings hinner) hrest.branch)

theorem LowersElement.total {binders : List Binder} {place : Place} {pos : Position} {tag : Tag}
    {attributes : List Attribute} {children : List Node} {sibling : Sibling}
    {ds : List Declaration}
    (h : LowersElement env K binders place pos tag attributes children sibling ds n n')
    (htotal : host.Total)
    (hchildren : ∀ {binders siblings ds n n'},
      LowersNodes env K binders place 0 children siblings ds n n' →
      ∀ rest, rest.Total → (renderNodes host env.config children rest).Total) :
    ∀ rest, rest.Total →
      (renderNode host env.config (.element pos tag attributes children) rest).Total := by
  intro rest hrest
  cases h with
  | mk reads _ lowersReadings lowersChildren =>
    rw [renderNode, Node.readings, reads]
    exact htotal.renderElement lowersReadings.readable
      (hchildren lowersChildren ⟨none, []⟩ ⟨by simp, by simp⟩).contributions hrest

mutual

theorem LowersNode.total (htotal : host.Total) :
    ∀ {node : Node} {binders around before siblings ds n n'},
      LowersNode env K binders around before node siblings ds n n' →
      ∀ rest : Rendered α, rest.Total → (renderNode host env.config node rest).Total
  | .text .., _, _, _, _, _, _, _, _, rest, hrest => by
    simp only [renderNode]
    split
    · exact hrest
    · exact hrest.cons rfl
  | .placeholder _ none, _, _, _, _, _, _, _, _, _, hrest => hrest
  | .placeholder _ (some e), _, _, _, _, _, _, _, _, _, hrest =>
    hrest.cons (isSome_bind (htotal.expr e) fun _ => isSome_callPrimitive (by decide) _)
  | .fragment _ children, _, _, _, _, _, _, _, h, rest, hrest => by
    cases h with
    | fragment lowersChildren => exact LowersNodes.total htotal lowersChildren rest hrest
  | .element _ _ _ children, _, _, _, _, _, _, _, h, rest, hrest => by
    cases h with
    | element lowers =>
      exact lowers.total htotal (fun h => LowersNodes.total htotal h) rest hrest
  | .literal .., _, _, _, _, _, _, _, _, _, hrest => hrest
  | .attr .., _, _, _, _, _, _, _, _, _, hrest => hrest
  | .template .., _, _, _, _, _, _, _, _, _, hrest => hrest

theorem LowersNodes.total (htotal : host.Total) :
    ∀ {nodes : List Node} {binders around before siblings ds n n'},
      LowersNodes env K binders around before nodes siblings ds n n' →
      ∀ rest : Rendered α, rest.Total → (renderNodes host env.config nodes rest).Total
  | [], _, _, _, _, _, _, _, _, _, hrest => hrest
  | node :: _, _, _, _, _, _, _, _, h, rest, hrest => by
    cases h with
    | cons head tail =>
      exact LowersNode.total htotal head _ (LowersNodes.total htotal tail rest hrest)

end

end TemplateCompiler
