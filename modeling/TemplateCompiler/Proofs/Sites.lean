import Mathlib.Data.List.SplitBy
import TemplateCompiler.Proofs.Glue
import TemplateCompiler.Proofs.Place

/-!
# Where lowered code comes from

What a sibling brings with it comes from inside the element it is made from. Of two siblings the
later is made from a later element, and so an alternative comes from inside an element that is an
else of the elements with an if before it (`LowersNodes.located`).
-/

namespace TemplateCompiler

/-- A mention taken over from no site of the template, or from one with a property. -/
def AtSite (P : Site → Prop) (m : Mention) : Prop :=
  ∀ s, m.site = some s → P s

/-- The code that is put together when a sibling is finished, but for what its loop declares. -/
def Form.All (Q : Mention → Prop) : Form → Prop
  | .fixed => True
  | .spliced items => ItemsAll Q items
  | .guarded condition => condition.All Q
  | .repeated loop _ condition => loop.iterable.All Q ∧ ∀ test ∈ condition, test.All Q

structure Sibling.All (Q : Mention → Prop) (s : Sibling) : Prop where
  code : s.item.code.All Q
  form : s.form.All Q

theorem Sibling.All.imp {Q R : Mention → Prop} {s : Sibling} (h : s.All Q)
    (himp : ∀ m, Q m → R m) : s.All R := by
  refine ⟨h.code.imp himp, ?_⟩
  have hform := h.form
  revert hform
  cases s.form with
  | fixed => exact id
  | spliced items => exact fun h i hi => (h i hi).imp himp
  | guarded condition => exact fun h => h.imp himp
  | repeated loop ds condition =>
    exact fun h => ⟨h.1.imp himp, fun test htest => (h.2 test htest).imp himp⟩

variable {env : Env} {K : Context} {P P' : Site → Prop} {n n' : Numbering}

theorem glues_atSite : Glues env K (AtSite P) :=
  fun _ _ _ h => nomatch h

theorem AtSite.imp {m : Mention} (h : AtSite P m) (himp : ∀ s, P s → P' s) : AtSite P' m :=
  fun s hs => himp s (h s hs)

theorem atSite_own (name : String) : AtSite P (.own name) :=
  fun _ h => nomatch h

/-! ## Finishing -/

theorem Iterates.atSite {loop : Loop} {body code : Code} {flatten : Bool}
    {ds outer : List Declaration}
    (h : Iterates env.config loop body flatten ds code outer n n')
    (hi : loop.iterable.All (AtSite P)) (hb : body.All (AtSite P)) : code.All (AtSite P) := by
  have glue : Glues env .initial (AtSite P) := glues_atSite
  have hcall : ∀ function : Code, function.All (AtSite P) →
      (iterationCall env.config loop function flatten).All (AtSite P) := by
    intro function hf
    refine glue.assembles.iterationCall ((all_callPrimitive glue).2 ?_)
    simpa using ⟨hi, hf⟩
  cases h with
  | inline => exact hcall _ (Code.all_lambda.2 hb)
  | declared => exact hcall _ (Code.all_ref.2 (atSite_own _))

theorem FinishesSibling.atSite {s : Sibling} {alternative : Option Item} {item : Item}
    {ds : List Declaration} (h : FinishesSibling env.config s alternative item ds n n')
    (hs : s.All (AtSite P)) (ha : ∀ i ∈ alternative, i.code.All (AtSite P)) :
    item.code.All (AtSite P) := by
  have glue : Glues env .initial (AtSite P) := glues_atSite
  have hform := hs.form
  cases h with
  | fixed | spliced => exact hs.code
  | guarded form =>
    rw [form] at hform
    exact all_choose glue hform hs.code ha
  | repeated form iterates =>
    rw [form] at hform
    exact iterates.atSite hform.1 hs.code
  | filtered form iterates =>
    rw [form] at hform
    exact iterates.atSite hform.1 (all_choose glue (hform.2 _ rfl) hs.code ha)

theorem finishing_atSite : Finishing env.config (Sibling.All (AtSite P)) (fun _ => True)
    (fun i => i.code.All (AtSite P)) where
  sibling h hs ha := ⟨fun _ _ => trivial, h.atSite hs ha⟩
  spliced form hs := by
    have hform := hs.form
    rwa [form] at hform

/-! ## Elements -/

theorem GuardsItems.atSite {condition : Option Code} {items kept : List Item}
    {ds : List Declaration} (h : GuardsItems condition items kept ds n n')
    (hi : ItemsAll (AtSite P) items) : ItemsAll (AtSite P) kept := by
  cases h with
  | unconditional => exact hi
  | nothing => exact hi
  | guarded =>
    intro i hi'
    obtain ⟨j, hj, rfl⟩ := List.mem_map.1 hi'
    simpa [CompileM.guardItem, atSite_own] using hi j hj

theorem OpensLoop.place_eq {config : Config} {binders : List Binder} {place : Place}
    {readings : List Reading} {loop : Loop}
    (h : OpensLoop config binders place readings (some loop)) : loop.place = place := by
  cases h
  rfl

theorem SealsElement.atSite {pos : Position} {tag : Tag} {readings : List Reading}
    {parts : List Part} {items : List Item} {ds outer : List Declaration} {kind : ElementKind}
    {loop : Option Loop} {sibling : Sibling}
    (h : SealsElement env.config K pos tag readings parts items ds kind loop sibling outer n n')
    (hparts : PartsAll (Code.All (AtSite P)) parts) (hitems : ItemsAll (AtSite P) items)
    (hloop : ∀ l ∈ loop, l.iterable.All (AtSite P)) : sibling.All (AtSite P) := by
  have glue : Glues env K (AtSite P) := glues_atSite
  cases h with
  | spliced guarded =>
    have hkept := guarded.atSite hitems
    exact ⟨glue.assembles.assemble hkept, hkept⟩
  | iterated guarded iterates =>
    have hkept := guarded.atSite hitems
    exact ⟨iterates.atSite (hloop _ rfl) (glue.assembles.iteratedBody hkept), trivial⟩
  | outlet => exact ⟨all_outletCode glue hitems, trivial⟩
  | fixed _ calls => exact ⟨calls.all glue hparts hitems, trivial⟩
  | guarded condition calls => exact ⟨calls.all glue hparts hitems, hparts.condition condition⟩
  | repeated calls =>
    exact ⟨calls.all glue hparts hitems, hloop _ rfl, fun _ htest => hparts.condition htest⟩

theorem LowersElement.atSite {binders : List Binder} {place : Place} {pos : Position} {tag : Tag}
    {attributes : List Attribute} {children : List Node} {sibling : Sibling}
    {ds : List Declaration}
    (h : LowersElement env K binders place pos tag attributes children sibling ds n n')
    (hchildren : ∀ {binders siblings ds n n'},
      LowersNodes env K binders place 0 children siblings ds n n' →
      ∀ s ∈ siblings, s.All (AtSite fun s => place <+: s.place)) :
    sibling.All (AtSite fun s => place <+: s.place) := by
  have glue : Glues env K (AtSite fun s => place <+: s.place) := glues_atSite
  have hterm : ∀ (inIterable : Bool) (bound : String → Bool) id, bound id →
      AtSite (fun s => place <+: s.place) ⟨[], [], id, some ⟨place, inIterable⟩⟩ := by
    rintro inIterable bound id - s hs
    obtain rfl := Option.some.inj hs
    exact List.prefix_rfl
  cases h with
  | mk reads opens lowersReadings lowersChildren finishes seals =>
    refine seals.atSite (lowersReadings.all (glue.attributive (hterm false _)))
      (finishing_atSite.chains finishes ?_).2 ?_
    · intro s hs
      rw [Sibling.chains, List.flatten_splitBy] at hs
      exact hchildren lowersChildren s hs
    · intro l hl
      cases opens with
      | once => simp at hl
      | repeated _ _ _ =>
        obtain rfl := Option.some.inj hl
        exact Term.all_code glue _ (hterm true _)

mutual

theorem LowersNode.atSite :
    ∀ {node : Node} {binders around before siblings ds n n'},
      LowersNode env K binders around before node siblings ds n n' →
      ∀ s ∈ siblings, s.All (AtSite fun s => around <+: s.place)
  | .text .., _, _, _, _, _, _, _, h, s, hs => by
    cases h with
    | blank => simp at hs
    | text =>
      rw [List.mem_singleton] at hs
      subst hs
      exact ⟨Code.all_text, trivial⟩
  | .placeholder .., _, around, _, _, _, _, _, h, s, hs => by
    cases h with
    | nothing => simp at hs
    | placeholder =>
      rw [List.mem_singleton] at hs
      subst hs
      have glue : Glues env K (AtSite fun s => around <+: s.place) := glues_atSite
      refine ⟨?_, trivial⟩
      rw [all_callPrimitive glue, List.forall_mem_singleton]
      refine all_qualify glue ?_ _
      rintro id - s hs
      obtain rfl := Option.some.inj hs
      exact List.prefix_rfl
  | .fragment _ children, _, _, _, _, _, _, _, h, s, hs => by
    cases h with
    | fragment lowersChildren => exact LowersNodes.atSite lowersChildren s hs
  | .element _ _ _ children, _, around, _, _, _, _, _, h, s, hs => by
    cases h with
    | element lowers =>
      rw [List.mem_singleton] at hs
      subst hs
      have hin := lowers.atSite fun h => LowersNodes.atSite h
      exact hin.imp fun m hm => hm.imp fun s hs => (List.prefix_append around _).trans hs
  | .literal .., _, _, _, _, _, _, _, h, _, _ => nomatch h
  | .attr .., _, _, _, _, _, _, _, h, _, _ => nomatch h
  | .template .., _, _, _, _, _, _, _, h, _, _ => nomatch h

theorem LowersNodes.atSite :
    ∀ {nodes : List Node} {binders around before siblings ds n n'},
      LowersNodes env K binders around before nodes siblings ds n n' →
      ∀ s ∈ siblings, s.All (AtSite fun s => around <+: s.place)
  | [], _, _, _, _, _, _, _, h, s, hs => by
    cases h
    simp at hs
  | node :: rest, _, _, _, _, _, _, _, h, s, hs => by
    cases h with
    | cons head tail =>
      rcases List.mem_append.1 hs with hs | hs
      · exact LowersNode.atSite head s hs
      · exact LowersNodes.atSite tail s hs

end

/-! ## Earlier and later elements -/

/-- Elements that stand at an element's place one after the other, from a number on. -/
def Template.Shows (t : Template) (around : Place) (before : Nat) (elements : List Node) : Prop :=
  ∀ i e, elements[i]? = some e → t.elementAt? (around ++ [before + i]) = some e

theorem Template.Shows.left {t : Template} {around : Place} {before : Nat} {es es' : List Node}
    (h : t.Shows around before (es ++ es')) : t.Shows around before es := by
  intro i e he
  refine h i e ?_
  rw [List.getElem?_append_left (List.getElem?_eq_some_iff.1 he).1, he]

theorem Template.Shows.right {t : Template} {around : Place} {before : Nat} {es es' : List Node}
    (h : t.Shows around before (es ++ es')) : t.Shows around (before + es.length) es' := by
  intro i e he
  have := h (es.length + i) e (by rw [List.getElem?_append_right (by omega)]; simpa using he)
  rwa [← Nat.add_assoc] at this

theorem Template.shows_children {t : Template} {place : Place} {pos : Position} {tag : Tag}
    {attributes : List Attribute} {children : List Node}
    (h : t.elementAt? place = some (.element pos tag attributes children)) :
    t.Shows place 0 (elementsOf children) := by
  intro i e he
  rw [Nat.zero_add, t.elementAt?_append, h]
  exact he

theorem Template.readingsAt_element {config : Config} {t : Template} {place : Place}
    {pos : Position} {tag : Tag} {attributes : List Attribute} {children : List Node}
    {readings : List Reading}
    (h : t.elementAt? place = some (.element pos tag attributes children))
    (hread : Reading.ofAttributes config [] attributes = .ok readings) :
    t.readingsAt config place = readings := by
  simp [Template.readingsAt, h, Node.readings, hread]

/-- A loop repeats for what the markup repeats for at its place. -/
theorem OpensLoop.binder_eq {config : Config} {t : Template} {binders : List Binder}
    {place : Place} {readings : List Reading} {loop : Loop}
    (h : OpensLoop config binders place readings (some loop))
    (hread : t.readingsAt config place = readings) : loop.binder = t.binderAt config place := by
  cases h with
  | repeated reads _ binder =>
    simp [Loop.binder, Template.binderAt, hread, Reading.parameters, reads, binder]

theorem LowersReading.condition_of_mem {bound : String → Bool} {site : Site} {isComponent : Bool}
    {reading : Reading} {parts : List Part} {code : Code}
    (h : LowersReading env K bound site isComponent reading parts n n')
    (hc : .condition code ∈ parts) : reading.isCondition := by
  cases h <;> simp at hc
  rfl

theorem LowersReading.alternative_of_mem {bound : String → Bool} {site : Site} {isComponent : Bool}
    {reading : Reading} {parts : List Part}
    (h : LowersReading env K bound site isComponent reading parts n n')
    (ha : .alternative ∈ parts) : reading.isAlternative := by
  cases h <;> simp at ha
  rfl

theorem LowersReadings.exists_reading {bound : String → Bool} {site : Site} {isComponent : Bool}
    {readings : List Reading} {parts : List Part}
    (h : LowersReadings env K bound site isComponent readings parts n n') {part : Part}
    (hp : part ∈ parts) : ∃ reading ∈ readings, ∃ ps n n', part ∈ ps ∧
      LowersReading env K bound site isComponent reading ps n n' := by
  induction h with
  | nil => simp at hp
  | cons head _ ih =>
    rcases List.mem_append.1 hp with hp | hp
    · exact ⟨_, List.mem_cons_self, _, _, _, hp, head⟩
    · obtain ⟨reading, hr, rest⟩ := ih hp
      exact ⟨reading, List.mem_cons_of_mem _ hr, rest⟩

theorem LowersReadings.any_isCondition {bound : String → Bool} {site : Site} {isComponent : Bool}
    {readings : List Reading} {parts : List Part} {code : Code}
    (h : LowersReadings env K bound site isComponent readings parts n n')
    (hc : Part.condition? parts = some code) : readings.any Reading.isCondition := by
  obtain ⟨part, hpart, hsome⟩ := List.exists_of_findSome?_eq_some hc
  cases part <;> simp at hsome
  obtain ⟨reading, hr, ps, _, _, hps, hl⟩ := h.exists_reading hpart
  exact List.any_eq_true.2 ⟨reading, hr, hl.condition_of_mem hps⟩

theorem LowersReadings.any_isAlternative {bound : String → Bool} {site : Site} {isComponent : Bool}
    {readings : List Reading} {parts : List Part}
    (h : LowersReadings env K bound site isComponent readings parts n n')
    (ha : Part.isAlternative parts) : readings.any Reading.isAlternative := by
  obtain ⟨part, hpart, hsome⟩ := List.any_eq_true.1 ha
  cases part <;> simp at hsome
  obtain ⟨reading, hr, ps, _, _, hps, hl⟩ := h.exists_reading hpart
  exact List.any_eq_true.2 ⟨reading, hr, hl.alternative_of_mem hps⟩

/-- The element a sibling is made from, as far as it matters to its chain: it stands between two
numbers, and what an alternative brings with it comes from inside it. -/
structure Sibling.Located (config : Config) (t : Template) (around : Place) (first last : Nat)
    (s : Sibling) : Prop where
  repeats : ∀ loop ds test, s.form = .repeated loop ds (some test) →
    ∃ i, first ≤ i ∧ i < last ∧ loop.place = around ++ [i] ∧
      (t.readingsAt config loop.place).any Reading.isCondition
  alternative : s.isAlternative → ∃ j, first ≤ j ∧ j < last ∧
    (t.readingsAt config (around ++ [j])).any Reading.isAlternative ∧
    s.All (AtSite fun site => around ++ [j] <+: site.place)

theorem Sibling.Located.widen {config : Config} {t : Template} {around : Place}
    {first last first' last' : Nat} {s : Sibling} (h : s.Located config t around first last)
    (hf : first' ≤ first) (hl : last ≤ last') : s.Located config t around first' last' := by
  constructor
  · intro loop ds test hform
    obtain ⟨i, hi, hi', rest⟩ := h.repeats loop ds test hform
    exact ⟨i, by omega, by omega, rest⟩
  · intro ha
    obtain ⟨j, hj, hj', rest⟩ := h.alternative ha
    exact ⟨j, by omega, by omega, rest⟩

/-- An alternative that stands behind an iteration with a condition is in an else of it. -/
def Sibling.Beside (config : Config) (t : Template) (s next : Sibling) : Prop :=
  ∀ loop ds test, s.form = .repeated loop ds (some test) → next.isAlternative →
    next.All (AtSite (t.InElseOf config loop.place))

theorem Sibling.Located.beside {config : Config} {t : Template} {around : Place}
    {first middle last : Nat} {s next : Sibling} (h : s.Located config t around first middle)
    (h' : next.Located config t around middle last) : s.Beside config t next := by
  intro loop ds test hform ha
  obtain ⟨i, -, hi, hplace, hif⟩ := h.repeats loop ds test hform
  obtain ⟨j, hj, -, helse, hin⟩ := h'.alternative ha
  exact hin.imp fun m hm => hm.imp fun site hsite =>
    ⟨around, i, j, hplace, by omega, hsite, hif, helse⟩

theorem Sibling.located_fixed {config : Config} {t : Template} {around : Place}
    {first last : Nat} {item : Item} {pos : Position} :
    Sibling.Located config t around first last { item, pos } :=
  ⟨fun _ _ _ hform => by simp at hform, fun ha => by simp at ha⟩

theorem LowersElement.located {t : Template} {binders : List Binder} {around : Place} {i : Nat}
    {pos : Position} {tag : Tag} {attributes : List Attribute} {children : List Node}
    {sibling : Sibling} {ds : List Declaration}
    (h : LowersElement env K binders (around ++ [i]) pos tag attributes children sibling ds n n')
    (ht : t.elementAt? (around ++ [i]) = some (.element pos tag attributes children)) :
    sibling.Located env.config t around i (i + 1) := by
  have hin := h.atSite fun h => LowersNodes.atSite h
  cases h with
  | mk reads opens lowersReadings lowersChildren finishes seals =>
    have hreadings := Template.readingsAt_element ht reads
    have hif : ∀ {test}, Part.condition? _ = some test → _ := lowersReadings.any_isCondition
    have helse := fun ha => lowersReadings.any_isAlternative ha
    generalize elementKind tag _ = kind at seals
    cases seals with
    | spliced | iterated | fixed | guarded =>
      refine ⟨fun _ _ _ hform => by simp at hform, fun ha => ⟨i, le_rfl, by omega, ?_, hin⟩⟩
      rw [hreadings]
      exact helse ha
    | outlet => exact ⟨fun _ _ _ hform => by simp at hform, fun ha => by simp at ha⟩
    | repeated =>
      refine ⟨fun loop _ test hform => ⟨i, le_rfl, by omega, ?_⟩,
        fun ha => ⟨i, le_rfl, by omega, ?_, hin⟩⟩
      · simp only [Form.repeated.injEq] at hform
        obtain ⟨rfl, -, hc⟩ := hform
        rw [opens.place_eq, hreadings]
        exact ⟨rfl, hif hc⟩
      · rw [hreadings]
        exact helse ha

mutual

theorem LowersNode.located {t : Template} :
    ∀ {node : Node} {binders around before siblings ds n n'},
      LowersNode env K binders around before node siblings ds n n' →
      t.Shows around before node.elements →
      (∀ s ∈ siblings,
        s.Located env.config t around before (before + node.elements.length)) ∧
      siblings.Pairwise (Sibling.Beside env.config t)
  | .text .., _, _, _, _, _, _, _, h, _ => by
    cases h with
    | blank => simp
    | text => simp [Sibling.located_fixed]
  | .placeholder .., _, _, _, _, _, _, _, h, _ => by
    cases h with
    | nothing => simp
    | placeholder => simp [Sibling.located_fixed]
  | .fragment _ children, _, _, _, _, _, _, _, h, ht => by
    cases h with
    | fragment lowersChildren => exact LowersNodes.located lowersChildren ht
  | .element _ _ _ children, _, _, _, _, _, _, _, h, ht => by
    cases h with
    | element lowers =>
      simp only [List.mem_singleton, forall_eq, List.pairwise_singleton, and_true]
      exact lowers.located (ht 0 _ rfl)
  | .literal .., _, _, _, _, _, _, _, h, _ => nomatch h
  | .attr .., _, _, _, _, _, _, _, h, _ => nomatch h
  | .template .., _, _, _, _, _, _, _, h, _ => nomatch h

theorem LowersNodes.located {t : Template} :
    ∀ {nodes : List Node} {binders around before siblings ds n n'},
      LowersNodes env K binders around before nodes siblings ds n n' →
      t.Shows around before (elementsOf nodes) →
      (∀ s ∈ siblings,
        s.Located env.config t around before (before + (elementsOf nodes).length)) ∧
      siblings.Pairwise (Sibling.Beside env.config t)
  | [], _, _, _, _, _, _, _, h, _ => by
    cases h
    simp
  | node :: rest, _, _, _, _, _, _, _, h, ht => by
    cases h with
    | cons head tail =>
      rw [elementsOf] at ht
      obtain ⟨hhead, hpair⟩ := LowersNode.located head ht.left
      obtain ⟨htail, hpair'⟩ := LowersNodes.located tail ht.right
      constructor
      · intro s hs
        rw [elementsOf, List.length_append]
        rcases List.mem_append.1 hs with hs | hs
        · exact (hhead s hs).widen le_rfl (by omega)
        · exact (htail s hs).widen (by omega) (by omega)
      · refine List.pairwise_append.2 ⟨hpair, hpair', fun s hs next hnext => ?_⟩
        exact (hhead s hs).beside (htail next hnext)

end

end TemplateCompiler
