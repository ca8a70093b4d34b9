import Mathlib.Data.List.SplitBy
import TemplateCompiler.Proofs.Mentions

/-!
# Hoisted names are bound once

Every name that a statement binds was taken from the numbering, and each number is taken once. A
declaration waits with its sibling until that is finished, so what waits is counted with what is
queued: neither has a name more often than it was issued meanwhile.
-/

namespace TemplateCompiler

/-- The names issued so far for statements. -/
def Numbering.issued (n : Numbering) : List String :=
  (List.range n.temporaries).map (CompileM.numberedName "expr") ++
    (List.range n.loops).map (CompileM.numberedName "loop")

theorem Numbering.nodup_issued (n : Numbering) : n.issued.Nodup := by
  refine List.nodup_append.2 ⟨?_, ?_, ?_⟩
  · exact List.nodup_range.map fun _ _ => CompileM.numberedName_inj
  · exact List.nodup_range.map fun _ _ => CompileM.numberedName_inj
  · intro name hname name' hname' h
    obtain ⟨i, -, rfl⟩ := List.mem_map.1 hname
    obtain ⟨j, -, rfl⟩ := List.mem_map.1 hname'
    exact CompileM.numberedName_ne i j h

theorem Numbering.isNumbered_of_mem_issued {n : Numbering} {name : String} (h : name ∈ n.issued) :
    Component.isNumbered name := by
  rcases List.mem_append.1 h with h | h
  · obtain ⟨i, -, rfl⟩ := List.mem_map.1 h
    exact Component.isNumbered_numberedName (.inl rfl) i
  · obtain ⟨i, -, rfl⟩ := List.mem_map.1 h
    exact Component.isNumbered_numberedName (.inr rfl) i

/-- The names that statements bind, those inside of loop functions included. -/
def boundNames (ds : List Declaration) : List String :=
  (statementHoistings ds).map Mention.name

theorem boundNames_append (ds ds' : List Declaration) :
    boundNames (ds ++ ds') = boundNames ds ++ boundNames ds' := by
  rw [boundNames, statementHoistings_append, List.map_append, boundNames, boundNames]

theorem boundNames_assign (name : String) (value : Code) :
    boundNames [.assign name value] = [name] := rfl

theorem boundNames_define (f : Function) :
    boundNames [.define f] = f.name :: boundNames f.declarations := by
  simp [boundNames, statementHoistings, Declaration.hoistings, Function.hoistings_eq,
    Function.bodyHoistings, Mention.own, Function.comp_def]

theorem hoistedNames_sublist : ∀ ds : List Declaration, (hoistedNames ds).Sublist (boundNames ds)
  | [] => .slnil
  | .assign name value :: ds => by
    rw [← List.singleton_append, boundNames_append, hoistedNames_append]
    exact (List.Sublist.refl _).append (hoistedNames_sublist ds)
  | .define f :: ds => by
    rw [← List.singleton_append, boundNames_append, hoistedNames_append, boundNames_define]
    exact ((List.nil_sublist _).cons_cons f.name).append (hoistedNames_sublist ds)

/-- The statements that wait with a sibling. -/
def Sibling.held (s : Sibling) : List Declaration :=
  match s.form with
  | .repeated _ ds _ => ds
  | .fixed | .spliced _ | .guarded _ => []

def heldNames (siblings : List Sibling) : List String :=
  siblings.flatMap fun s => boundNames s.held

@[simp]
theorem heldNames_nil : heldNames [] = [] := rfl

theorem heldNames_cons (s : Sibling) (siblings : List Sibling) :
    heldNames (s :: siblings) = boundNames s.held ++ heldNames siblings := rfl

theorem heldNames_append (siblings siblings' : List Sibling) :
    heldNames (siblings ++ siblings') = heldNames siblings ++ heldNames siblings' :=
  List.flatMap_append

variable {env : Env} {K : Context} {config : Config} {n n' : Numbering}

/-! ## Steps -/

theorem Numbering.count_withTemporary (n : Numbering) (x : String) :
    n.withTemporary.issued.count x = n.issued.count x + [n.temporary].count x := by
  simp only [issued, withTemporary, temporary, List.range_succ, List.map_append, List.count_append,
    List.map_cons, List.map_nil]
  omega

theorem Numbering.count_withLoop (n : Numbering) (x : String) :
    n.withLoop.issued.count x = n.issued.count x + [n.loop].count x := by
  simp only [issued, withLoop, loop, List.range_succ, List.map_append, List.count_append,
    List.map_cons, List.map_nil]
  omega

theorem LowersReadings.issued_eq {bound : String → Bool} {site : Site} {isComponent : Bool}
    {readings : List Reading} {parts : List Part}
    (h : LowersReadings env K bound site isComponent readings parts n n') :
    n'.issued = n.issued := by
  induction h with
  | nil => rfl
  | cons head _ ih =>
    refine ih.trans ?_
    cases head with
    | property lowers =>
      cases lowers with
      | callback _ _ callback =>
        cases callback with
        | kept => rfl
        | passed => rfl
      | value => rfl
    | iteration | slot | component | condition | alternative => rfl

theorem Iterates.count_le {loop : Loop} {body code : Code} {flatten : Bool}
    {ds outer : List Declaration} (h : Iterates config loop body flatten ds code outer n n')
    (x : String) :
    (boundNames outer).count x + n.issued.count x ≤
      (boundNames ds).count x + n'.issued.count x := by
  cases h with
  | inline => exact Nat.le_refl _
  | declared =>
    rw [boundNames_define, ← List.singleton_append, List.count_append, n.count_withLoop]
    dsimp only
    omega

theorem FinishesSibling.count_le {s : Sibling} {alternative : Option Item} {item : Item}
    {ds : List Declaration} (h : FinishesSibling config s alternative item ds n n') (x : String) :
    (boundNames ds).count x + n.issued.count x ≤
      (boundNames s.held).count x + n'.issued.count x := by
  cases h with
  | fixed form | spliced form | guarded form => simp [Sibling.held, form]
  | repeated form iterates | filtered form iterates =>
    simpa [Sibling.held, form] using iterates.count_le x

theorem FinishesBranches.count_le {siblings : List Sibling} {item : Option Item}
    {ds : List Declaration} (h : FinishesBranches config siblings item ds n n') (x : String) :
    (boundNames ds).count x + n.issued.count x ≤
      (heldNames siblings).count x + n'.issued.count x := by
  induction h with
  | nil => exact Nat.le_refl _
  | cons _ head ih =>
    have := head.count_le x
    rw [boundNames_append, heldNames_cons, List.count_append, List.count_append]
    omega

theorem FinishesChain.count_le {chain : List Sibling} {items : List Item} {ds : List Declaration}
    (h : FinishesChain config chain items ds n n') (x : String) :
    (boundNames ds).count x + n.issued.count x ≤
      (heldNames chain).count x + n'.issued.count x := by
  cases h with
  | nil => exact Nat.le_refl _
  | spliced =>
    have : boundNames [] = [] := rfl
    simp [this]
  | branches _ _ branches => exact branches.count_le x

theorem FinishesChains.count_le {chains : List (List Sibling)} {items : List Item}
    {ds : List Declaration} (h : FinishesChains config chains items ds n n') (x : String) :
    (boundNames ds).count x + n.issued.count x ≤
      (heldNames chains.flatten).count x + n'.issued.count x := by
  induction h with
  | nil => exact Nat.le_refl _
  | cons head _ ih =>
    have := head.count_le x
    rw [boundNames_append, List.flatten_cons, heldNames_append, List.count_append,
      List.count_append]
    omega

theorem GuardsItems.count_le {condition : Option Code} {items kept : List Item}
    {ds : List Declaration} (h : GuardsItems condition items kept ds n n') (x : String) :
    (boundNames ds).count x + n.issued.count x ≤ n'.issued.count x := by
  have hnil : boundNames [] = [] := rfl
  cases h with
  | unconditional | nothing => simp [hnil]
  | guarded =>
    rw [boundNames_assign, n.count_withTemporary]
    omega

theorem SealsElement.count_le {pos : Position} {tag : Tag} {readings : List Reading}
    {parts : List Part} {items : List Item} {ds outer : List Declaration} {kind : ElementKind}
    {loop : Option Loop} {sibling : Sibling}
    (h : SealsElement config K pos tag readings parts items ds kind loop sibling outer n n')
    (x : String) :
    (boundNames outer).count x + (boundNames sibling.held).count x + n.issued.count x ≤
      (boundNames ds).count x + n'.issued.count x := by
  have hnil : boundNames [] = [] := rfl
  cases h with
  | spliced guarded =>
    have := guarded.count_le x
    simp only [Sibling.held, hnil, List.count_nil, boundNames_append, List.count_append]
    omega
  | iterated guarded iterates =>
    have hguards := guarded.count_le x
    have hiterates := iterates.count_le x
    simp only [Sibling.held, hnil, List.count_nil, boundNames_append, List.count_append]
      at hiterates ⊢
    omega
  | outlet | fixed | guarded => simp [Sibling.held, hnil]
  | repeated => simp [Sibling.held, hnil]

/-! ## Nodes -/

theorem LowersElement.count_le {binders : List Binder} {place : Place} {pos : Position} {tag : Tag}
    {attributes : List Attribute} {children : List Node} {sibling : Sibling}
    {ds : List Declaration} {x : String}
    (h : LowersElement env K binders place pos tag attributes children sibling ds n n')
    (hchildren : ∀ {binders siblings ds n n'},
      LowersNodes env K binders place 0 children siblings ds n n' →
      (boundNames ds).count x + (heldNames siblings).count x + n.issued.count x ≤
        n'.issued.count x) :
    (boundNames ds).count x + (boundNames sibling.held).count x + n.issued.count x ≤
      n'.issued.count x := by
  cases h with
  | mk reads opens lowersReadings lowersChildren finishes seals =>
    have hlowers := hchildren lowersChildren
    have hfinishes := finishes.count_le x
    have hseals := seals.count_le x
    rw [lowersReadings.issued_eq] at hlowers
    rw [Sibling.chains, List.flatten_splitBy] at hfinishes
    rw [boundNames_append, List.count_append] at hseals
    omega

mutual

theorem LowersNode.count_le {x : String} :
    ∀ {node : Node} {binders around before siblings ds n n'},
      LowersNode env K binders around before node siblings ds n n' →
      (boundNames ds).count x + (heldNames siblings).count x + n.issued.count x ≤ n'.issued.count x
  | .text .., _, _, _, _, _, _, _, h => by
    cases h with
    | blank | text => exact Nat.le_of_eq (Nat.zero_add _)
  | .placeholder .., _, _, _, _, _, _, _, h => by
    cases h with
    | nothing | placeholder => exact Nat.le_of_eq (Nat.zero_add _)
  | .fragment _ children, _, _, _, _, _, _, _, h => by
    cases h with
    | fragment lowersChildren => exact LowersNodes.count_le lowersChildren
  | .element _ _ _ children, _, _, _, _, _, _, _, h => by
    cases h with
    | element lowers =>
      have := lowers.count_le fun h => LowersNodes.count_le (x := x) h
      simpa [heldNames_cons] using this
  | .literal .., _, _, _, _, _, _, _, h => nomatch h
  | .attr .., _, _, _, _, _, _, _, h => nomatch h
  | .template .., _, _, _, _, _, _, _, h => nomatch h

theorem LowersNodes.count_le {x : String} :
    ∀ {nodes : List Node} {binders around before siblings ds n n'},
      LowersNodes env K binders around before nodes siblings ds n n' →
      (boundNames ds).count x + (heldNames siblings).count x + n.issued.count x ≤ n'.issued.count x
  | [], _, _, _, _, _, _, _, h => by
    cases h
    exact Nat.le_of_eq (Nat.zero_add _)
  | node :: rest, _, _, _, _, _, _, _, h => by
    cases h with
    | cons head tail =>
      have hhead := LowersNode.count_le (x := x) head
      have htail := LowersNodes.count_le (x := x) tail
      rw [boundNames_append, heldNames_append, List.count_append, List.count_append]
      omega

end

/-! ## Layers -/

/-- A mention whose layers hoist names that statements bind, in some module, elsewhere too. -/
structure Mention.Among (names : List String) (m : Mention) : Prop where
  earlier : ∀ layer ∈ m.within, layer.earlier ⊆ layer.hoisted
  count_le : ∀ x, (m.within.flatMap Layer.hoisted).count x ≤ names.count x

theorem Mention.among_own {names : List String} {name : String} : (Mention.own name).Among names :=
  ⟨by simp [Mention.own], by simp [Mention.own]⟩

namespace Code

mutual

/-- Functions within an expression hoist nothing. -/
theorem mentions_among : ∀ code : Code, ∀ m ∈ code.mentions, m.Among []
  | .ref id, m, hm => by
    rw [mentions, List.mem_singleton] at hm
    exact hm ▸ Mention.among_own
  | .name _ _ id, m, hm => by
    rw [mentions, List.mem_singleton] at hm
    exact hm ▸ ⟨by simp, by simp⟩
  | .member _ value _, m, hm => mentions_among value m hm
  | .index _ value key, m, hm =>
    (List.mem_append.1 hm).elim (mentions_among value m) (mentions_among key m)
  | .constant .., m, hm => by simp [mentions] at hm
  | .foreign .., m, hm => by simp [mentions] at hm
  | .call callee arguments, m, hm =>
    (List.mem_append.1 hm).elim (mentions_among callee m) (listMentions_among arguments m)
  | .dict entries, m, hm => entryMentions_among entries m hm
  | .list items, m, hm => listMentions_among items m hm
  | .conditional test body alternative, m, hm =>
    (List.mem_append.1 hm).elim
      (fun hm => (List.mem_append.1 hm).elim (mentions_among test m) (mentions_among body m))
      (mentions_among alternative m)
  | .and left right, m, hm | .or left right, m, hm =>
    (List.mem_append.1 hm).elim (mentions_among left m) (mentions_among right m)
  | .lambda place parameters body, m, hm => by
    obtain ⟨m', hm', rfl⟩ := List.mem_map.1 hm
    have h := mentions_among body m' hm'
    constructor
    · intro layer hl
      rw [Mention.within_leave, List.mem_append, List.mem_singleton] at hl
      rcases hl with hl | rfl
      · exact h.earlier layer hl
      · simp
    · intro x
      simpa using h.count_le x

theorem listMentions_among : ∀ codes : List Code, ∀ m ∈ listMentions codes, m.Among []
  | [], m, hm => by simp [listMentions] at hm
  | code :: rest, m, hm =>
    (List.mem_append.1 hm).elim (mentions_among code m) (listMentions_among rest m)

theorem entryMentions_among :
    ∀ entries : List (String × Code), ∀ m ∈ entryMentions entries, m.Among []
  | [], m, hm => by simp [entryMentions] at hm
  | (_, code) :: rest, m, hm =>
    (List.mem_append.1 hm).elim (mentions_among code m) (entryMentions_among rest m)

end

end Code

theorem Mention.Among.mono {names names' : List String} {m : Mention} (h : m.Among names)
    (hsub : ∀ x, names.count x ≤ names'.count x) : m.Among names' :=
  ⟨h.earlier, fun x => (h.count_le x).trans (hsub x)⟩

/-- Leaving a function adds the names that its own statements bind. -/
theorem Mention.Among.leave {m : Mention} {place : Place} {parameters : List String}
    {names hoisted : List String} (h : m.Among names) (he : m.earlier ⊆ hoisted) :
    (m.leave place parameters hoisted).Among (hoisted ++ names) := by
  constructor
  · intro layer hl
    rw [Mention.within_leave, List.mem_append, List.mem_singleton] at hl
    rcases hl with hl | rfl
    · exact h.earlier layer hl
    · exact he
  · intro x
    have := h.count_le x
    simp only [Mention.within_leave, List.flatMap_append, List.flatMap_cons, List.flatMap_nil,
      List.append_nil, List.count_append]
    omega

/-- The result of a function comes after all of its statements. -/
theorem resultMentions_among (ds : List Declaration) (result : Code) :
    ∀ m ∈ result.mentions.map (Mention.after (hoistedNames ds)),
      m.earlier ⊆ hoistedNames ds ∧ ∃ names, m.Among names ∧
        ∀ x, (hoistedNames ds ++ names).count x ≤ (boundNames ds).count x := by
  intro m hm
  obtain ⟨m', hm', rfl⟩ := List.mem_map.1 hm
  have hamong := Code.mentions_among result m' hm'
  refine ⟨List.Subset.refl _, [], ⟨hamong.earlier, hamong.count_le⟩, fun x => ?_⟩
  rw [List.append_nil]
  exact (hoistedNames_sublist ds).count_le x

mutual

theorem Function.mentions_among : ∀ f : Function, ∀ m ∈ f.mentions,
    m.Among (boundNames f.declarations)
  | ⟨_, place, parameters, ds, result⟩, m, hm => by
    rw [Function.mentions] at hm
    obtain ⟨m', hm', rfl⟩ := List.mem_map.1 hm
    rcases List.mem_append.1 hm' with hm' | hm'
    · obtain ⟨he, names, hamong, hcount⟩ := statementMentions_among [] ds m' hm'
      exact (hamong.leave he).mono hcount
    · obtain ⟨he, names, hamong, hcount⟩ := resultMentions_among ds result m' hm'
      exact (hamong.leave he).mono hcount

theorem Declaration.mentions_among :
    ∀ d : Declaration, ∀ m ∈ d.mentions, ∃ names, m.Among names ∧
      ∀ x, [d.name].count x + names.count x ≤ (boundNames [d]).count x
  | .assign name value, m, hm =>
    ⟨[], Code.mentions_among value m hm, fun x => by simp [boundNames_assign, Declaration.name]⟩
  | .define f, m, hm => by
    refine ⟨_, Function.mentions_among f m hm, fun x => ?_⟩
    rw [boundNames_define, ← List.count_append]
    rfl

theorem statementMentions_among :
    ∀ (earlier : List String) (ds : List Declaration), ∀ m ∈ statementMentions earlier ds,
      m.earlier ⊆ earlier ++ hoistedNames ds ∧ ∃ names, m.Among names ∧
        ∀ x, (hoistedNames ds ++ names).count x ≤ (boundNames ds).count x
  | _, [], m, hm => by simp [statementMentions] at hm
  | earlier, d :: rest, m, hm => by
    rw [statementMentions, List.mem_append] at hm
    rw [← List.singleton_append, boundNames_append, hoistedNames_append]
    rcases hm with hm | hm
    · obtain ⟨m', hm', rfl⟩ := List.mem_map.1 hm
      obtain ⟨names, hamong, hcount⟩ := Declaration.mentions_among d m' hm'
      refine ⟨by simp, names, ⟨hamong.earlier, hamong.count_le⟩, fun x => ?_⟩
      have hx := hcount x
      have hrest := (hoistedNames_sublist rest).count_le x
      simp only [List.count_append, hoistedNames, List.map_cons, List.map_nil] at hx hrest ⊢
      omega
    · obtain ⟨he, names, hamong, hcount⟩ := statementMentions_among _ rest m hm
      refine ⟨by simpa [hoistedNames] using he, names, hamong, fun x => ?_⟩
      have hx := hcount x
      have hd := (hoistedNames_sublist [d]).count_le x
      simp only [List.count_append] at hx hd ⊢
      omega

end

theorem Function.map_name_hoistings (f : Function) :
    f.hoistings.map Mention.name = boundNames f.declarations := by
  simp [Function.hoistings_eq, Function.bodyHoistings, boundNames, Function.comp_def]

/-- What stands before a mention in a body, or around it in the layers, is bound by the body. -/
theorem Function.bodyMentions_among (f : Function) :
    ∀ m ∈ f.bodyMentions, m.earlier ⊆ hoistedNames f.declarations ∧ ∃ names, m.Among names ∧
      ∀ x, (hoistedNames f.declarations ++ names).count x ≤
        (boundNames f.declarations).count x := by
  intro m hm
  rcases List.mem_append.1 hm with hm | hm
  · simpa using statementMentions_among [] f.declarations m hm
  · exact resultMentions_among f.declarations f.result m hm

/-- What a function around a mention hoists is bound by the function it is seen from. -/
theorem Function.mem_boundNames_of_hoisted {f : Function} {m : Mention} (hm : m ∈ f.mentions)
    {layer : Layer} (hl : layer ∈ m.within) {x : String} (hx : x ∈ layer.hoisted) :
    x ∈ boundNames f.declarations := by
  have hle := (Function.mentions_among f m hm).count_le x
  have hpos := List.count_pos_iff.2 (List.mem_flatMap.2 ⟨layer, hl, hx⟩)
  exact List.count_pos_iff.1 (by omega)

theorem Function.mem_boundNames {f : Function} {m : Mention} (hm : m ∈ f.bodyMentions) {x : String}
    (hx : x ∈ m.earlier ∨ ∃ layer ∈ m.within, x ∈ layer.earlier) :
    x ∈ boundNames f.declarations := by
  obtain ⟨he, names, hamong, hcount⟩ := f.bodyMentions_among m hm
  have hle := hcount x
  rw [← List.count_pos_iff]
  rw [List.count_append] at hle
  rcases hx with hx | ⟨layer, hl, hx⟩
  · have := List.count_pos_iff.2 (he hx)
    omega
  · have hmem : x ∈ m.within.flatMap Layer.hoisted :=
      List.mem_flatMap.2 ⟨layer, hl, hamong.earlier layer hl hx⟩
    have := List.count_pos_iff.2 hmem
    have := hamong.count_le x
    omega

end TemplateCompiler
