import TemplateCompiler.Proofs.Tally

/-!
# Conditionals with an else

Finishing a row of siblings makes one conditional with an else for each else in the row, with the
sibling in front of it (`FinishesChains.exists_choices`). What is counted in the row is what its
members come to, and those conditionals.
-/

namespace TemplateCompiler

variable {env : Env} {config : Config} {K : Context} {p : Code → Bool} {n n' : Numbering}

/-! ## What is made is something -/

/-- Code that makes something, though that may be nothing to show. -/
def Item.IsMade (i : Item) : Prop :=
  i.code.isNothing = false

/-- A sibling that makes something, and that is its items if these are spliced. -/
structure Sibling.IsMade (config : Config) (s : Sibling) : Prop where
  item : s.item.IsMade
  spliced : ∀ items, s.form = .spliced items →
    s.item.code = Item.assemble config items ∧ ∀ i ∈ items, i.IsMade

theorem isMade_iterationCall (loop : Loop) (function : Code) (flatten : Bool) :
    (iterationCall config loop function flatten).isNothing = false := by
  unfold iterationCall
  cases flatten <;> rfl

theorem Iterates.isMade {loop : Loop} {body code : Code} {flatten : Bool}
    {ds outer : List Declaration} (h : Iterates config loop body flatten ds code outer n n') :
    code.isNothing = false := by
  cases h <;> exact isMade_iterationCall _ _ _

theorem FinishesSibling.isMade {s : Sibling} {alternative : Option Item} {item : Item}
    {ds : List Declaration} (h : FinishesSibling config s alternative item ds n n')
    (hs : s.IsMade config) : item.IsMade := by
  cases h with
  | fixed | spliced => exact hs.item
  | guarded => rfl
  | repeated _ iterates | filtered _ iterates => exact iterates.isMade

theorem finishing_isMade :
    Finishing config (Sibling.IsMade config) (fun _ => True) Item.IsMade where
  sibling h hs _ := ⟨fun _ _ => trivial, h.isMade hs⟩
  spliced form hs := (hs.spliced _ form).2

section

variable {items : List Item} (hitems : ∀ i ∈ items, i.IsMade)

include hitems

theorem isMade_assemble : (Item.assemble config items).isNothing = false := by
  obtain ⟨item, rfl, heq⟩ | heq | heq := Item.assemble_cases config items
  · rw [heq]
    exact hitems item List.mem_cons_self
  · rw [heq]
    rfl
  · rw [heq]
    rfl

theorem GuardsItems.isMade {condition : Option Code} {kept : List Item} {ds : List Declaration}
    (h : GuardsItems condition items kept ds n n') : ∀ i ∈ kept, i.IsMade := by
  cases h with
  | unconditional => exact hitems
  | nothing => simp
  | guarded => exact List.forall_mem_map.2 fun _ _ => rfl

end

theorem SealsElement.isMade {pos : Position} {tag : Tag} {readings : List Reading}
    {parts : List Part} {items : List Item} {ds outer : List Declaration} {kind : ElementKind}
    {loop : Option Loop} {sibling : Sibling}
    (h : SealsElement config K pos tag readings parts items ds kind loop sibling outer n n')
    (hitems : ∀ i ∈ items, i.IsMade) : sibling.IsMade config := by
  cases h with
  | spliced guarded =>
    have hkept := guarded.isMade hitems
    refine ⟨isMade_assemble hkept, fun items hform => ?_⟩
    obtain rfl := Form.spliced.inj hform
    exact ⟨rfl, hkept⟩
  | iterated _ iterates => exact ⟨iterates.isMade, by simp⟩
  | outlet => exact ⟨rfl, by simp⟩
  | fixed _ calls | guarded _ calls | repeated calls =>
    refine ⟨?_, by simp⟩
    cases calls <;> rfl

theorem LowersElement.isMade {binders : List Binder} {place : Place} {pos : Position} {tag : Tag}
    {attributes : List Attribute} {children : List Node} {sibling : Sibling}
    {ds : List Declaration}
    (h : LowersElement env K binders place pos tag attributes children sibling ds n n')
    (hchildren : ∀ {binders siblings ds n n'},
      LowersNodes env K binders place 0 children siblings ds n n' →
        ∀ s ∈ siblings, s.IsMade env.config) : sibling.IsMade env.config := by
  cases h with
  | mk _ _ _ lowersChildren finishes seals =>
    refine seals.isMade (finishing_isMade.chains finishes ?_).2
    rw [Sibling.chains, List.flatten_splitBy]
    exact hchildren lowersChildren

mutual

theorem LowersNode.isMade :
    ∀ {node : Node} {binders around before siblings ds n n'},
      LowersNode env K binders around before node siblings ds n n' →
        ∀ s ∈ siblings, s.IsMade env.config
  | .text .., _, _, _, _, _, _, _, h => by
    cases h with
    | blank => simp
    | text => exact List.forall_mem_singleton.2 ⟨rfl, by simp⟩
  | .placeholder .., _, _, _, _, _, _, _, h => by
    cases h with
    | nothing => simp
    | placeholder => exact List.forall_mem_singleton.2 ⟨rfl, by simp⟩
  | .fragment _ children, _, _, _, _, _, _, _, h => by
    cases h with
    | fragment lowersChildren => exact LowersNodes.isMade lowersChildren
  | .element .., _, _, _, _, _, _, _, h => by
    cases h with
    | element lowers =>
      exact List.forall_mem_singleton.2 (lowers.isMade fun h => LowersNodes.isMade h)
  | .literal .., _, _, _, _, _, _, _, h => nomatch h
  | .attr .., _, _, _, _, _, _, _, h => nomatch h
  | .template .., _, _, _, _, _, _, _, h => nomatch h

theorem LowersNodes.isMade :
    ∀ {nodes : List Node} {binders around before siblings ds n n'},
      LowersNodes env K binders around before nodes siblings ds n n' →
        ∀ s ∈ siblings, s.IsMade env.config
  | [], _, _, _, _, _, _, _, h => by
    cases h
    simp
  | node :: rest, _, _, _, _, _, _, _, h => by
    cases h with
    | cons head tail =>
      exact List.forall_mem_append.2 ⟨LowersNode.isMade head, LowersNodes.isMade tail⟩

end

/-! ## Elses of a row -/

namespace Display

/-- The else that a row begins with, read with those that follow it. -/
def branch? : List Display → Option (List Layout)
  | [] => none
  | d :: rest => if d.isAlternative then some (d.layouts (branch? rest)) else none

/-- The elses of a row, each with what is in front of it. -/
def elses (owner : Option Display) : List Display → List (Option Display × List Layout)
  | [] => []
  | d :: rest => ((branch? (d :: rest)).map fun branch => (owner, branch)).toList ++
      elses (some d) rest

theorem branch_foldr : ∀ (ds : List Display) (rest : List Contributed),
    (ds.foldr before ⟨none, rest⟩).branch = branch? ds
  | [], _ => rfl
  | d :: ds, rest => by
    rw [List.foldr_cons, before, branch?, ← branch_foldr ds rest]
    split
    · rfl
    · split <;> rfl

theorem branch?_append {ds' : List Display} (h : branch? ds' = none) :
    ∀ ds : List Display, branch? (ds ++ ds') = branch? ds
  | [] => h
  | d :: ds => by rw [List.cons_append, branch?, branch?, branch?_append h ds]

theorem elses_eq (ds : List Display) (owner : Option Display) :
    elses owner ds = ((branch? ds).map fun branch => (owner, branch)).toList ++
      elses ds.head? ds.tail := by
  cases ds <;> rfl

theorem elses_of_branch?_eq_none {ds : List Display} (h : branch? ds = none)
    (owner owner' : Option Display) : elses owner ds = elses owner' ds := by
  cases ds with
  | nil => rfl
  | cons d rest => rw [elses, elses, h]; rfl

/-- What does not begin with an else has nothing to do with what is in front of it. -/
theorem elses_append {ds' : List Display} (h : branch? ds' = none) :
    ∀ (ds : List Display) (owner : Option Display),
      elses owner (ds ++ ds') = elses owner ds ++ elses none ds'
  | [], owner => elses_of_branch?_eq_none h owner none
  | d :: ds, owner => by
    rw [List.cons_append, elses, elses, ← List.cons_append, branch?_append h, elses_append h ds,
      List.append_assoc]

end Display

section

variable {t : Template} {m : Module}

/-- A conditional that is made of a display and of the else behind it. -/
inductive Chooses (env : Env) (t : Template) (m : Module) :
    Code → Option Display × List Layout → Prop where
  | mk {test body other d iteration place node ls branch used used'}
      (form : d.form = .chosen iteration (.condition place node) ls)
      (tests : node.Tests env t place test) (reads : Reads env t m body ls used)
      (readsElse : Reads env t m other branch used') (made : other.isNothing = false) :
      Chooses env t m (.conditional test body other) (some d, branch)

theorem ReadsSibling.exists_choice {s : Sibling} {r : Display × Multiset Function} {i : Item}
    {branch : List Layout} {used : Multiset Function} (h : ReadsSibling env t m s r)
    (htakes : s.takesAlternative) (hi : i.IsMade) (ha : Reads env t m i.code branch used) :
    ∃ choice, s.choice? (some i) = some choice ∧ Chooses env t m choice (some r.1, branch) := by
  have hform := h.form
  unfold Sibling.choice? Sibling.test?
  unfold Sibling.takesAlternative at htakes
  generalize s.form = form at hform htakes
  generalize hd : r.1.form = form' at hform
  generalize r.2 = used at hform
  cases hform with
  | fixed | spliced | repeated => simp at htakes
  | guarded _ tests reads | filtered _ _ _ tests _ reads =>
    exact ⟨_, rfl, .mk hd tests reads ha hi⟩

/-- A sibling is put in a conditional with an else just if there is one behind it. -/
theorem FinishesBranches.exists_choice {s : Sibling} {rest : List Sibling}
    {alternative : Option Item} {ds : List Declaration} {r : Display × Multiset Function}
    {rs : List (Display × Multiset Function)}
    (h : FinishesBranches env.config rest alternative ds n n') (hr : ReadsSibling env t m s r)
    (hs : List.Forall₂ (ReadsSibling env t m) rest rs)
    (hmade : ∀ s ∈ rest, s.IsMade env.config)
    (hchain : (s :: rest).IsChain fun s next => s.continues next) :
    List.Forall₂ (Chooses env t m) (s.choice? alternative).toList
      ((Display.branch? (rs.map Prod.fst)).map fun branch => (some r.1, branch)).toList := by
  obtain ⟨branch, declared, -, hbranch, hbefore⟩ := h.reads hs hchain.tail
  have hdisplayed := hbefore (Sibling.isAlternative_of_isChain hchain) []
  rw [← Display.branch_foldr _ [], hdisplayed]
  generalize usedBy rs + declared = used at hbranch
  cases hbranch with
  | absent =>
    unfold Sibling.choice?
    cases s.test? <;> exact .nil
  | present reads =>
    have htakes : s.takesAlternative := by
      by_contra hnot
      simpa using h.eq_none_of_isChain hchain (by simpa using hnot)
    have hitem := (finishing_isMade.branches h hmade).2 _ rfl
    obtain ⟨choice, hchoice, hchooses⟩ := hr.exists_choice htakes hitem reads
    rw [hchoice]
    exact .cons hchooses .nil

end

/-! ## Chains -/

/-- What finishing makes of a row: nothing is lost, and conditionals are made. Wherever the row
reads as displays, there is one for each else among them. -/
structure MakesChoices (env : Env) (siblings : List Sibling) (items : List Item)
    (ds : List Declaration) (elses : List Display → List (Option Display × List Layout))
    (made : List Code) : Prop where
  tally : ∀ p, Counts env.config p →
    itemsTally p items + statementsTally p ds = rowTally p siblings + made.countP p
  conditional : ∀ code ∈ made, code.isConditional
  chosen : ∀ {t m rs}, List.Forall₂ (ReadsSibling env t m) siblings rs →
    List.Forall₂ (Chooses env t m) made (elses (rs.map Prod.fst))

theorem Sibling.isConditional_of_choice? {s : Sibling} {alternative : Option Item} {code : Code}
    (h : s.choice? alternative = some code) : code.isConditional := by
  unfold choice? at h
  split at h
  · obtain rfl := Option.some.inj h
    rfl
  · nomatch h

theorem FinishesBranches.exists_choices {siblings : List Sibling} {item : Option Item}
    {ds : List Declaration} (h : FinishesBranches env.config siblings item ds n n')
    (hmade : ∀ s ∈ siblings, s.IsMade env.config)
    (hchain : siblings.IsChain fun s next => s.continues next) :
    ∃ made, MakesChoices env siblings item.toList ds
      (fun displays => Display.elses displays.head? displays.tail) made := by
  induction h with
  | nil =>
    refine ⟨[], fun _ _ => rfl, by simp, fun hs => ?_⟩
    cases hs
    exact .nil
  | @cons s rest alternative item _ _ _ _ _ tail head ih =>
    rw [List.forall_mem_cons] at hmade
    obtain ⟨made, hrest⟩ := ih hmade.2 hchain.tail
    refine ⟨(s.choice? alternative).toList ++ made, fun p hp => ?_, ?_, fun hs => ?_⟩
    · have htail := hrest.tally p hp
      have hhead := head.tally_eq hp (fun items hform => (hmade.1.spliced items hform).1)
        (tail.eq_none_of_isChain hchain)
      have hitem : itemsTally p (some item).toList = item.code.tally p := by simp [itemsTally]
      rw [alternativeTally] at hhead
      rw [statementsTally_append, hitem, List.countP_append, rowTally, List.map_cons,
        List.sum_cons, ← rowTally]
      omega
    · refine List.forall_mem_append.2 ⟨fun code hcode => ?_, hrest.conditional⟩
      exact Sibling.isConditional_of_choice? (Option.mem_toList.1 hcode)
    · cases hs with
      | cons hr hrs =>
        simp only [List.map_cons, List.head?_cons, List.tail_cons]
        rw [Display.elses_eq]
        exact List.rel_append (tail.exists_choice hr hrs hmade.2 hchain) (hrest.chosen hrs)

theorem FinishesChain.exists_choices {chain : List Sibling} {items : List Item}
    {ds : List Declaration} (h : FinishesChain env.config chain items ds n n')
    (hmade : ∀ s ∈ chain, s.IsMade env.config)
    (hchain : chain.IsChain fun s next => s.continues next) :
    ∃ made, MakesChoices env chain items ds (Display.elses none) made := by
  cases h with
  | nil =>
    refine ⟨[], fun _ _ => rfl, by simp, fun hs => ?_⟩
    cases hs
    exact .nil
  | @spliced s rest kept _ head form =>
    obtain rfl := Sibling.eq_nil_of_isChain hchain (by rw [Sibling.takesAlternative, form])
    refine ⟨[], fun p hp => ?_, by simp, fun hs => ?_⟩
    · rw [itemsTally_inSlot]
      simp [rowTally, Sibling.tally, form, statementsTally, allDeclarations]
    · cases hs with
      | cons hr hnil =>
        cases hnil
        simp [Display.elses, Display.branch?, hr.isAlternative, head]
  | branches head _ branches =>
    obtain ⟨made, hmakes⟩ := branches.exists_choices hmade hchain
    refine ⟨made, hmakes.tally, hmakes.conditional, fun hs => ?_⟩
    have hchosen := hmakes.chosen hs
    cases hs with
    | cons hr hrs =>
      rw [List.map_cons, Display.elses, Display.branch?, hr.isAlternative, head]
      exact hchosen

theorem FinishesChains.exists_choices {chains : List (List Sibling)} {items : List Item}
    {ds : List Declaration} (h : FinishesChains env.config chains items ds n n')
    (hmade : ∀ s ∈ chains.flatten, s.IsMade env.config)
    (hchains : ∀ chain ∈ chains, chain.IsChain fun s next => s.continues next) :
    ∃ made, MakesChoices env chains.flatten items ds (Display.elses none) made := by
  induction h with
  | nil =>
    refine ⟨[], fun _ _ => rfl, by simp, fun hs => ?_⟩
    cases hs
    exact .nil
  | @cons chain chains _ _ _ _ _ _ _ head tail ih =>
    rw [List.forall_mem_cons] at hchains
    rw [List.flatten_cons, List.forall_mem_append] at hmade
    obtain ⟨made, hmakes⟩ := head.exists_choices hmade.1 hchains.1
    obtain ⟨made', hmakes'⟩ := ih hmade.2 hchains.2
    refine ⟨made ++ made', fun p hp => ?_, ?_, fun {t m rs} hs => ?_⟩
    · have hfirst := hmakes.tally p hp
      have hrest := hmakes'.tally p hp
      rw [List.flatten_cons, rowTally_append, statementsTally_append, List.countP_append,
        itemsTally, List.map_append, List.sum_append, ← itemsTally, ← itemsTally]
      omega
    · exact List.forall_mem_append.2 ⟨hmakes.conditional, hmakes'.conditional⟩
    · obtain ⟨rs₁, rs₂, rfl, hhead, htail⟩ : ∃ rs₁ rs₂, rs = rs₁ ++ rs₂ ∧
          List.Forall₂ (ReadsSibling env t m) chain rs₁ ∧
          List.Forall₂ (ReadsSibling env t m) chains.flatten rs₂ :=
        ⟨_, _, (List.take_append_drop chain.length rs).symm,
          (List.forall₂_take_append rs chain chains.flatten hs.flip).flip,
          (List.forall₂_drop_append rs chain chains.flatten hs.flip).flip⟩
      -- a chain begins with no else, so it has nothing to do with the one in front of it
      have hnone : Display.branch? (rs₂.map Prod.fst) = none := by
        obtain ⟨qs, declared, hqs⟩ := tail.reads htail hchains.2
        rw [← Display.branch_foldr _ [], hqs.displayed]
      rw [List.map_append, Display.elses_append hnone]
      exact List.rel_append (hmakes.chosen hhead) (hmakes'.chosen htail)

/-! ## Numbers -/

theorem Iterates.memos_eq {loop : Loop} {body code : Code} {flatten : Bool}
    {ds outer : List Declaration} (h : Iterates config loop body flatten ds code outer n n') :
    n'.memos = n.memos := by
  cases h <;> rfl

theorem FinishesSibling.memos_eq {s : Sibling} {alternative : Option Item} {item : Item}
    {ds : List Declaration} (h : FinishesSibling config s alternative item ds n n') :
    n'.memos = n.memos := by
  cases h with
  | fixed | spliced | guarded => rfl
  | repeated _ iterates | filtered _ iterates => exact iterates.memos_eq

theorem FinishesBranches.memos_eq {siblings : List Sibling} {item : Option Item}
    {ds : List Declaration} (h : FinishesBranches config siblings item ds n n') :
    n'.memos = n.memos := by
  induction h with
  | nil => rfl
  | cons _ head ih => exact head.memos_eq.trans ih

theorem FinishesChains.memos_eq {chains : List (List Sibling)} {items : List Item}
    {ds : List Declaration} (h : FinishesChains config chains items ds n n') :
    n'.memos = n.memos := by
  induction h with
  | nil => rfl
  | cons head _ ih =>
    refine ih.trans ?_
    cases head with
    | nil | spliced => rfl
    | branches _ _ branches => exact branches.memos_eq

theorem GuardsItems.memos_eq {condition : Option Code} {items kept : List Item}
    {ds : List Declaration} (h : GuardsItems condition items kept ds n n') :
    n'.memos = n.memos := by
  cases h <;> rfl

theorem SealsElement.memos_eq {pos : Position} {tag : Tag} {readings : List Reading}
    {parts : List Part} {items : List Item} {ds outer : List Declaration} {kind : ElementKind}
    {loop : Option Loop} {sibling : Sibling}
    (h : SealsElement config K pos tag readings parts items ds kind loop sibling outer n n') :
    n'.memos = n.memos := by
  cases h with
  | spliced guarded => exact guarded.memos_eq
  | iterated guarded iterates => exact iterates.memos_eq.trans guarded.memos_eq
  | outlet | fixed | guarded | repeated => rfl

/-! ## Elements -/

/-- What is counted in an element, from how it is lowered, with the conditionals that are made for
the elses among its children. Only attributes take memo keys, its own and those of its children. -/
structure TalliesElement (env : Env) (K : Context) (binders : List Binder) (place : Place)
    (tag : Tag) (attributes : List Attribute) (children : List Node) (sibling : Sibling)
    (ds : List Declaration) (readings : List Reading) (loop : Option Loop) (parts : List Part)
    (siblings : List Sibling) (inner : List Declaration) (made : List Code)
    (n n₁ n₂ n' : Numbering) : Prop where
  reads : Reading.ofAttributes env.config [] attributes = .ok readings
  opens : OpensLoop env.config binders place readings loop
  lowersReadings : LowersReadings env K (binds (inside loop binders)) ⟨place, false⟩
    (elementKind tag readings).isComponent readings parts n n₁
  lowersChildren : LowersNodes env K (inside loop binders) place 0 children siblings inner n₁ n₂
  memos : n'.memos = n₂.memos
  conditional : ∀ code ∈ made, code.isConditional
  chosen : ∀ {t m rs}, List.Forall₂ (ReadsSibling env t m) siblings rs →
    List.Forall₂ (Chooses env t m) made (Display.elses none (rs.map Prod.fst))
  tally : ∀ p, Counts env.config p → sibling.tally p + statementsTally p ds =
    (loop.toList.map fun l => l.iterable.tally p).sum +
      partsTally p (elementKind tag readings) (allVoid children) parts +
        (rowTally p siblings + statementsTally p inner + made.countP p)

theorem LowersElement.exists_tallies {binders : List Binder} {place : Place} {pos : Position}
    {tag : Tag} {attributes : List Attribute} {children : List Node} {sibling : Sibling}
    {ds : List Declaration}
    (h : LowersElement env K binders place pos tag attributes children sibling ds n n') :
    ∃ readings loop parts siblings inner made n₁ n₂, TalliesElement env K binders place tag
      attributes children sibling ds readings loop parts siblings inner made n n₁ n₂ n' := by
  cases h with
  | @mk _ _ _ _ _ _ readings loop parts siblings items _ ds₁ ds₂ _ _ _ _ _ _ reads opens
      lowersReadings lowersChildren finishes seals =>
    have hflatten : (Sibling.chains siblings).flatten = siblings := List.flatten_splitBy _ _
    have hmade : ∀ s ∈ (Sibling.chains siblings).flatten, s.IsMade env.config := by
      rw [hflatten]
      exact LowersNodes.isMade lowersChildren
    obtain ⟨made, hmakes⟩ :=
      finishes.exists_choices hmade fun _ => List.isChain_of_mem_splitBy
    rw [hflatten] at hmakes
    refine ⟨readings, loop, parts, siblings, ds₁, made, _, _, reads, opens, lowersReadings,
      lowersChildren, seals.memos_eq.trans finishes.memos_eq, hmakes.conditional, hmakes.chosen,
      fun p hp => ?_⟩
    have hempty : (items = []) = allVoid children := by
      rw [finishes.eq_nil_iff fun _ => List.isChain_of_mem_splitBy, hflatten,
        LowersNodes.isVoid_iff lowersChildren]
    have hrow := hmakes.tally p hp
    have hcode := seals.tally_eq hp (lowersReadings.componentTally_of_named hp)
    rw [statementsTally_append] at hcode
    simp only [hempty, Bool.decide_eq_true] at hcode
    omega

/-- No conditional is counted where conditionals are not. -/
theorem TalliesElement.countP_made {binders : List Binder} {place : Place} {tag : Tag}
    {attributes : List Attribute} {children : List Node} {sibling : Sibling}
    {ds inner : List Declaration} {readings : List Reading} {loop : Option Loop}
    {parts : List Part} {siblings : List Sibling} {made : List Code} {n₁ n₂ : Numbering}
    (h : TalliesElement env K binders place tag attributes children sibling ds readings loop parts
      siblings inner made n n₁ n₂ n')
    (hp : ∀ test body alternative, p (.conditional test body alternative) = false) :
    made.countP p = 0 := by
  refine List.countP_eq_zero.2 fun code hcode => ?_
  have hconditional := h.conditional code hcode
  cases code <;> simp_all [Code.isConditional]

end TemplateCompiler
