import TemplateCompiler.Proofs.Guards
import TemplateCompiler.Proofs.Readback

/-!
# Siblings read as displays

What lowering makes of a row of nodes reads as what the row lays out, through the functions that are
declared on the way. Items read as contributions and siblings as displays. A chain of siblings is
finished from its end, as its displays are, so that an else is read with the sibling in front of it.
-/

namespace TemplateCompiler

variable {env : Env} {t : Template} {m : Module} {K : Context} {n n' : Numbering}

/-- All the functions that a row is read through. -/
def usedBy {β : Type} (rs : List (β × Multiset Function)) : Multiset Function :=
  (rs.map Prod.snd).sum

section

variable {β : Type} {rs rs' : List (β × Multiset Function)}

@[simp]
theorem usedBy_nil : usedBy ([] : List (β × Multiset Function)) = 0 := rfl

@[simp]
theorem usedBy_cons (r : β × Multiset Function) : usedBy (r :: rs) = r.2 + usedBy rs := by
  simp [usedBy]

@[simp]
theorem usedBy_append : usedBy (rs ++ rs') = usedBy rs + usedBy rs' := by
  simp [usedBy]

theorem usedBy_perm (h : rs.Perm rs') : usedBy rs = usedBy rs' :=
  (h.map Prod.snd).sum_eq

end

/-! ## Items -/

/-- An item reads as a contribution. -/
structure ReadsItem (env : Env) (t : Template) (m : Module) (i : Item)
    (r : Contributed × Multiset Function) : Prop where
  slot : r.1.slot = i.slot
  listed : i.iteration → i.code.text? = none
  reads : Reads env t m i.code r.1.layouts r.2

section

variable {i : Item} {items : List Item} {r : Contributed × Multiset Function}
  {rs : List (Contributed × Multiset Function)}

theorem ReadsItem.slotName_eq (h : ReadsItem env t m i r) :
    r.1.slotName env.config = i.slotName env.config := by
  rw [Contributed.slotName, Item.slotName, h.slot]

theorem readsRow_items (h : List.Forall₂ (ReadsItem env t m) items rs) :
    ReadsRow env t m (items.map Item.code) (Contributed.row (rs.map Prod.fst)) (usedBy rs) := by
  induction h with
  | nil => exact .nil
  | cons head _ ih =>
    rw [List.map_cons, List.map_cons, usedBy_cons, Contributed.row, List.flatMap_cons]
    exact .cons head.reads ih

/-- The items of a list read as their contributions in a row. -/
theorem reads_assemble (h : List.Forall₂ (ReadsItem env t m) items rs) :
    (Item.assemble env.config items).text? = none ∧
      Reads env t m (Item.assemble env.config items) (Contributed.row (rs.map Prod.fst))
        (usedBy rs) := by
  have hrow := Reads.row (readsRow_items h)
  have hflattened := Reads.flattened rfl hrow
  unfold Item.assemble
  split
  · simp only
    split
    · exact ⟨rfl, hflattened⟩
    · split
      · rename_i i _ hi
        obtain ⟨r, hr, rfl⟩ : ∃ r, ReadsItem env t m i r ∧ rs = [r] := by
          cases h with
          | cons hr hnil =>
            cases hnil
            exact ⟨_, hr, rfl⟩
        refine ⟨hr.listed (by simpa using hi), ?_⟩
        simpa [Contributed.row] using hr.reads
      · exact ⟨rfl, hrow⟩
  · simp only
    split
    · exact ⟨rfl, hflattened⟩
    · exact ⟨rfl, hrow⟩

theorem slots_eq_groups (config : Config) (items : List Item) : Item.slots config items =
    (groups (Item.slotName config) items).map fun g => (g.1, Item.assemble config g.2) := by
  rw [Item.slots, groups, List.map_map]
  rfl

theorem slots_isEmpty (config : Config) (items : List Item) :
    (Item.slots config items).isEmpty = items.isEmpty := by
  cases items with
  | nil => rfl
  | cons => rw [slots_eq_groups, groups_cons]; rfl

theorem readsItems_filter (h : List.Forall₂ (ReadsItem env t m) items rs) (p : String → Bool) :
    List.Forall₂ (ReadsItem env t m) (items.filter fun j => p (j.slotName env.config))
      (rs.filter fun q => p (q.1.slotName env.config)) := by
  induction h with
  | nil => exact .nil
  | cons head _ ih =>
    rw [List.filter_cons, List.filter_cons, head.slotName_eq]
    split
    · exact .cons head ih
    · exact ih

/-- What is passed to each slot reads as what is contributed to it. -/
theorem reads_slots : ∀ {items : List Item} {rs : List (Contributed × Multiset Function)},
    List.Forall₂ (ReadsItem env t m) items rs →
      ReadsSlots env t m (Item.slots env.config items)
        (Contributed.bySlot env.config (rs.map Prod.fst)) (usedBy rs)
  | [], _, .nil => .nil
  | i :: items, r :: rs, .cons head tail => by
    have hname := head.slotName_eq
    have hother := readsItems_filter tail fun slot => !(slot == i.slotName env.config)
    have hrest := reads_slots hother
    have hused : usedBy (r :: rs) =
        usedBy (r :: rs.filter fun q => q.1.slotName env.config == i.slotName env.config) +
          usedBy (rs.filter fun q => !(q.1.slotName env.config == i.slotName env.config)) := by
      rw [usedBy_cons, usedBy_cons, add_assoc, ← usedBy_append,
        usedBy_perm (List.filter_append_perm _ rs)]
    obtain ⟨hlisted, hreads⟩ :=
      reads_assemble (.cons head (readsItems_filter tail fun slot => slot == i.slotName env.config))
    rw [slots_eq_groups, groups_cons, List.map_cons, ← slots_eq_groups, hused, Contributed.bySlot,
      List.map_cons, groups_cons, List.map_cons, hname]
    refine .cons hlisted ?_ ?_
    · simpa [List.filter_map, Function.comp_def] using hreads
    · simpa [List.filter_map, Function.comp_def, Contributed.bySlot] using hrest
termination_by items => items.length
decreasing_by
  exact Nat.lt_succ_of_le (List.length_filter_le _ _)

/-- What a template repeats reads as what it contributes. -/
theorem reads_iteratedBody (h : List.Forall₂ (ReadsItem env t m) items rs) :
    Reads env t m (CompileM.iteratedBody env.config items).1 (Contributed.row (rs.map Prod.fst))
      (usedBy rs) := by
  unfold CompileM.iteratedBody
  split
  · cases h with
    | cons hr hnil =>
      cases hnil
      simpa [Contributed.row] using hr.reads
  · exact (reads_assemble h).2

end

/-- Guarded items read as the items do. -/
theorem GuardsItems.reads {condition : Option Code} {items kept : List Item}
    {guards : List Declaration} {rs : List (Contributed × Multiset Function)}
    (h : GuardsItems condition items kept guards n n')
    (htest : ∀ test ∈ condition, Plain env.config test)
    (hitems : List.Forall₂ (ReadsItem env t m) items rs) :
    List.Forall₂ (ReadsItem env t m) kept rs ∧ Declares env.config guards 0 := by
  cases h with
  | unconditional => exact ⟨hitems, .nil⟩
  | nothing => exact ⟨hitems, .nil⟩
  | guarded =>
    refine ⟨List.forall₂_map_left_iff.2 (hitems.imp fun i r hr => ?_), .assign (htest _ rfl)⟩
    exact ⟨hr.slot, nofun, .guarded hr.reads⟩

theorem readsItems_inSlot {items : List Item} {rs : List (Contributed × Multiset Function)}
    (h : List.Forall₂ (ReadsItem env t m) items rs) (slot : Option String) :
    List.Forall₂ (ReadsItem env t m) (items.map fun i => i.inSlot slot)
      (rs.map fun r => (r.1.inSlot slot, r.2)) := by
  rw [List.forall₂_map_left_iff, List.forall₂_map_right_iff]
  refine h.imp fun i r hr => ⟨?_, hr.listed, hr.reads⟩
  rw [Contributed.inSlot, Item.inSlot, hr.slot]

/-! ## Siblings -/

/-- What is left to be done with an item reads as what is left of a display. What waits with the
item is declared where it is finished. -/
inductive ReadsForm (env : Env) (t : Template) (m : Module) (i : Item) :
    Form → DisplayForm → Multiset Function → Prop where
  | fixed {ls used} (listed : i.iteration → i.code.text? = none)
      (reads : Reads env t m i.code ls used) :
      ReadsForm env t m i .fixed (.fixed ls) used
  | spliced {items rs used} (once : i.iteration = false)
      (code : i.code = Item.assemble env.config items)
      (reads : List.Forall₂ (ReadsItem env t m) items rs) (all : usedBy rs = used) :
      ReadsForm env t m i (.spliced items) (.spliced (rs.map Prod.fst)) used
  | guarded {test place node ls used} (plain : Plain env.config test)
      (tests : node.Tests env t place test) (reads : Reads env t m i.code ls used) :
      ReadsForm env t m i (.guarded test) (.chosen none (.condition place node) ls) used
  | repeated {loop held place node ls used} (plain : Plain env.config loop.iterable)
      (repeats : node.Repeats env t place loop) (declares : Declares env.config held used)
      (reads : Reads env t m i.code ls used) :
      ReadsForm env t m i (.repeated loop held none)
        (.fixed (repeatFor (some (.iteration place node)) ls)) 0
  | filtered {loop held test place node ls used} (plain : Plain env.config loop.iterable)
      (plainTest : Plain env.config test) (repeats : node.Repeats env t place loop)
      (tests : node.Tests env t place test) (declares : Declares env.config held used)
      (reads : Reads env t m i.code ls used) :
      ReadsForm env t m i (.repeated loop held (some test))
        (.chosen (some (.iteration place node)) (.condition place node) ls) 0

/-- A sibling reads as a display. -/
structure ReadsSibling (env : Env) (t : Template) (m : Module) (s : Sibling)
    (r : Display × Multiset Function) : Prop where
  slot : r.1.slot = s.item.slot
  isAlternative : r.1.isAlternative = s.isAlternative
  form : ReadsForm env t m s.item s.form r.1.form r.2

/-- An else reads as a branch. -/
inductive ReadsBranch (env : Env) (t : Template) (m : Module) :
    Option Item → Option (List Layout) → Multiset Function → Prop where
  | absent : ReadsBranch env t m none none 0
  | present {i ls used} (reads : Reads env t m i.code ls used) :
      ReadsBranch env t m (some i) (some ls) used

theorem ReadsBranch.eq_none {branch : Option (List Layout)} {used : Multiset Function}
    (h : ReadsBranch env t m none branch used) : branch = none ∧ used = 0 := by
  cases h
  exact ⟨rfl, rfl⟩

theorem ReadsSibling.takes_eq {s : Sibling} {r : Display × Multiset Function}
    (h : ReadsSibling env t m s r) : r.1.takes = s.takesAlternative := by
  have hform := h.form
  rw [Display.takes, Sibling.takesAlternative]
  generalize s.form = form at hform ⊢
  generalize r.1.form = form' at hform ⊢
  generalize r.2 = used at hform
  cases hform <;> rfl

/-- What is not spliced is displayed as one item. -/
theorem ReadsSibling.before_eq {s : Sibling} {r : Display × Multiset Function}
    (h : ReadsSibling env t m s r) (hhead : s.isAlternative = false)
    (hspliced : ∀ items, s.form ≠ .spliced items) (l : Laid) :
    r.1.before l = ⟨none, ⟨r.1.slot, r.1.layouts l.branch⟩ :: r.1.remaining l⟩ := by
  have hform := h.form
  rw [Display.before, if_neg (by simp [h.isAlternative, hhead])]
  generalize s.form = form at hform hspliced
  generalize r.1.form = form' at hform ⊢
  generalize r.2 = used at hform
  cases hform with
  | spliced => exact absurd rfl (hspliced _)
  | fixed | guarded | repeated | filtered => rfl

theorem reads_choose {test body : Code} {alternative : Option Item} {place : Place} {node : Node}
    {ls : List Layout} {branch : Option (List Layout)} {used more : Multiset Function}
    (htest : Plain env.config test) (htests : node.Tests env t place test)
    (hbody : Reads env t m body ls used) (ha : ReadsBranch env t m alternative branch more) :
    Reads env t m (Sibling.choose env.config test body alternative)
      [.choice (.condition place node) ls (branch.getD [])] (used + more) := by
  cases ha with
  | absent => exact .choose htest htests hbody .empty
  | present reads => exact .choose htest htests hbody reads

/-- A call of the iterator reads as a repetition, through its function if that is declared. -/
theorem Iterates.reads {loop : Loop} {body code : Code} {flatten : Bool}
    {held outer : List Declaration} {place : Place} {node : Node} {ls : List Layout}
    {used more : Multiset Function} (h : Iterates env.config loop body flatten held code outer n n')
    (hloop : Plain env.config loop.iterable) (hrepeats : node.Repeats env t place loop)
    (hheld : Declares env.config held used)
    (hbody : Reads env t m body ls (used + more)) :
    code.text? = none ∧ ∃ declared, Declares env.config outer declared ∧
      Reads env t m code (repeatFor (some (.iteration place node)) ls)
        (more + declared) := by
  have hcall : ∀ {function : Code} {ls : List Layout} {used : Multiset Function},
      Reads env t m
        (env.config.callPrimitive env.config.primitives.iterator [loop.iterable, function]) ls
        used →
      (iterationCall env.config loop function flatten).text? = none ∧
        Reads env t m (iterationCall env.config loop function flatten) ls used := by
    intro function ls used hcall
    unfold iterationCall
    cases flatten with
    | false => exact ⟨rfl, hcall⟩
    | true => exact ⟨rfl, .flattened rfl hcall⟩
  cases h with
  | inline =>
    obtain rfl := hheld.eq_zero
    obtain ⟨hlisted, hreads⟩ := hcall (.inline hloop hrepeats hbody)
    refine ⟨hlisted, 0, .nil, ?_⟩
    rwa [add_comm]
  | declared =>
    let f : Function := ⟨n.loop, loop.place, loop.parameters, held, body⟩
    obtain ⟨hlisted, hreads⟩ := hcall (.declared (f := f) hloop hrepeats rfl rfl hbody)
    refine ⟨hlisted, f ::ₘ used, .define hheld, ?_⟩
    rwa [Multiset.add_cons, add_comm]

theorem FinishesSibling.reads {s : Sibling} {alternative : Option Item} {item : Item}
    {ds : List Declaration} {r : Display × Multiset Function} {branch : Option (List Layout)}
    {more : Multiset Function} (h : FinishesSibling env.config s alternative item ds n n')
    (hs : ReadsSibling env t m s r) (ha : ReadsBranch env t m alternative branch more)
    (htakes : s.takesAlternative = false → alternative = none) :
    ∃ declared, Declares env.config ds declared ∧
      ReadsItem env t m item (⟨r.1.slot, r.1.layouts branch⟩, r.2 + more + declared) := by
  have halone : s.takesAlternative = false → more = 0 := by
    intro h
    rw [htakes h] at ha
    exact ha.eq_none.2
  obtain ⟨⟨slot, isAlternative, form'⟩, used⟩ := r
  obtain ⟨hslot, -, hform⟩ := hs
  cases h with
  | fixed form =>
    obtain rfl := halone (by rw [Sibling.takesAlternative, form])
    rw [form] at hform
    cases hform with
    | fixed listed reads =>
      exact ⟨0, .nil, hslot, listed, by simpa [Display.layouts] using reads⟩
  | spliced form =>
    obtain rfl := halone (by rw [Sibling.takesAlternative, form])
    rw [form] at hform
    cases hform with
    | spliced once code reads all =>
      refine ⟨0, .nil, hslot, by simp [once], ?_⟩
      rw [code, ← all]
      simpa [Display.layouts] using (reads_assemble reads).2
  | guarded form =>
    rw [form] at hform
    cases hform with
    | guarded plain tests reads =>
      refine ⟨0, .nil, hslot, by simp, ?_⟩
      simpa [Display.layouts, repeatFor] using reads_choose plain tests reads ha
  | repeated form iterates =>
    obtain rfl := halone (by rw [Sibling.takesAlternative, form]; rfl)
    rw [form] at hform
    cases hform with
    | @repeated _ _ _ _ ls used plain repeats declares reads =>
      have hbody : Reads env t m s.item.code ls (used + 0) := by rwa [add_zero]
      obtain ⟨hlisted, declared, hds, hcode⟩ := iterates.reads plain repeats declares hbody
      exact ⟨declared, hds, hslot, fun _ => hlisted, by simpa [Display.layouts] using hcode⟩
  | filtered form iterates =>
    rw [form] at hform
    cases hform with
    | filtered plain plainTest repeats tests declares reads =>
      obtain ⟨hlisted, declared, hds, hcode⟩ := iterates.reads plain repeats declares
        (reads_choose plainTest tests reads ha)
      exact ⟨declared, hds, hslot, fun _ => hlisted, by simpa [Display.layouts] using hcode⟩

/-! ## Chains -/

/-- What comes behind a chain is left as it is. -/
theorem ReadsSibling.remaining_eq {s : Sibling} {alternative : Option Item}
    {r : Display × Multiset Function} {branch : Option (List Layout)} {more : Multiset Function}
    (h : ReadsSibling env t m s r) (ha : ReadsBranch env t m alternative branch more)
    (htakes : s.takesAlternative = false → alternative = none) (rest : List Contributed) :
    r.1.remaining ⟨branch, rest⟩ = rest := by
  unfold Display.remaining
  split
  · rfl
  · rename_i hnot
    rw [Bool.not_eq_true, h.takes_eq] at hnot
    rw [htakes hnot] at ha
    rw [ha.eq_none.1]
    rfl

theorem FinishesBranches.eq_none_of_isChain {config : Config} {s : Sibling} {rest : List Sibling}
    {item : Option Item} {ds : List Declaration} (h : FinishesBranches config rest item ds n n')
    (hchain : (s :: rest).IsChain fun s next => s.continues next)
    (htakes : s.takesAlternative = false) : item = none := by
  obtain rfl := Sibling.eq_nil_of_isChain hchain htakes
  cases h
  rfl

theorem FinishesBranches.reads {siblings : List Sibling} {item : Option Item}
    {ds : List Declaration} {rs : List (Display × Multiset Function)}
    (h : FinishesBranches env.config siblings item ds n n')
    (hs : List.Forall₂ (ReadsSibling env t m) siblings rs)
    (hchain : siblings.IsChain fun s next => s.continues next) :
    ∃ branch declared, Declares env.config ds declared ∧
      ReadsBranch env t m item branch (usedBy rs + declared) ∧
      ((∀ s ∈ siblings, s.isAlternative) → ∀ rest,
        (rs.map Prod.fst).foldr Display.before ⟨none, rest⟩ = ⟨branch, rest⟩) := by
  induction h generalizing rs with
  | nil =>
    cases hs
    exact ⟨none, 0, .nil, .absent, fun _ _ => rfl⟩
  | cons tail head ih =>
    cases hs with
    | @cons _ r _ rs hr hrs =>
      obtain ⟨branch, declared, hds, hbranch, hbefore⟩ := ih hrs hchain.tail
      have htakes := tail.eq_none_of_isChain hchain
      obtain ⟨declared', hds', hitem⟩ := head.reads hr hbranch htakes
      refine ⟨some (r.1.layouts branch), declared + declared', hds.append hds', ?_, ?_⟩
      · rw [usedBy_cons, add_assoc, ← add_assoc (usedBy rs), ← add_assoc]
        exact .present hitem.reads
      · intro halternative rest
        rw [List.forall_mem_cons] at halternative
        rw [List.map_cons, List.foldr_cons, hbefore halternative.2, Display.before,
          if_pos (hr.isAlternative.trans halternative.1), hr.remaining_eq hbranch htakes]

/-- What a row of displays contributes is what items read as, through the functions of the row and
those that are declared to finish it. -/
structure FinishesReading (env : Env) (t : Template) (m : Module)
    (rs : List (Display × Multiset Function)) (items : List Item) (ds : List Declaration)
    (qs : List (Contributed × Multiset Function)) (declared : Multiset Function) : Prop where
  declares : Declares env.config ds declared
  items : List.Forall₂ (ReadsItem env t m) items qs
  used : usedBy qs = usedBy rs + declared
  displayed : ∀ rest, (rs.map Prod.fst).foldr Display.before ⟨none, rest⟩ =
    ⟨none, qs.map Prod.fst ++ rest⟩

theorem FinishesChain.reads {chain : List Sibling} {items : List Item} {ds : List Declaration}
    {rs : List (Display × Multiset Function)} (h : FinishesChain env.config chain items ds n n')
    (hs : List.Forall₂ (ReadsSibling env t m) chain rs)
    (hchain : chain.IsChain fun s next => s.continues next) :
    ∃ qs declared, FinishesReading env t m rs items ds qs declared := by
  cases h with
  | nil =>
    cases hs
    exact ⟨[], 0, .nil, .nil, rfl, fun _ => rfl⟩
  | @spliced s rest kept _ head form =>
    obtain rfl := Sibling.eq_nil_of_isChain hchain (by rw [Sibling.takesAlternative, form])
    cases hs with
    | @cons _ r _ _ hr hnil =>
      cases hnil
      obtain ⟨⟨slot, isAlternative, form'⟩, used⟩ := r
      obtain ⟨rfl, rfl, hform⟩ := hr
      rw [form] at hform
      cases hform with
      | @spliced _ qs _ _ _ reads all =>
        obtain rfl : usedBy qs = used := all
        refine ⟨_, 0, .nil, readsItems_inSlot reads s.item.slot, ?_, fun rest => ?_⟩
        · simp [usedBy, Function.comp_def]
        · simp [Display.before, Display.remaining, Display.takes, Laid.all, head, Function.comp_def]
  | branches head form branches =>
    cases branches with
    | cons tail sibling =>
      cases hs with
      | @cons _ r _ rs hr hrs =>
        obtain ⟨branch, declared, hds, hbranch, hbefore⟩ := tail.reads hrs hchain.tail
        have htakes := tail.eq_none_of_isChain hchain
        obtain ⟨declared', hds', hitem⟩ := sibling.reads hr hbranch htakes
        refine ⟨[(⟨r.1.slot, r.1.layouts branch⟩, r.2 + (usedBy rs + declared) + declared')],
          declared + declared', hds.append hds', .cons hitem .nil, by simp [add_assoc],
          fun rest => ?_⟩
        rw [List.map_cons, List.foldr_cons, hbefore (Sibling.isAlternative_of_isChain hchain),
          hr.before_eq head form, hr.remaining_eq hbranch htakes]
        rfl

theorem FinishesChains.reads {chains : List (List Sibling)} {items : List Item}
    {ds : List Declaration} {rs : List (Display × Multiset Function)}
    (h : FinishesChains env.config chains items ds n n')
    (hs : List.Forall₂ (ReadsSibling env t m) chains.flatten rs)
    (hchains : ∀ chain ∈ chains, chain.IsChain fun s next => s.continues next) :
    ∃ qs declared, FinishesReading env t m rs items ds qs declared := by
  induction h generalizing rs with
  | nil =>
    cases hs
    exact ⟨[], 0, .nil, .nil, rfl, fun _ => rfl⟩
  | @cons chain chains _ _ _ _ _ _ _ head _ ih =>
    rw [List.forall_mem_cons] at hchains
    obtain ⟨rs₁, rs₂, rfl, hhead, htail⟩ : ∃ rs₁ rs₂, rs = rs₁ ++ rs₂ ∧
        List.Forall₂ (ReadsSibling env t m) chain rs₁ ∧
        List.Forall₂ (ReadsSibling env t m) chains.flatten rs₂ :=
      ⟨_, _, (List.take_append_drop chain.length rs).symm,
        (List.forall₂_take_append rs chain chains.flatten hs.flip).flip,
        (List.forall₂_drop_append rs chain chains.flatten hs.flip).flip⟩
    obtain ⟨qs, declared, hqs⟩ := head.reads hhead hchains.1
    obtain ⟨qs', declared', hqs'⟩ := ih htail hchains.2
    refine ⟨qs ++ qs', declared + declared', hqs.declares.append hqs'.declares,
      List.rel_append hqs.items hqs'.items, ?_, fun rest => ?_⟩
    · rw [usedBy_append, hqs.used, hqs'.used, usedBy_append]
      abel
    · rw [List.map_append, List.foldr_append, hqs'.displayed, hqs.displayed, List.map_append,
        List.append_assoc]

end TemplateCompiler
