import TemplateCompiler.Proofs.Sites

/-!
# Names in scope

A mention fits if the functions around it bind what the elements they are made for repeat for, if a
name of the template has the binder that the markup gives it or is captured by an element whose else
it stands in, and if a name of the module's own is given or is hoisted earlier. Each step of the
lowering keeps this: leaving a function, the binder that was around the mention comes to be within
it.
-/

namespace TemplateCompiler

section

variable (env : Env) (K : Context) (t : Template)

/-- Of the binders, what is nearest is what the elements at some places repeat for. -/
def Template.Binds (config : Config) (t : Template) (binders : List Binder)
    (places : List Place) : Prop :=
  ∀ name, nearest binders name = nearest (places.map (t.binderAt config)) name

/-- A mention within binders, where some names are hoisted before it. -/
structure Fits (binders : List Binder) (before : List String) (m : Mention) : Prop where
  authored : ∀ b ∈ m.binders, b = t.binderAt env.config b.place
  template : ∀ s, m.site = some s → ∃ b meant, nearest (m.binders ++ binders) m.name = some b ∧
    t.binder? env.config s m.name = some meant ∧ (meant = b ∨ t.InElseOf env.config b.place s)
  own : m.site = none → Gives env K m.name ∨ m.name ∈ before ∨
    ∃ layer ∈ m.within, m.name ∈ layer.earlier

/-- A row of statements whose mentions fit, each after the names that are hoisted before it. -/
inductive StatementsFit (binders : List Binder) : List String → List Declaration → Prop where
  | nil {before} : StatementsFit binders before []
  | cons {before d ds} (mentions : ∀ m ∈ d.mentions, Fits env K t binders before m)
      (hoistings : ∀ m ∈ d.hoistings, ∀ b ∈ m.binders, b = t.binderAt env.config b.place)
      (rest : StatementsFit binders (before ++ [d.name]) ds) :
      StatementsFit binders before (d :: ds)

/-- A sibling whose mentions fit: inside of its loop, those of what it repeats. -/
def SiblingFits (binders : List Binder) (before : List String) (s : Sibling) : Prop :=
  match s.form with
  | .fixed => s.item.code.All (Fits env K t binders before)
  | .spliced items =>
    s.item.code.All (Fits env K t binders before) ∧ ItemsAll (Fits env K t binders before) items
  | .guarded test =>
    s.item.code.All (Fits env K t binders before) ∧ test.All (Fits env K t binders before)
  | .repeated loop ds condition =>
    loop.iterable.All (Fits env K t binders before) ∧
    loop.binder = t.binderAt env.config loop.place ∧
    StatementsFit env K t (loop.binder :: binders) [] ds ∧
    s.item.code.All (Fits env K t (loop.binder :: binders) (hoistedNames ds)) ∧
    ∀ test ∈ condition, test.All (Fits env K t (loop.binder :: binders) (hoistedNames ds))

end

variable {env : Env} {K : Context} {t : Template} {binders : List Binder}
  {before before' : List String} {m : Mention} {n n' : Numbering}

/-! ## Mentions -/

theorem glues_fits : Glues env K (Fits env K t binders before) :=
  fun _ h => ⟨fun _ hb => (nomatch hb), fun _ hs => (nomatch hs), fun _ => .inl h⟩

theorem Fits.mono (h : Fits env K t binders before m) (hsub : before ⊆ before') :
    Fits env K t binders before' m :=
  ⟨h.authored, h.template, fun hs => (h.own hs).imp_right (.imp_left (@hsub _))⟩

theorem fits_hoisted {name : String} (h : name ∈ before) :
    Fits env K t binders before (.own name) :=
  ⟨fun _ hb => (nomatch hb), fun _ hs => (nomatch hs), fun _ => .inr (.inl h)⟩

theorem Fits.after (h : Fits env K t binders before m) (earlier : List String) :
    Fits env K t binders before (m.after earlier) :=
  ⟨h.authored, h.template, h.own⟩

/-- A mention in a function's own element. -/
theorem Fits.leave {b : Binder} {hoisted : List String}
    (h : Fits env K t (b :: binders) m.earlier m) (hb : b = t.binderAt env.config b.place) :
    Fits env K t binders before (m.leave b.place b.parameters hoisted) := by
  constructor
  · intro b' hb'
    rw [Mention.binders_leave, List.mem_append, List.mem_singleton] at hb'
    rcases hb' with hb' | rfl
    · exact h.authored b' hb'
    · exact hb
  · intro s hs
    obtain ⟨b', meant, hb', hmeant⟩ := h.template s hs
    refine ⟨b', meant, ?_, hmeant⟩
    rw [Mention.binders_leave, Mention.name_leave, List.append_assoc]
    exact hb'
  · intro hs
    rcases h.own hs with hg | he | ⟨layer, hl, he⟩
    · exact .inl hg
    · exact .inr (.inr ⟨⟨⟨b.place, b.parameters⟩, m.earlier, hoisted⟩, by simp, he⟩)
    · exact .inr (.inr ⟨layer, by simp [hl], he⟩)

/-- A mention in an alternative, which stands in the function of an element it is not in. -/
theorem Fits.leave_beside {b : Binder} {hoisted : List String}
    (h : Fits env K t binders before m) (hb : b = t.binderAt env.config b.place)
    (hbeside : AtSite (t.InElseOf env.config b.place) m) :
    Fits env K t binders before (m.leave b.place b.parameters hoisted) := by
  constructor
  · intro b' hb'
    rw [Mention.binders_leave, List.mem_append, List.mem_singleton] at hb'
    rcases hb' with hb' | rfl
    · exact h.authored b' hb'
    · exact hb
  · intro s hs
    obtain ⟨b', meant, hb', hmeant, hor⟩ := h.template s hs
    rw [Mention.binders_leave, Mention.name_leave, nearest_append, nearest_append]
    rw [nearest_append] at hb'
    rcases hin : nearest m.binders m.name with _ | inner
    · rcases hn : nearest [b] m.name with _ | captor
      · simp only [hin, Option.none_or] at hb' ⊢
        exact ⟨b', meant, hb', hmeant, hor⟩
      · have : captor = b := List.mem_singleton.1 (List.mem_of_find?_eq_some hn)
        exact ⟨b, meant, by simp [this], hmeant, .inr (hbeside s hs)⟩
    · simp only [hin, Option.some_or] at hb' ⊢
      exact ⟨b', meant, hb', hmeant, hor⟩
  · intro hs
    rcases h.own hs with hg | he | ⟨layer, hl, he⟩
    · exact .inl hg
    · exact .inr (.inl he)
    · exact .inr (.inr ⟨layer, by simp [hl], he⟩)

/-! ## Statements -/

theorem StatementsFit.mono {ds : List Declaration} (h : StatementsFit env K t binders before ds) :
    ∀ {before'}, before ⊆ before' → StatementsFit env K t binders before' ds := by
  induction h with
  | nil => exact fun _ => .nil
  | cons mentions hoistings _ ih =>
    intro before' hsub
    refine .cons (fun m hm => (mentions m hm).mono hsub) hoistings (ih ?_)
    exact List.append_subset.2 ⟨fun _ hx => List.mem_append_left _ (hsub hx), by simp⟩

theorem StatementsFit.append {ds ds' : List Declaration}
    (h : StatementsFit env K t binders before ds)
    (h' : StatementsFit env K t binders (before ++ hoistedNames ds) ds') :
    StatementsFit env K t binders before (ds ++ ds') := by
  induction h with
  | nil => simpa [hoistedNames] using h'
  | cons mentions hoistings _ ih =>
    exact .cons mentions hoistings (ih (by simpa [hoistedNames] using h'))

theorem StatementsFit.fits {ds : List Declaration} (h : StatementsFit env K t binders before ds) :
    ∀ m ∈ statementMentions before ds, Fits env K t binders m.earlier m := by
  induction h with
  | nil => simp [statementMentions]
  | cons mentions _ _ ih =>
    intro m hm
    rw [statementMentions, List.mem_append] at hm
    rcases hm with hm | hm
    · obtain ⟨m', hm', rfl⟩ := List.mem_map.1 hm
      exact (mentions m' hm').after _
    · exact ih m hm

theorem StatementsFit.authored {ds : List Declaration}
    (h : StatementsFit env K t binders before ds) :
    ∀ m ∈ statementHoistings ds, ∀ b ∈ m.binders, b = t.binderAt env.config b.place := by
  induction h with
  | nil => simp [statementHoistings]
  | cons _ hoistings _ ih =>
    intro m hm
    rw [statementHoistings, List.mem_append] at hm
    exact hm.elim (hoistings m) (ih m)

/-- The mentions in a body that may stand in a function: those that are at home in it, and those of
an alternative. -/
theorem fits_of_mem_bodyMentions {b : Binder} {ds : List Declaration} {body : Code}
    {hoisted : List String} (hb : b = t.binderAt env.config b.place)
    (hds : StatementsFit env K t (b :: binders) [] ds)
    (hbody : body.All fun m => Fits env K t (b :: binders) (hoistedNames ds) m ∨
      Fits env K t binders before m ∧ AtSite (t.InElseOf env.config b.place) m)
    (hm : m ∈ bodyMentions ds body) :
    Fits env K t binders before (m.leave b.place b.parameters hoisted) := by
  rw [bodyMentions, List.mem_append] at hm
  rcases hm with hm | hm
  · exact (hds.fits m hm).leave hb
  · obtain ⟨m', hm', rfl⟩ := List.mem_map.1 hm
    rcases hbody m' hm' with hfits | ⟨hfits, hbeside⟩
    · exact (hfits.after _).leave hb
    · exact (hfits.after _).leave_beside hb hbeside

theorem Iterates.fits {loop : Loop} {body code : Code} {flatten : Bool}
    {ds outer : List Declaration}
    (h : Iterates env.config loop body flatten ds code outer n n')
    (hloop : loop.iterable.All (Fits env K t binders before))
    (hb : loop.binder = t.binderAt env.config loop.place)
    (hds : StatementsFit env K t (loop.binder :: binders) [] ds)
    (hbody : body.All fun m => Fits env K t (loop.binder :: binders) (hoistedNames ds) m ∨
      Fits env K t binders before m ∧ AtSite (t.InElseOf env.config loop.place) m) :
    StatementsFit env K t binders before outer ∧
      code.All (Fits env K t binders (before ++ hoistedNames outer)) := by
  have hcall : ∀ function : Code,
      function.All (Fits env K t binders (before ++ hoistedNames outer)) →
      (iterationCall env.config loop function flatten).All
        (Fits env K t binders (before ++ hoistedNames outer)) := by
    intro function hf
    have hi := hloop.imp fun m hm => hm.mono (List.subset_append_left before (hoistedNames outer))
    refine glues_fits.assembles.iterationCall ((all_callPrimitive glues_fits).2 ?_)
    simpa using ⟨hi, hf⟩
  cases h with
  | inline =>
    refine ⟨.nil, hcall _ (Code.all_lambda.2 fun m hm => ?_)⟩
    have hmem : m.after [] ∈ bodyMentions [] body := by
      simpa [bodyMentions, statementMentions, hoistedNames] using ⟨m, hm, rfl⟩
    exact (fits_of_mem_bodyMentions hb hds hbody hmem).mono (List.subset_append_left before _)
  | declared =>
    refine ⟨.cons ?_ ?_ .nil, hcall _ (Code.all_ref.2 (fits_hoisted ?_))⟩
    · intro m hm
      rw [Declaration.mentions, Function.mentions_eq] at hm
      obtain ⟨m', hm', rfl⟩ := List.mem_map.1 hm
      exact fits_of_mem_bodyMentions hb hds hbody hm'
    · intro m hm
      rw [Declaration.hoistings, List.mem_cons, Function.hoistings_eq] at hm
      rcases hm with rfl | hm
      · simp [Mention.own, Mention.binders]
      · obtain ⟨m', hm', rfl⟩ := List.mem_map.1 hm
        intro b hmem
        rw [Mention.binders_leave, List.mem_append, List.mem_singleton] at hmem
        rcases hmem with hmem | rfl
        · exact hds.authored m' hm' b hmem
        · exact hb
    · simp [hoistedNames, Declaration.name]

/-! ## Siblings -/

theorem SiblingFits.mono {s : Sibling} (h : SiblingFits env K t binders before s)
    (hsub : before ⊆ before') : SiblingFits env K t binders before' s := by
  have hmono : ∀ m, Fits env K t binders before m → Fits env K t binders before' m :=
    fun m hm => hm.mono hsub
  unfold SiblingFits at h ⊢
  revert h
  cases s.form with
  | fixed => exact fun h => h.imp hmono
  | spliced items => exact fun h => ⟨h.1.imp hmono, fun i hi => (h.2 i hi).imp hmono⟩
  | guarded test => exact fun h => ⟨h.1.imp hmono, h.2.imp hmono⟩
  | repeated loop ds condition => exact fun h => ⟨h.1.imp hmono, h.2⟩

/-- An alternative is taken into the body of an iteration only from inside an else of it. -/
theorem FinishesSibling.fits {s : Sibling} {alternative : Option Item} {item : Item}
    {ds : List Declaration} (h : FinishesSibling env.config s alternative item ds n n')
    (hs : SiblingFits env K t binders before s)
    (ha : ∀ i ∈ alternative, i.code.All (Fits env K t binders before))
    (hbeside : ∀ loop ds test, s.form = .repeated loop ds (some test) →
      ∀ i ∈ alternative, i.code.All (AtSite (t.InElseOf env.config loop.place))) :
    StatementsFit env K t binders before ds ∧
      item.code.All (Fits env K t binders (before ++ hoistedNames ds)) := by
  have hmono : ∀ m, Fits env K t binders before m →
      Fits env K t binders (before ++ hoistedNames []) m :=
    fun m hm => hm.mono (List.subset_append_left before _)
  unfold SiblingFits at hs
  cases h with
  | fixed form =>
    rw [form] at hs
    exact ⟨.nil, hs.imp hmono⟩
  | spliced form =>
    rw [form] at hs
    exact ⟨.nil, hs.1.imp hmono⟩
  | guarded form =>
    rw [form] at hs
    exact ⟨.nil, (all_choose glues_fits hs.2 hs.1 ha).imp hmono⟩
  | repeated form iterates =>
    rw [form] at hs
    obtain ⟨hloop, hb, hds, hcode, -⟩ := hs
    exact iterates.fits hloop hb hds (hcode.imp fun m hm => .inl hm)
  | @filtered loop held test _ _ _ _ form iterates =>
    rw [form] at hs
    obtain ⟨hloop, hb, hds, hcode, htest⟩ := hs
    refine iterates.fits hloop hb hds (all_choose (K := K) ?_ ?_ ?_ ?_)
    · exact fun name hname => .inl (glues_fits name hname)
    · exact (htest test rfl).imp fun m hm => .inl hm
    · exact hcode.imp fun m hm => .inl hm
    · exact fun i hi m hm => .inr ⟨ha i hi m hm, hbeside loop held test form i hi m hm⟩

theorem FinishesBranches.fits {siblings : List Sibling} {item : Option Item}
    {ds : List Declaration} (h : FinishesBranches env.config siblings item ds n n')
    (hs : ∀ s ∈ siblings, SiblingFits env K t binders before s)
    (hpair : siblings.Pairwise (Sibling.Beside env.config t))
    (htail : ∀ s ∈ siblings.tail, s.isAlternative) :
    StatementsFit env K t binders before ds ∧
      ∀ i ∈ item, i.code.All (Fits env K t binders (before ++ hoistedNames ds)) := by
  induction h with
  | nil => exact ⟨.nil, by simp⟩
  | @cons s rest alternative _ ds₁ _ _ _ _ tail head ih =>
    rw [List.pairwise_cons] at hpair
    obtain ⟨hbeside, hpair⟩ := hpair
    obtain ⟨hds, halt⟩ := ih (fun s h => hs s (List.mem_cons_of_mem _ h)) hpair
      fun s h => htail s (List.mem_of_mem_tail h)
    have hhead : SiblingFits env K t binders (before ++ hoistedNames ds₁) s :=
      (hs s List.mem_cons_self).mono (List.subset_append_left before _)
    obtain ⟨hds', hitem⟩ := head.fits hhead halt fun loop held test hform =>
      (finishing_atSite.branches tail fun next hnext =>
        hbeside next hnext loop held test hform (htail next hnext)).2
    refine ⟨hds.append hds', ?_⟩
    rintro i hi
    obtain rfl := Option.some.inj hi
    rwa [hoistedNames_append, ← List.append_assoc]

theorem FinishesChain.fits {chain : List Sibling} {items : List Item} {ds : List Declaration}
    (h : FinishesChain env.config chain items ds n n')
    (hs : ∀ s ∈ chain, SiblingFits env K t binders before s)
    (hpair : chain.Pairwise (Sibling.Beside env.config t))
    (htail : ∀ s ∈ chain.tail, s.isAlternative) :
    StatementsFit env K t binders before ds ∧
      ItemsAll (Fits env K t binders (before ++ hoistedNames ds)) items := by
  cases h with
  | nil => exact ⟨.nil, by simp [ItemsAll]⟩
  | spliced _ form =>
    have hfits := hs _ List.mem_cons_self
    simp only [SiblingFits, form] at hfits
    refine ⟨.nil, fun i hi => ?_⟩
    obtain ⟨j, hj, rfl⟩ := List.mem_map.1 hi
    exact (hfits.2 j hj).imp fun m hm => hm.mono (List.subset_append_left before _)
  | branches _ _ branches =>
    obtain ⟨hds, hitem⟩ := branches.fits hs hpair htail
    exact ⟨hds, by simpa [ItemsAll] using hitem⟩

theorem FinishesChains.fits {chains : List (List Sibling)} {items : List Item}
    {ds : List Declaration} (h : FinishesChains env.config chains items ds n n') :
    ∀ {before}, (∀ chain ∈ chains, (∀ s ∈ chain, SiblingFits env K t binders before s) ∧
      chain.Pairwise (Sibling.Beside env.config t) ∧ ∀ s ∈ chain.tail, s.isAlternative) →
    StatementsFit env K t binders before ds ∧
      ItemsAll (Fits env K t binders (before ++ hoistedNames ds)) items := by
  induction h with
  | nil => exact fun _ => ⟨.nil, by simp [ItemsAll]⟩
  | @cons _ _ _ _ ds₁ ds₂ _ _ _ head _ ih =>
    intro before hchains
    obtain ⟨hs, hpair, htail⟩ := hchains _ List.mem_cons_self
    obtain ⟨hds, hitems⟩ := head.fits hs hpair htail
    obtain ⟨hds', hmore⟩ := @ih (before ++ hoistedNames ds₁) fun chain hchain =>
      ⟨fun s h => ((hchains chain (List.mem_cons_of_mem _ hchain)).1 s h).mono
        (List.subset_append_left before _), (hchains chain (List.mem_cons_of_mem _ hchain)).2⟩
    refine ⟨hds.append hds', fun i hi => ?_⟩
    rw [hoistedNames_append, ← List.append_assoc]
    rcases List.mem_append.1 hi with hi | hi
    · exact (hitems i hi).imp fun m hm => hm.mono (List.subset_append_left _ _)
    · exact hmore i hi

/-- A sibling in a chain that takes no alternative is the last. -/
theorem Sibling.eq_nil_of_isChain {s : Sibling} {rest : List Sibling}
    (h : (s :: rest).IsChain fun s next => s.continues next) (htakes : s.takesAlternative = false) :
    rest = [] := by
  rcases rest with _ | ⟨next, rest⟩
  · rfl
  · simpa [Sibling.continues, htakes] using (List.isChain_cons_cons.1 h).1

theorem Sibling.isAlternative_of_isChain {s : Sibling} {rest : List Sibling}
    (h : (s :: rest).IsChain fun s next => s.continues next) :
    ∀ next ∈ rest, next.isAlternative := by
  induction rest generalizing s with
  | nil => simp
  | cons next rest ih =>
    obtain ⟨hnext, hrest⟩ := List.isChain_cons_cons.1 h
    rw [Sibling.continues, Bool.and_eq_true] at hnext
    exact List.forall_mem_cons.2 ⟨hnext.2, ih hrest⟩

theorem Sibling.chain_cases {siblings chain : List Sibling} (h : chain ∈ Sibling.chains siblings) :
    chain.Sublist siblings ∧ ∀ s ∈ chain.tail, s.isAlternative := by
  constructor
  · have := List.sublist_flatten_of_mem h
    rwa [Sibling.chains, List.flatten_splitBy] at this
  · rcases chain with _ | ⟨s, rest⟩
    · simp
    · exact Sibling.isAlternative_of_isChain (List.isChain_of_mem_splitBy h)

/-! ## Elements -/

theorem GuardsItems.fits {condition : Option Code} {items kept : List Item}
    {ds : List Declaration} (h : GuardsItems condition items kept ds n n')
    (hc : ∀ test ∈ condition, test.All (Fits env K t binders before))
    (hi : ItemsAll (Fits env K t binders before) items) :
    StatementsFit env K t binders before ds ∧
      ItemsAll (Fits env K t binders (before ++ hoistedNames ds)) kept := by
  cases h with
  | unconditional =>
    exact ⟨.nil, fun i h => (hi i h).imp fun m hm => hm.mono (List.subset_append_left before _)⟩
  | nothing => exact ⟨.nil, by simp [ItemsAll]⟩
  | guarded =>
    constructor
    · refine .cons ?_ (by simp [Declaration.hoistings, Mention.own, Mention.binders]) .nil
      have := hc _ rfl
      rw [Declaration.mentions]
      exact Code.all_or.2 ⟨this, Code.all_constant⟩
    · intro i hmem
      obtain ⟨j, hj, rfl⟩ := List.mem_map.1 hmem
      refine Code.all_and.2 ⟨Code.all_ref.2 (fits_hoisted ?_), ?_⟩
      · simp [hoistedNames, Declaration.name]
      · exact (hi j hj).imp fun m hm => hm.mono (List.subset_append_left before _)

/-- What is lowered inside an element fits inside its loop; its sibling fits outside. -/
theorem SealsElement.fits {pos : Position} {tag : Tag} {readings : List Reading}
    {parts : List Part} {items : List Item} {ds outer : List Declaration} {kind : ElementKind}
    {loop : Option Loop} {sibling : Sibling}
    (h : SealsElement env.config K pos tag readings parts items ds kind loop sibling outer n n')
    (hparts : PartsAll (Code.All (Fits env K t (inside loop binders) (hoistedNames ds))) parts)
    (hitems : ItemsAll (Fits env K t (inside loop binders) (hoistedNames ds)) items)
    (hds : StatementsFit env K t (inside loop binders) [] ds)
    (hloop : ∀ l ∈ loop, l.iterable.All (Fits env K t binders []) ∧
      l.binder = t.binderAt env.config l.place) :
    StatementsFit env K t binders [] outer ∧
      SiblingFits env K t binders (hoistedNames outer) sibling := by
  cases h with
  | spliced guarded =>
    obtain ⟨hguards, hkept⟩ := guarded.fits (fun _ h => hparts.condition h) hitems
    rw [← hoistedNames_append] at hkept
    exact ⟨hds.append hguards, glues_fits.assembles.assemble hkept, hkept⟩
  | iterated guarded iterates =>
    obtain ⟨hguards, hkept⟩ := guarded.fits (fun _ h => hparts.condition h) hitems
    rw [← hoistedNames_append] at hkept
    obtain ⟨hi, hb⟩ := hloop _ rfl
    exact iterates.fits hi hb (hds.append hguards)
      ((glues_fits.assembles.iteratedBody hkept).imp fun m hm => .inl hm)
  | outlet => exact ⟨hds, all_outletCode glues_fits hitems⟩
  | fixed _ calls => exact ⟨hds, calls.all glues_fits hparts hitems⟩
  | guarded condition calls =>
    exact ⟨hds, calls.all glues_fits hparts hitems, hparts.condition condition⟩
  | repeated calls =>
    obtain ⟨hi, hb⟩ := hloop _ rfl
    exact ⟨.nil, hi, hb, hds, calls.all glues_fits hparts hitems, fun _ h => hparts.condition h⟩

/-- A name of the template where it stands. -/
theorem fits_name {s : Site} {name : String} (hb : t.Binds env.config binders s.enclosing)
    (hname : binds binders name) : Fits env K t binders before ⟨[], [], name, some s⟩ := by
  constructor
  · exact fun _ hb => (nomatch hb)
  · intro s' hs
    obtain rfl := Option.some.inj hs
    rw [← isSome_nearest, Option.isSome_iff_exists] at hname
    obtain ⟨b, hn⟩ := hname
    exact ⟨b, b, hn, (hb name).symm.trans hn, .inl rfl⟩
  · exact fun hs => (nomatch hs)

theorem OpensLoop.fits {place : Place} {readings : List Reading} {loop : Option Loop}
    (h : OpensLoop env.config binders place readings loop)
    (hb : t.Binds env.config binders (Site.enclosing ⟨place, true⟩))
    (hread : t.readingsAt env.config place = readings) :
    (∀ l ∈ loop, l.iterable.All (Fits env K t binders before) ∧
      l.binder = t.binderAt env.config l.place) ∧
    t.Binds env.config (inside loop binders) (Site.enclosing ⟨place, false⟩) := by
  rw [Site.enclosing_inside]
  have hbinder : ∀ l ∈ loop, l.binder = t.binderAt env.config place := by
    rintro l rfl
    exact h.binder_eq hread
  cases h with
  | once reads =>
    refine ⟨by simp, fun name => ?_⟩
    have hnone : (t.binderAt env.config place).parameters = [] := by
      simp [Template.binderAt, hread, Reading.parameters, reads]
    rw [List.map_cons, nearest, nearest, List.find?_cons_of_neg (by simp [hnone])]
    exact hb name
  | repeated =>
    constructor
    · rintro l hl
      obtain rfl := Option.some.inj hl
      exact ⟨Term.all_code glues_fits _ fun id hid => fits_name hb hid, hbinder _ rfl⟩
    · intro name
      rw [List.map_cons, ← List.singleton_append, nearest_append, ← hb name, ← nearest_append,
        ← hbinder _ rfl]
      rfl

theorem LowersElement.fits {place : Place} {pos : Position} {tag : Tag}
    {attributes : List Attribute} {children : List Node} {sibling : Sibling}
    {ds : List Declaration}
    (h : LowersElement env K binders place pos tag attributes children sibling ds n n')
    (ht : t.elementAt? place = some (.element pos tag attributes children))
    (hb : t.Binds env.config binders (Site.enclosing ⟨place, true⟩))
    (hchildren : ∀ {binders siblings ds n n'},
      LowersNodes env K binders place 0 children siblings ds n n' →
      t.Binds env.config binders (Site.enclosing ⟨place, false⟩) →
      t.Shows place 0 (elementsOf children) →
      StatementsFit env K t binders [] ds ∧
        ∀ s ∈ siblings, SiblingFits env K t binders (hoistedNames ds) s) :
    StatementsFit env K t binders [] ds ∧
      SiblingFits env K t binders (hoistedNames ds) sibling := by
  cases h with
  | mk reads opens lowersReadings lowersChildren finishes seals =>
    obtain ⟨hloop, hin⟩ := opens.fits hb (Template.readingsAt_element ht reads)
    have hshows := Template.shows_children ht
    obtain ⟨hds, hsiblings⟩ := hchildren lowersChildren hin hshows
    obtain ⟨-, hpair⟩ := lowersChildren.located hshows
    obtain ⟨hds', hitems⟩ := finishes.fits fun chain hchain =>
      have hc := Sibling.chain_cases hchain
      ⟨fun s hs => hsiblings s (hc.1.subset hs), hpair.sublist hc.1, hc.2⟩
    rw [← hoistedNames_append] at hitems
    exact seals.fits (lowersReadings.all
      (glues_fits.attributive fun id hid => fits_name hin hid)) hitems
      (hds.append hds') hloop

/-! ## Nodes -/

mutual

theorem LowersNode.fits :
    ∀ {node : Node} {binders around before siblings ds n n'},
      LowersNode env K binders around before node siblings ds n n' →
      t.Binds env.config binders (Site.enclosing ⟨around, false⟩) →
      t.Shows around before node.elements →
      StatementsFit env K t binders [] ds ∧
        ∀ s ∈ siblings, SiblingFits env K t binders (hoistedNames ds) s
  | .text .., _, _, _, _, _, _, _, h, _, _ => by
    cases h with
    | blank => exact ⟨.nil, by simp⟩
    | text => exact ⟨.nil, by simp [SiblingFits]⟩
  | .placeholder .., _, _, _, _, _, _, _, h, hb, _ => by
    cases h with
    | nothing => exact ⟨.nil, by simp⟩
    | placeholder =>
      refine ⟨.nil, ?_⟩
      simp only [List.mem_singleton, forall_eq, SiblingFits, all_callPrimitive glues_fits]
      exact all_qualify glues_fits (fun id hid => fits_name hb hid) _
  | .fragment _ children, _, _, _, _, _, _, _, h, hb, ht => by
    cases h with
    | fragment lowersChildren => exact LowersNodes.fits lowersChildren hb ht
  | .element _ _ _ children, _, _, _, _, _, _, _, h, hb, ht => by
    cases h with
    | element lowers =>
      rw [← Site.enclosing_iterable] at hb
      simp only [List.mem_singleton, forall_eq]
      exact lowers.fits (ht 0 _ rfl) hb fun h => LowersNodes.fits h
  | .literal .., _, _, _, _, _, _, _, h, _, _ => nomatch h
  | .attr .., _, _, _, _, _, _, _, h, _, _ => nomatch h
  | .template .., _, _, _, _, _, _, _, h, _, _ => nomatch h

theorem LowersNodes.fits :
    ∀ {nodes : List Node} {binders around before siblings ds n n'},
      LowersNodes env K binders around before nodes siblings ds n n' →
      t.Binds env.config binders (Site.enclosing ⟨around, false⟩) →
      t.Shows around before (elementsOf nodes) →
      StatementsFit env K t binders [] ds ∧
        ∀ s ∈ siblings, SiblingFits env K t binders (hoistedNames ds) s
  | [], _, _, _, _, _, _, _, h, _, _ => by
    cases h
    exact ⟨.nil, by simp⟩
  | node :: rest, _, _, _, _, _, _, _, h, hb, ht => by
    cases h with
    | cons head tail =>
      rw [elementsOf] at ht
      obtain ⟨hds, hhead⟩ := LowersNode.fits head hb ht.left
      obtain ⟨hds', htail⟩ := LowersNodes.fits tail hb ht.right
      refine ⟨hds.append (hds'.mono (List.nil_subset _)), fun s hs => ?_⟩
      rw [hoistedNames_append]
      rcases List.mem_append.1 hs with hs | hs
      · exact (hhead s hs).mono (List.subset_append_left _ _)
      · exact (htail s hs).mono (List.subset_append_right _ _)

end

/-! ## Units -/

/-- A template is no call, and so what it comes to is fixed or spliced. -/
theorem SealsElement.code_fits {pos : Position} {tag : Tag} {readings : List Reading}
    {parts : List Part} {items : List Item} {ds outer : List Declaration} {loop : Option Loop}
    {sibling : Sibling}
    (h : SealsElement env.config K pos tag readings parts items ds .template loop sibling outer n
      n')
    (hs : SiblingFits env K t binders before sibling) :
    sibling.item.code.All (Fits env K t binders before) := by
  cases h with
  | spliced => exact hs.1
  | iterated => exact hs
  | fixed _ calls | guarded _ calls | repeated calls => nomatch calls

theorem Compiles.fits {compiled : Compiled} {sibling : Sibling} {ds : List Declaration}
    (h : Compiles env t compiled K sibling ds n) :
    StatementsFit env K t [] [] ds ∧
      sibling.item.code.All (Fits env K t [] (hoistedNames ds)) := by
  obtain ⟨pos, attributes, children, hroot, hl⟩ := h.root
  have ht : t.elementAt? [] = some (.element pos ⟨none, "template"⟩ attributes children) := by
    simp [Template.elementAt?, hroot]
  obtain ⟨hds, hs⟩ := hl.fits ht (fun _ => rfl) fun h => LowersNodes.fits h
  refine ⟨hds, ?_⟩
  cases hl with
  | mk _ _ _ _ _ seals => exact seals.code_fits hs

theorem Compiles.fits_of_mem {compiled : Compiled} {sibling : Sibling} {ds : List Declaration}
    (h : Compiles env t compiled K sibling ds n) (hm : m ∈ compiled.module.function.bodyMentions) :
    Fits env K t [] m.earlier m := by
  obtain ⟨hds, hcode⟩ := h.fits
  rw [h.function, Function.bodyMentions, bodyMentions, List.mem_append] at hm
  rcases hm with hm | hm
  · exact hds.fits m hm
  · obtain ⟨m', hm', rfl⟩ := List.mem_map.1 hm
    exact (hcode m' hm').after _

theorem Compiles.authored_of_mem {compiled : Compiled} {sibling : Sibling} {ds : List Declaration}
    (h : Compiles env t compiled K sibling ds n)
    (hm : m ∈ compiled.module.function.bodyHoistings) :
    ∀ b ∈ m.binders, b = t.binderAt env.config b.place := by
  rw [h.function] at hm
  exact h.fits.1.authored m hm

end TemplateCompiler
