import TemplateCompiler.Proofs.Expressions
import TemplateCompiler.Proofs.Rewriting
import TemplateCompiler.Proofs.Validation

/-!
# Compiling into code written in another way

A template is compiled under two configurations, the second time with its expressions written in
another way. If a recoding takes the one to the other, the compilations go through the same steps:
each step leaves the context that the other one leaves, recoded. So they fail alike or end with the
same module, recoded (`compile_recode`).
-/

namespace TemplateCompiler

variable (R : Recoding)

def Frame.mapCode (f : Code → Code) (frame : Frame) : Frame :=
  { frame with declarations := frame.declarations.map (Declaration.mapCode f) }

def Scope.mapCode (f : Code → Code) (s : Scope) : Scope :=
  ⟨s.frames.map (Frame.mapCode f)⟩

def Context.mapCode (f : Code → Code) (c : Context) : Context :=
  { c with scope := c.scope.mapCode f }

def Compiled.mapCode (f : Code → Code) (compiled : Compiled) : Compiled :=
  { compiled with module := compiled.module.mapCode f }

def Env.withConfig (env : Env) (config : Config) : Env :=
  { env with config }

@[simp]
theorem Frame.boundIn_mapCode (f : Code → Code) (frames : List Frame) :
    boundIn (frames.map (Frame.mapCode f)) = boundIn frames := by
  cases frames <;> rfl

theorem Scope.enter_mapCode (f : Code → Code) (s : Scope) (names : List String) :
    (s.mapCode f).enter names = (s.enter names).mapCode f := by
  simp [enter, mapCode, Frame.inside, Frame.mapCode]

theorem Context.isBound_mapCode (f : Code → Code) (c : Context) :
    (c.mapCode f).scope.isBound = c.scope.isBound := by
  funext name
  rw [Scope.isBound, mapCode, Scope.mapCode, Frame.boundIn_mapCode]
  rfl

namespace CompileM

variable {α β γ δ : Type} {g : α → β} {g' : γ → δ} {m : CompileM α} {m' : CompileM β}

/-- What a step ends with, recoded. -/
def outcome (g : α → β) : EStateM.Result Failure Context α → EStateM.Result Failure Context β
  | .ok a c => .ok (g a) (c.mapCode R.code)
  | .error failure c => .error failure (c.mapCode R.code)

/-- Two steps that do the same with code written in either way. -/
def Alike (g : α → β) (m : CompileM α) (m' : CompileM β) : Prop :=
  ∀ c, m' (c.mapCode R.code) = outcome R g (m c)

namespace Alike

variable {R}

protected theorem pure (a : α) : Alike R g (pure a) (pure (g a)) :=
  fun _ => rfl

theorem pure_of_eq {a : α} {b : β} (h : g a = b) :
    Alike R g (Pure.pure a) (Pure.pure b) :=
  fun _ => by
    subst h
    rfl

protected theorem throw (failure : Failure) : Alike R g (throw failure) (throw failure) :=
  fun _ => rfl

protected theorem reject (problem : Problem) (pos : Position) :
    Alike R g (reject problem pos) (reject problem pos) :=
  Alike.throw _

protected theorem bind {k : α → CompileM γ} {k' : β → CompileM δ} (h : Alike R g m m')
    (hk : ∀ a, Alike R g' (k a) (k' (g a))) : Alike R g' (m >>= k) (m' >>= k') := by
  intro c
  have hc := h c
  simp only [Bind.bind, EStateM.bind]
  rcases hm : m c with ⟨a, c₁⟩ | ⟨failure, c₁⟩
  · rw [hc, hm]
    exact hk a c₁
  · rw [hc, hm]
    rfl

protected theorem map {f : α → γ} {f' : β → δ} (h : Alike R g m m')
    (hf : ∀ a, f' (g a) = g' (f a)) : Alike R g' (f <$> m) (f' <$> m') := by
  intro c
  have hc := h c
  simp only [Functor.map, EStateM.map]
  rcases hm : m c with ⟨a, c₁⟩ | ⟨failure, c₁⟩
  · rw [hc, hm]
    simp only [outcome, hf]
  · rw [hc, hm]
    rfl

protected theorem get : Alike R (Context.mapCode R.code) get get :=
  fun _ => rfl

protected theorem set (c : Context) : Alike R id (set c) (set (c.mapCode R.code)) :=
  fun _ => rfl

protected theorem modify {f f' : Context → Context}
    (h : ∀ c, f' (c.mapCode R.code) = (f c).mapCode R.code) :
    Alike R id (modify f) (modify f') :=
  fun c => congrArg (EStateM.Result.ok ()) (h c)

protected theorem ite {p : Prop} [Decidable p] {n : CompileM α} {n' : CompileM β}
    (h : Alike R g m m') (hn : Alike R g n n') :
    Alike R g (if p then m else n) (if p then m' else n') := by
  split
  · exact h
  · exact hn

end Alike

/-! ## Elementary steps -/

variable {R}

theorem note_alike (event : Event) : Alike R id (note event) (note event) :=
  .modify fun _ => rfl

theorem useName_alike (name : String) : Alike R id (useName name) (useName name) :=
  .modify fun _ => rfl

theorem forM_useName_alike (names : List String) :
    Alike R id (names.forM useName) (names.forM useName) := by
  induction names with
  | nil => exact .pure _
  | cons name rest ih => exact (useName_alike name).bind fun _ => ih

theorem check_alike (pos : Position) (result : Except Problem Unit) :
    Alike R id (check pos result) (check pos result) := by
  unfold check
  split
  · exact .pure _
  · exact .reject _ _

theorem openScope_alike (names : List String) :
    Alike R id (openScope names) (openScope names) := by
  unfold openScope
  refine Alike.bind (.modify fun c => ?_) fun _ => Alike.bind .get fun c => ?_
  · simp only [Context.mapCode, Scope.enter_mapCode]
  have hdepth : (c.mapCode R.code).scope.depth = c.scope.depth := by
    simp [Context.mapCode, Scope.mapCode, Scope.depth]
  rw [hdepth]
  exact note_alike _

theorem closeScope_alike :
    Alike R (List.map (Declaration.mapCode R.code)) closeScope closeScope := by
  refine Alike.bind .get fun c => ?_
  have hdepth : (c.mapCode R.code).scope.depth = c.scope.depth := by
    simp [Context.mapCode, Scope.mapCode, Scope.depth]
  rcases hframes : c.scope.frames with _ | ⟨frame, rest⟩
  · have hclose : c.scope.close = .error .closeWithoutFrame := by simp [Scope.close, hframes]
    have hclose' : (c.mapCode R.code).scope.close = .error .closeWithoutFrame := by
      simp [Scope.close, Context.mapCode, Scope.mapCode, hframes]
    rw [hclose, hclose']
    exact .throw _
  · have hclose : c.scope.close = .ok (frame.declarations, ⟨rest⟩) := by
      simp [Scope.close, hframes]
    have hclose' : (c.mapCode R.code).scope.close =
        .ok (frame.declarations.map (Declaration.mapCode R.code), Scope.mapCode R.code ⟨rest⟩) := by
      simp [Scope.close, Context.mapCode, Scope.mapCode, Frame.mapCode, hframes]
    rw [hclose, hclose']
    dsimp only
    rw [hdepth, List.length_map]
    refine Alike.bind (.set { c with scope := ⟨rest⟩ }) fun _ => ?_
    exact (note_alike _).bind fun _ => .pure frame.declarations

theorem queue_alike (d : Declaration) : Alike R id (queue d) (queue (d.mapCode R.code)) := by
  refine Alike.bind .get fun c => ?_
  rcases hframes : c.scope.frames with _ | ⟨frame, rest⟩
  · have hqueue : c.scope.queue d = .error .queueWithoutFrame := by simp [Scope.queue, hframes]
    have hqueue' : (c.mapCode R.code).scope.queue (d.mapCode R.code) =
        .error .queueWithoutFrame := by
      simp [Scope.queue, Context.mapCode, Scope.mapCode, hframes]
    rw [hqueue, hqueue']
    exact .throw _
  · have hqueue : c.scope.queue d =
        .ok ⟨{ frame with declarations := frame.declarations ++ [d] } :: rest⟩ := by
      simp [Scope.queue, hframes]
    have hqueue' : (c.mapCode R.code).scope.queue (d.mapCode R.code) = .ok (Scope.mapCode R.code
        ⟨{ frame with declarations := frame.declarations ++ [d] } :: rest⟩) := by
      simp [Scope.queue, Context.mapCode, Scope.mapCode, Frame.mapCode, hframes]
    rw [hqueue, hqueue']
    exact .set _

theorem uniqueName_alike (stem : String) : Alike R id (uniqueName stem) (uniqueName stem) :=
  Alike.bind .get fun _ => Alike.bind (.set _) fun _ => .pure (numberedName stem _)

/-! ## Attributes -/

variable {env : Env} {config' : Config}

section

variable (h : R.Between env.config config')
include h

theorem componentAlias_alike (path : String) :
    Alike R id (componentAlias env path) (componentAlias (env.withConfig config') path) := by
  refine Alike.bind .get fun c => ?_
  have haliases : (c.mapCode R.code).aliases = c.aliases := rfl
  rw [haliases]
  split
  · exact .pure _
  · rw [h.same]
    exact Alike.bind (.set _) fun _ => .pure _

theorem memoKey_alike : Alike R id (memoKey env) (memoKey (env.withConfig config')) := by
  refine (uniqueName_alike "m").bind fun key => ?_
  have hlabel : (env.withConfig config').label = env.label := by
    rw [h.same]
    rfl
  rw [hlabel]
  exact .pure _

theorem instanceParam_eq :
    (env.withConfig config').config.instanceParam = env.config.instanceParam := by
  rw [h.same]
  rfl

theorem qualify_alike (site : Site) (e : Expr) :
    Alike R R.code (qualify env site e) (qualify (env.withConfig config') site (R.expr e)) := by
  refine Alike.bind .get fun c => ?_
  dsimp only
  rw [Context.isBound_mapCode, R.freeNames]
  refine (forM_useName_alike _).bind fun _ => .pure_of_eq ?_
  rw [R.qualify, instanceParam_eq h]

theorem binding_alike (site : Site) (text : String) (pos : Position) :
    Alike R R.code (binding env site text pos)
      (binding (env.withConfig config') site text pos) := by
  unfold binding
  split
  · exact .reject _ _
  · rename_i e hform
    have hchain : R.expr e = e := by
      obtain ⟨first, rest, -, -, rfl⟩ := Binding.exists_chain_of_form hform
      exact R.chain first rest
    have hqualify := qualify_alike h site e
    rwa [hchain] at hqualify
  · refine (useName_alike _).bind fun _ => .pure_of_eq ?_
    rw [R.index, R.ref, R.code_text, instanceParam_eq h]

theorem resolve_alike (site : Site) (pos : Position) (isDirective : Bool) (content : Content) :
    Alike R R.code (resolve env site pos isDirective content)
      (resolve (env.withConfig config') site pos isDirective (content.mapExpr R.expr)) := by
  cases content with
  | expression e => exact qualify_alike h site e
  | constant c =>
    have hconstant : Alike R R.code (pure (.constant none c)) (pure (.constant none c)) :=
      .pure_of_eq (R.constant c)
    simp only [resolve, Content.mapExpr]
    split
    · exact .ite (binding_alike h site _ pos) hconstant
    · exact hconstant

theorem memoized_code (key : String) (value : Code) :
    memoized (env.withConfig config') key (R.code value) = R.code (memoized env key value) := by
  have hmemo : (env.withConfig config').config.contextParam = env.config.contextParam := by
    rw [h.same]
    rfl
  have hcall : ∀ field arguments,
      R.code (.call (.refMember env.config.contextParam field) arguments) =
        .call (.refMember env.config.contextParam field) (arguments.map R.code) := h.memo
  simp only [memoized, R.or, hcall, List.map_cons, List.map_nil, R.code_text, hmemo]

/-- A callback that the instance alone decides is kept in either way of writing it. -/
theorem keepCallback_alike (root value : Code) :
    Alike R R.code
      (do
        let scope := (← get).scope
        if root.isNamed env.config.instanceParam && !value.names.any scope.isBound then
          return memoized env (← memoKey env) value
        else return value)
      (do
        let scope := (← get).scope
        if root.isNamed env.config.instanceParam && !(R.code value).names.any scope.isBound then
          return memoized (env.withConfig config') (← memoKey (env.withConfig config'))
            (R.code value)
        else return R.code value) := by
  refine Alike.bind .get fun c => ?_
  dsimp only
  rw [Context.isBound_mapCode, R.names]
  refine .ite ((memoKey_alike h).bind fun key => .pure_of_eq ?_) (.pure _)
  exact (memoized_code h key value).symm

theorem bindCallback_alike (target : Code) :
    Alike R R.code (bindCallback env target)
      (bindCallback (env.withConfig config') (R.code target)) := by
  have hhelper : (env.withConfig config').config.bindHelper = env.config.bindHelper := by
    rw [h.same]
    rfl
  have hcall : R.code (.call (.ref env.config.bindHelper)
      [target, .ref env.config.instanceParam]) =
      .call (.ref env.config.bindHelper) [R.code target, .ref env.config.instanceParam] := by
    rw [R.call, List.map_cons, List.map_cons, List.map_nil, R.ref]
  unfold bindCallback
  dsimp only
  rw [instanceParam_eq h, hhelper, R.isMethodOf, R.isNamed, ← hcall]
  refine .ite ?_ ?_
  · exact keepCallback_alike h target.root target
  · refine Alike.bind (.modify fun _ => rfl) fun _ => ?_
    exact keepCallback_alike h target.root _

theorem resolveProperty_alike (site : Site) (pos : Position) (isComponent : Bool) (p : Property) :
    Alike R (Entry.mapCode R.code) (resolveProperty env site pos isComponent p)
      (resolveProperty (env.withConfig config') site pos isComponent (p.mapExpr R.expr)) := by
  refine (resolve_alike h site pos _ _).bind fun value => .ite ?_ ?_
  · exact (bindCallback_alike h value).bind fun code =>
      .pure_of_eq (Entry.ofProperty_code R isComponent p code).symm
  · exact .pure_of_eq (Entry.ofProperty_code R isComponent p value).symm

theorem resolveReading_alike (site : Site) (pos : Position) (isComponent : Bool)
    (reading : Reading) :
    Alike R (List.map (Part.mapCode R.code)) (resolveReading env site pos isComponent reading)
      (resolveReading (env.withConfig config') site pos isComponent
        (reading.mapExpr R.expr)) := by
  cases reading with
  | iteration | slot => exact .pure _
  | component content | condition content | alternative content =>
    exact (resolve_alike h site pos _ content).bind fun _ => .pure_of_eq rfl
  | property p =>
    exact (resolveProperty_alike h site pos isComponent p).bind fun _ => .pure_of_eq rfl

theorem resolveReadings_alike (site : Site) (pos : Position) (isComponent : Bool)
    (readings : List Reading) :
    Alike R (List.map (Part.mapCode R.code)) (resolveReadings env site pos isComponent readings)
      (resolveReadings (env.withConfig config') site pos isComponent
        (readings.map (Reading.mapExpr R.expr))) := by
  induction readings with
  | nil => exact .pure _
  | cons reading rest ih =>
    refine (resolveReading_alike h site pos isComponent reading).bind fun parts => ?_
    exact ih.bind fun more => .pure_of_eq List.map_append

/-! ## Items -/

theorem iterate_alike (loop : Loop) (ds : List Declaration) (body : Code) (flatten : Bool) :
    Alike R R.code (iterate env loop ds body flatten)
      (iterate (env.withConfig config') (loop.mapCode R.code) (ds.map (Declaration.mapCode R.code))
        (R.code body) flatten) := by
  have hcall : ∀ function, Alike R R.code
      (pure (iterationCall env.config loop function flatten))
      (pure (iterationCall config' (loop.mapCode R.code) (R.code function) flatten)) :=
    fun function => .pure_of_eq (iterationCall_code h loop function flatten).symm
  unfold iterate
  rcases ds with _ | ⟨d, ds⟩
  · have hinline := hcall (.lambda loop.place loop.parameters body)
    rwa [R.lambda] at hinline
  · refine Alike.bind (uniqueName_alike "loop") fun name => ?_
    have hqueue := queue_alike (R := R) (.define ⟨name, loop.place, loop.parameters, d :: ds, body⟩)
    rw [Declaration.mapCode, Function.mapCode, mapStatements_eq_map] at hqueue
    have hdeclared := hcall (.ref name)
    rw [R.ref] at hdeclared
    exact hqueue.bind fun _ => hdeclared

theorem finishSibling_alike (s : Sibling) (alternative : Option Item) :
    Alike R (Item.mapCode R.code) (finishSibling env s alternative)
      (finishSibling (env.withConfig config') (s.mapCode R.code)
        (alternative.map (Item.mapCode R.code))) := by
  obtain ⟨item, pos, isAlternative, form⟩ := s
  have hnested : (alternative.map (Item.mapCode R.code)).any Item.nested =
      alternative.any Item.nested := by
    cases alternative <;> rfl
  have hlist : (alternative.map (Item.mapCode R.code)).any Item.mayBeList =
      alternative.any Item.mayBeList := by
    cases alternative <;> rfl
  cases form with
  | fixed | spliced => exact .pure _
  | guarded condition =>
    refine .pure_of_eq ?_
    rw [hnested]
    simp only [Item.mapCode, ← Sibling.choose_code h]
    rfl
  | repeated loop ds condition =>
    cases condition with
    | none => exact (iterate_alike h loop ds item.code false).bind fun _ => .pure _
    | some condition =>
      simp only [finishSibling, Sibling.mapCode, Form.mapCode, Option.map_some, hlist]
      refine Alike.bind (g := R.code) ?_ fun _ => .pure _
      have := iterate_alike h loop ds
        (Sibling.choose env.config condition item.code alternative) (alternative.any Item.mayBeList)
      rwa [← Sibling.choose_code h] at this

theorem finishBranches_alike (siblings : List Sibling) :
    Alike R (Option.map (Item.mapCode R.code)) (finishBranches env siblings)
      (finishBranches (env.withConfig config') (siblings.map (Sibling.mapCode R.code))) := by
  induction siblings with
  | nil => exact .pure _
  | cons s rest ih =>
    exact ih.bind fun alternative => (finishSibling_alike h s alternative).map fun _ => rfl

theorem finishChain_alike (chain : List Sibling) :
    Alike R (List.map (Item.mapCode R.code)) (finishChain env chain)
      (finishChain (env.withConfig config') (chain.map (Sibling.mapCode R.code))) := by
  rcases chain with _ | ⟨s, rest⟩
  · exact .pure _
  · have hbranches := finishBranches_alike h (s :: rest)
    refine .ite (.reject _ _) ?_
    have hitem : Alike R (List.map (Item.mapCode R.code))
        (do return (← finishBranches env (s :: rest)).toList)
        (do return (← finishBranches (env.withConfig config')
          ((s :: rest).map (Sibling.mapCode R.code))).toList) :=
      hbranches.bind fun item => .pure_of_eq (by cases item <;> rfl)
    obtain ⟨item, pos, isAlternative, form⟩ := s
    cases form with
    | spliced items => exact .pure_of_eq (by simp [Sibling.mapCode, Item.mapCode, Item.inSlot])
    | fixed | guarded | repeated => exact hitem

theorem finishChains_alike (chains : List (List Sibling)) :
    Alike R (List.map (Item.mapCode R.code)) (finishChains env chains)
      (finishChains (env.withConfig config') (chains.map (List.map (Sibling.mapCode R.code)))) := by
  induction chains with
  | nil => exact .pure _
  | cons chain rest ih =>
    refine (finishChain_alike h chain).bind fun items => ?_
    exact ih.bind fun more => .pure_of_eq List.map_append

theorem finishSiblings_alike (siblings : List Sibling) :
    Alike R (List.map (Item.mapCode R.code)) (finishSiblings env siblings)
      (finishSiblings (env.withConfig config') (siblings.map (Sibling.mapCode R.code))) := by
  unfold finishSiblings
  rw [Sibling.chains_mapCode]
  exact finishChains_alike h _

/-! ## Elements -/

omit h in
theorem guardItems_alike (condition : Code) (items : List Item) :
    Alike R (List.map (Item.mapCode R.code)) (guardItems condition items)
      (guardItems (R.code condition) (items.map (Item.mapCode R.code))) := by
  unfold guardItems
  rcases items with _ | ⟨item, items⟩
  · exact .pure _
  · refine Alike.bind (uniqueName_alike "expr") fun name => ?_
    have hqueue := queue_alike (R := R) (.assign name (.or condition (.constant none .null)))
    rw [Declaration.mapCode, R.or, R.constant] at hqueue
    refine hqueue.bind fun _ => .pure_of_eq ?_
    rw [List.map_map, List.map_map]
    exact List.map_congr_left fun i _ => by
      simp [guardItem, Item.mapCode, R.and, R.ref, Item.mayBeList]

theorem unguardedSibling_alike (pos : Position) (slot : Option String) (isAlternative : Bool)
    (loop : Option Loop) (items : List Item) :
    Alike R (Sibling.mapCode R.code) (templateSibling env pos slot isAlternative none loop items)
      (templateSibling (env.withConfig config') pos slot isAlternative none
        (loop.map (Loop.mapCode R.code)) (items.map (Item.mapCode R.code))) := by
  rcases loop with _ | loop
  · refine .pure_of_eq ?_
    simp only [Sibling.mapCode, Item.mapCode, Form.mapCode, ← Item.assemble_mapCode h]
    rfl
  · have hbody : iteratedBody (env.withConfig config').config (items.map (Item.mapCode R.code)) =
        (R.code (iteratedBody env.config items).1, (iteratedBody env.config items).2) :=
      iteratedBody_mapCode h items
    refine closeScope_alike.bind fun ds => ?_
    rw [hbody]
    exact (iterate_alike h loop ds _ _).bind fun _ => .pure_of_eq rfl

theorem templateSibling_alike (pos : Position) (slot : Option String) (isAlternative : Bool)
    (condition : Option Code) (loop : Option Loop) (items : List Item) :
    Alike R (Sibling.mapCode R.code)
      (templateSibling env pos slot isAlternative condition loop items)
      (templateSibling (env.withConfig config') pos slot isAlternative
        (condition.map R.code) (loop.map (Loop.mapCode R.code))
        (items.map (Item.mapCode R.code))) := by
  rcases condition with _ | condition
  · exact unguardedSibling_alike h pos slot isAlternative loop items
  · exact (guardItems_alike condition items).bind fun kept =>
      unguardedSibling_alike h pos slot isAlternative loop kept

theorem importComponent_alike (pos : Position) (path : String) :
    Alike R R.code (importComponent env pos path)
      (importComponent (env.withConfig config') pos path) := by
  refine .ite (Alike.bind (g := id) (.reject _ _) fun _ => ?_) ?_
  all_goals
    refine (componentAlias_alike h path).bind fun localName => ?_
    have hreference : Alike R R.code (pure (.ref localName)) (pure (.ref localName)) :=
      .pure_of_eq (R.ref localName)
    refine Alike.bind .get fun c => .ite ?_ ?_
    · exact (note_alike _).bind fun _ => Alike.bind (.modify fun _ => rfl) fun _ => hreference
    · exact Alike.bind (.modify fun _ => rfl) fun _ => hreference

theorem dynamicReference_alike (pos : Position) (written : Option Content)
    (resolved : Option Code) :
    Alike R R.code (dynamicReference env pos written resolved)
      (dynamicReference (env.withConfig config') pos (written.map (Content.mapExpr R.expr))
        (resolved.map R.code)) := by
  have htext : (written.map (Content.mapExpr R.expr)).bind Content.text? =
      written.bind Content.text? := by
    cases written with
    | none => rfl
    | some content => exact Content.text?_mapExpr R.expr content
  unfold dynamicReference
  rw [htext]
  rcases Text.given (written.bind Content.text?) with _ | name
  · rcases written with _ | constant | e
    · exact .reject _ _
    · exact .reject _ _
    · cases resolved with
      | none => exact .reject _ _
      | some code => exact .pure _
  · exact importComponent_alike h pos _

theorem elementCall_alike (pos : Position) (tag : Tag) (kind : ElementKind)
    (written : Option Content) (parts : List Part) (items : List Item) :
    Alike R R.code (elementCall env pos tag kind written parts items)
      (elementCall (env.withConfig config') pos tag kind (written.map (Content.mapExpr R.expr))
        (parts.map (Part.mapCode R.code)) (items.map (Item.mapCode R.code))) := by
  have hentries : Entry.attributes .dict (Part.entries (parts.map (Part.mapCode R.code))) =
      (Entry.attributes .dict (Part.entries parts)).map fun e => (e.1, R.code e.2) := by
    rw [Part.entries_mapCode, Entry.attributes_mapCode]
  have hattributes : Code.dict (Entry.attributes .dict (Part.entries
      (parts.map (Part.mapCode R.code)))) =
      R.code (.dict (Entry.attributes .dict (Part.entries parts))) := by
    rw [hentries, R.dict]
  have hitems : Item.assemble config' (items.map (Item.mapCode R.code)) =
      R.code (Item.assemble env.config items) := Item.assemble_mapCode h items
  -- a call with one operand before the attributes
  have hcall : ∀ {primitive primitive' : String} (reference : Code),
      R.Carries env.config config' primitive primitive' →
      R.code (env.config.callPrimitive primitive [reference, .dict (Entry.attributes .dict
        (Part.entries parts)), Item.assemble env.config items]) =
      config'.callPrimitive primitive' [R.code reference, .dict (Entry.attributes .dict
        (Part.entries (parts.map (Part.mapCode R.code)))),
        Item.assemble config' (items.map (Item.mapCode R.code))] := by
    intro primitive primitive' reference hprimitive
    rw [hprimitive, hattributes, hitems]
    rfl
  cases kind with
  | virtual ns =>
    exact (importComponent_alike h pos _).bind fun reference =>
      .pure_of_eq (hcall reference h.virtualElement)
  | dynamic =>
    refine Alike.bind (g := R.code) ?_ fun reference =>
      .pure_of_eq (hcall reference h.virtualElement)
    rw [Part.component?_mapCode]
    exact dynamicReference_alike h pos written _
  | custom =>
    refine (importComponent_alike h pos _).bind fun reference => .pure_of_eq ?_
    have hslotset : (if (items.map (Item.mapCode R.code)).isEmpty then []
        else [("slotset", Code.dict (Item.slots config' (items.map (Item.mapCode R.code))))]) =
        (if items.isEmpty then [] else [("slotset", Code.dict (Item.slots env.config items))]).map
          fun e => (e.1, R.code e.2) := by
      rcases items with _ | ⟨item, items⟩
      · rfl
      · rw [Item.slots_mapCode h, List.isEmpty_map, List.isEmpty_cons, if_neg (by simp),
          if_neg (by simp), List.map_cons, List.map_nil, R.dict]
    have hcalled := h.customElement [.text (Component.tagPath tag.name), reference,
      .dict (Entry.attributes .dict (Part.entries parts) ++
        if items.isEmpty then [] else [("slotset", .dict (Item.slots env.config items))])]
    simp only [List.map_cons, List.map_nil, R.dict, List.map_append, R.code_text, ← hslotset,
      ← hentries] at hcalled
    exact hcalled
  | template | outlet | plain =>
    have hcalled := hcall (.text tag.name) h.element
    rw [R.code_text] at hcalled
    exact .pure_of_eq hcalled

omit h in
theorem elementForm_alike (loop : Option Loop) (condition : Option Code) :
    Alike R (Form.mapCode R.code) (elementForm loop condition)
      (elementForm (loop.map (Loop.mapCode R.code)) (condition.map R.code)) := by
  rcases loop with _ | loop
  · rcases condition with _ | condition
    · exact .pure _
    · exact .pure _
  · exact closeScope_alike.bind fun _ => .pure _

theorem readElement_alike (pos : Position) (tag : Tag) (attributes : List Attribute) :
    Alike R (Prod.map (List.map (Reading.mapExpr R.expr)) id) (readElement env pos tag attributes)
      (readElement (env.withConfig config') pos tag (mapAttributes R.expr attributes)) := by
  have hread : Reading.ofAttributes (env.withConfig config').config []
      (mapAttributes R.expr attributes) =
      (Reading.ofAttributes env.config [] attributes).map (List.map (Reading.mapExpr R.expr)) := by
    rw [Reading.ofAttributes_mapExpr]
    exact congrArg _ (Reading.ofAttributes_congr h.reserved [] attributes)
  unfold readElement
  rw [hread]
  refine .ite (Alike.bind (g := id) (.reject _ _) fun _ => ?_) ?_
  all_goals
    rcases Reading.ofAttributes env.config [] attributes with ⟨problem, place⟩ | readings
    · exact .reject _ _
    · simp only [Except.map, Reading.component?_mapExpr, Option.isSome_map,
        Reading.any_isDirective_mapExpr]
      exact .ite (Alike.bind (g := id) (.reject _ _) fun _ => .pure _) (.pure _)

theorem openLoop_alike (place : Place) (pos : Position) (readings : List Reading) :
    Alike R (Option.map (Loop.mapCode R.code)) (openLoop env place pos readings)
      (openLoop (env.withConfig config') place pos (readings.map (Reading.mapExpr R.expr))) := by
  unfold openLoop
  simp only [Reading.loopParts_mapExpr, LoopPart.iterable?_mapExpr, LoopPart.parameters_mapExpr]
  rcases LoopPart.iterable? (Reading.loopParts readings) with problem | _ | content
  · exact .reject _ _
  · exact .pure _
  · refine (resolve_alike h _ pos true content).bind fun iterable => ?_
    rcases LoopPart.parameters (Reading.loopParts readings) with problem | parameters
    · exact .reject _ _
    · exact (openScope_alike _).bind fun _ => .pure _

theorem lowerElement_alike (place : Place) (pos : Position) (tag : Tag)
    (attributes : List Attribute) {children children' : CompileM (List Sibling)}
    (hchildren : Alike R (List.map (Sibling.mapCode R.code)) children children') :
    Alike R (Sibling.mapCode R.code) (lowerElement env place pos tag attributes children)
      (lowerElement (env.withConfig config') place pos tag (mapAttributes R.expr attributes)
        children') := by
  refine (readElement_alike h pos tag attributes).bind fun read => ?_
  obtain ⟨readings, kind⟩ := read
  refine (openLoop_alike h place pos readings).bind fun loop => ?_
  refine (resolveReadings_alike h _ pos _ readings).bind fun parts => ?_
  refine hchildren.bind fun siblings => (finishSiblings_alike h siblings).bind fun items => ?_
  simp only [id, Part.isAlternative_mapCode, Part.condition?_mapCode,
    Reading.slotOf_mapExpr, Reading.outletName_mapExpr, Reading.component?_mapExpr]
  split
  · exact templateSibling_alike h pos _ _ _ loop items
  · refine .pure_of_eq ?_
    have hcode := outletCode_mapCode h (Reading.outletName readings) items
    simp only [Sibling.mapCode, Item.mapCode, Form.mapCode, ← hcode]
    rfl
  · refine (elementCall_alike h pos tag _ _ parts items).bind fun code => ?_
    exact (elementForm_alike loop _).bind fun form => .pure_of_eq rfl

end

/-! ## Nodes -/

mutual

theorem lowerNode_alike (h : R.Between env.config config') (around : Place) (before : Nat) :
    ∀ node : Node, Alike R (List.map (Sibling.mapCode R.code)) (lowerNode env around before node)
      (lowerNode (env.withConfig config') around before (node.mapExpr R.expr))
  | .text pos value => by
    rw [lowerNode, Node.mapExpr, lowerNode]
    refine .ite (.pure _) (.pure_of_eq ?_)
    simp only [List.map_cons, List.map_nil, Sibling.mapCode, Item.mapCode, Form.mapCode,
      R.code_text]
  | .placeholder pos none => by
    rw [lowerNode, Node.mapExpr, Option.map_none, lowerNode]
    exact .pure _
  | .placeholder pos (some e) => by
    rw [lowerNode, Node.mapExpr, Option.map_some, lowerNode, R.check]
    refine (check_alike pos _).bind fun _ => (qualify_alike h _ e).bind fun code => .pure_of_eq ?_
    have hcall := h.text [code]
    simp only [List.map_cons, List.map_nil, Sibling.mapCode, Item.mapCode, Form.mapCode, hcall]
    rfl
  | .fragment pos children => by
    rw [lowerNode, Node.mapExpr, lowerNode]
    exact lowerNodes_alike h around before children
  | .element pos tag attributes children => by
    rw [lowerNode, Node.mapExpr, lowerNode]
    exact (lowerElement_alike h _ pos tag attributes (lowerNodes_alike h _ 0 children)).bind
      fun _ => .pure_of_eq rfl
  | .literal .. => by
    rw [lowerNode, Node.mapExpr, lowerNode]
    exact .throw _
  | .attr _ => by
    rw [lowerNode, Node.mapExpr, lowerNode]
    exact .throw _
  | .template .. => by
    rw [lowerNode, Node.mapExpr, lowerNode]
    exact .throw _

theorem lowerNodes_alike (h : R.Between env.config config') (around : Place) (before : Nat) :
    ∀ nodes : List Node, Alike R (List.map (Sibling.mapCode R.code))
      (lowerNodes env around before nodes)
      (lowerNodes (env.withConfig config') around before (mapNodes R.expr nodes))
  | [] => by
    rw [lowerNodes, mapNodes, lowerNodes]
    exact .pure _
  | node :: rest => by
    rw [lowerNodes, mapNodes, lowerNodes, Node.elements_mapExpr, List.length_map]
    refine (lowerNode_alike h around before node).bind fun siblings => ?_
    exact (lowerNodes_alike h around _ rest).bind fun more => .pure_of_eq List.map_append

end

/-! ## Units -/

section

variable (h : R.Between env.config config')
include h

theorem rootCode_alike (node : Node) :
    Alike R R.code (rootCode env node)
      (rootCode (env.withConfig config') (node.mapExpr R.expr)) := by
  unfold rootCode
  split
  · rename_i pos attributes children
    exact (lowerElement_alike h _ _ _ _ (lowerNodes_alike h _ _ children)).bind fun _ => .pure _
  · rename_i hroot
    rw [← Node.pos_mapExpr R.expr]
    split
    · rename_i heq
      cases node with
      | element => cases heq; exact absurd rfl (hroot _ _ _)
      | text | placeholder | fragment | literal | attr | template => cases heq
    · exact .reject _ _

theorem lowerRoot_alike (t : Template) :
    Alike R R.code (lowerRoot env t) (lowerRoot (env.withConfig config') (t.mapExpr R.expr)) := by
  have hbody : (t.mapExpr R.expr).body.filter (fun node => !node.isBlank) =
      (t.body.filter fun node => !node.isBlank).map (Node.mapExpr R.expr) := by
    rw [Template.mapExpr, mapNodes_eq_map, List.filter_map]
    simp only [Function.comp_def, Node.isBlank_mapExpr]
  rw [lowerRoot_eq, lowerRoot_eq, hbody]
  generalize t.body.filter (fun node => !node.isBlank) = nodes
  rcases nodes with _ | ⟨root, _ | ⟨second, rest⟩⟩
  · exact .reject _ _
  · exact rootCode_alike h root
  · simp only [List.map_cons, Node.pos_mapExpr]
    exact .reject _ _

theorem importsOf_alike (paths : List String) :
    Alike R id (importsOf env paths) (importsOf (env.withConfig config') paths) := by
  induction paths with
  | nil => exact .pure _
  | cons path rest ih =>
    have hitem : Alike R id (importOf env path) (importOf (env.withConfig config') path) :=
      (componentAlias_alike h path).bind fun _ => .pure _
    exact hitem.bind fun _ => ih.bind fun _ => .pure _

theorem compileUnit_alike (t : Template) :
    Alike R (Compiled.mapCode R.code) (compileUnit env t)
      (compileUnit (env.withConfig config') (t.mapExpr R.expr)) := by
  refine (note_alike _).bind fun _ => (openScope_alike _).bind fun _ => ?_
  refine (lowerRoot_alike h t).bind fun result => closeScope_alike.bind fun ds => ?_
  refine Alike.bind .get fun c => (importsOf_alike h _).bind fun imports => ?_
  refine Alike.bind .get fun c' => (note_alike _).bind fun _ => .pure_of_eq ?_
  have hfunction : (renderFunction env.config ds result).mapCode R.code =
      renderFunction config' (ds.map (Declaration.mapCode R.code)) (R.code result) := by
    rw [renderFunction, Function.mapCode, mapStatements_eq_map, h.same]
    rfl
  simp only [Compiled.mapCode, Module.mapCode, hfunction]
  rw [h.same]
  rfl

end

end CompileM

variable {R}

/-- Compilations under configurations that a recoding takes to one another fail alike, or end with
modules that it takes to one another. -/
theorem compile_recode {env : Env} {config' : Config} (h : R.Between env.config config')
    (t : Template) : compile (env.withConfig config') (t.mapExpr R.expr) =
      ((compile env t).1.map (Compiled.mapCode R.code), (compile env t).2) := by
  have hrun : (CompileM.compileUnit (env.withConfig config') (t.mapExpr R.expr)).run .initial =
      CompileM.outcome R (Compiled.mapCode R.code) ((CompileM.compileUnit env t).run .initial) :=
    CompileM.compileUnit_alike h t .initial
  unfold compile
  rw [hrun]
  rcases (CompileM.compileUnit env t).run .initial with ⟨compiled, c⟩ | ⟨failure, c⟩
  · rfl
  · rfl

end TemplateCompiler
