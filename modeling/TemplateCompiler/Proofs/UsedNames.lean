import TemplateCompiler.Proofs.Place

/-!
# The names a module lists

What a template reads from its instance, told from the markup alone: a walk through its elements
with the names that iterations bind, each element's iterable outside of its own iteration, its other
attributes and its children inside. The list in the manifest is that of the walk, every name where
it first occurs.
-/

namespace TemplateCompiler

/-- The names that no iteration binds. -/
def unbound (bound names : List String) : List String :=
  names.filter fun name => !bound.contains name

/-- The names in an expression, in the order in which they are written. -/
def Expr.names : Expr → List String
  | .name _ id => [id]
  | .member _ value _ => value.names
  | .index _ value key => value.names ++ key.names
  | .constant .. | .foreign .. => []

/-- The name in the text of a directive: what a path begins with, or a dashed text as a whole. -/
def Binding.usedNames (bound : List String) (text : String) : List String :=
  match identifierPath? (Text.stripped text) with
  | some (first :: _) => unbound bound [first]
  | _ => if isDashed (Text.stripped text) then [Text.stripped text] else []

def Content.usedNames (bound : List String) (isDirective : Bool) : Content → List String
  | .expression e => unbound bound e.names
  | .constant (.text text) => if isDirective then Binding.usedNames bound text else []
  | .constant _ => []

namespace Role

/-- Whether an attribute tells how its element repeats. -/
def iterates : Role → Bool
  | modifier .iterate _ | event .iterate _ | directed .iterate _ => true
  | _ => false

def isDirective : Role → Bool
  | modifier .. | event .. | directed .. => true
  | component | slot | plain _ => false

end Role

/-- The names in an attribute's value. What an element iterates over is not looked for here. -/
def Attribute.usedNames (bound : List String) (a : Attribute) : List String :=
  match Role.ofTag a.tag, Content.ofAttribute a with
  | .ok role, .ok content =>
    if role.iterates then [] else content.usedNames bound role.isDirective
  | _, _ => []

/-- The names in what an element iterates over. -/
def Reading.iterableNames (bound : List String) (readings : List Reading) : List String :=
  match LoopPart.iterable? (loopParts readings) with
  | .ok (some content) => content.usedNames bound true
  | _ => []

mutual

def Node.usedNames (config : Config) (bound : List String) : Node → List String
  | .element pos tag attributes children =>
    let readings := Node.readings config (.element pos tag attributes children)
    let inner := Reading.parameters readings ++ bound
    Reading.iterableNames bound readings ++ attributes.flatMap (Attribute.usedNames inner) ++
      Node.usedNamesOf config inner children
  | .placeholder _ (some e) => unbound bound e.names
  | .fragment _ children => Node.usedNamesOf config bound children
  | .placeholder _ none | .text .. | .literal .. | .attr _ | .template .. => []

def Node.usedNamesOf (config : Config) (bound : List String) : List Node → List String
  | [] => []
  | node :: rest => node.usedNames config bound ++ Node.usedNamesOf config bound rest

end

/-- The names a unit reads from its instance, with repetition. -/
def Template.usedNames (config : Config) (t : Template) : List String :=
  (t.root?.map (Node.usedNames config [])).getD []

/-! ## What attributes read -/

theorem Expr.freeNames_eq_filter (bound : String → Bool) :
    ∀ e : Expr, e.freeNames bound = e.names.filter fun name => !bound name
  | .name _ id => by
    by_cases h : bound id <;> simp [freeNames, names, h]
  | .member _ value _ => value.freeNames_eq_filter bound
  | .index _ value key => by
    rw [freeNames, value.freeNames_eq_filter bound, key.freeNames_eq_filter bound, names,
      List.filter_append]
  | .constant .. | .foreign .. => rfl

theorem Expr.freeNames_eq (bound : List String) (e : Expr) :
    e.freeNames bound.contains = unbound bound e.names :=
  e.freeNames_eq_filter bound.contains

theorem Binding.names_chain (first : String) (rest : List String) :
    (Binding.chain first rest).names = [first] := by
  have hfold : ∀ (rest : List String) (e : Expr),
      (rest.foldl (fun e id => Expr.member none e id) e).names = e.names := by
    intro rest
    induction rest with
    | nil => exact fun _ => rfl
    | cons id rest ih => exact fun e => ih (.member none e id)
  exact hfold rest (.name none first)

namespace Reading

/-- The names in what an attribute is read as. -/
def usedNames (bound : List String) : Reading → List String
  | iteration _ | slot _ => []
  | component content => content.usedNames bound false
  | condition content | alternative content => content.usedNames bound true
  | property p => p.content.usedNames bound p.directive.isSome

variable {config : Config} {bound : List String}

theorem usedNames_of_isRead {role : Role} {content : Content} {reading : Reading}
    (h : Role.IsRead config content role reading) : reading.usedNames bound =
      if role.iterates then [] else content.usedNames bound role.isDirective := by
  cases h with
  | iteration => rfl
  | slot names =>
    -- a slot is named by a constant
    unfold slotName at names
    split at names
    · rfl
    · rfl
    · simp at names
  | @condition d directive | @alternative d directive | @modifier d _ directive
  | @event d _ directive | @directed d _ directive =>
    cases d with
    | iterate => exact absurd rfl directive
    | set | bind => rfl
  | component | plain => rfl

theorem usedNames_of_ofAttributes {attributes : List Attribute} {readings : List Reading}
    (h : ofAttributes config [] attributes = .ok readings) :
    readings.flatMap (usedNames bound) = attributes.flatMap (Attribute.usedNames bound) := by
  obtain ⟨hreads, -⟩ := ofAttributes_isRead h
  clear h
  induction hreads with
  | nil => rfl
  | cons head _ ih =>
    obtain ⟨role, content, hrole, hcontent, hread⟩ := head
    rw [List.flatMap_cons, List.flatMap_cons, ih, usedNames_of_isRead hread]
    simp only [Attribute.usedNames, hrole, hcontent]

end Reading

namespace Binding

variable {bound : List String} {text : String}

theorem usedNames_of_path {e : Expr} (h : form text = .ok (.path e)) :
    usedNames bound text = unbound bound e.names := by
  unfold form at h
  unfold usedNames
  dsimp only at h
  generalize identifierPath? (Text.stripped text) = path at h ⊢
  generalize Text.stripped text = name at h ⊢
  split at h
  · rename_i first rest
    split at h
    · simp at h
    · simp only [Except.ok.injEq, Form.path.injEq] at h
      rw [← h, names_chain]
  · split at h <;> simp at h

theorem usedNames_of_dashed {name : String} (h : form text = .ok (.dashed name)) :
    usedNames bound text = [name] := by
  unfold form at h
  unfold usedNames
  dsimp only at h
  generalize identifierPath? (Text.stripped text) = path at h ⊢
  generalize Text.stripped text = written at h ⊢
  rcases path with _ | _ | ⟨first, rest⟩
  case none | some.nil =>
    by_cases hd : isDashed written = true
    · simp only [hd, if_true, Except.ok.injEq, Form.dashed.injEq] at h
      subst h
      simp [hd]
    · simp [hd] at h
  case some.cons =>
    dsimp only at h
    split at h <;> simp at h

end Binding

/-! ## What a step records -/

/-- A step that records names as used, in their order. -/
def Records (c c' : Context) (names : List String) : Prop :=
  c'.manifest.usedNames = names.foldl record c.manifest.usedNames

theorem Records.of_eq {c c' : Context} (h : c'.manifest.usedNames = c.manifest.usedNames) :
    Records c c' [] :=
  h

theorem Records.trans {c c₁ c' : Context} {names more : List String} (h : Records c c₁ names)
    (h' : Records c₁ c' more) : Records c c' (names ++ more) := by
  unfold Records at h h' ⊢
  rw [h', h, List.foldl_append]

/-- A step that records names and nothing else of what a template depends on. -/
structure Uses (c c' : Context) (names : List String) : Prop where
  records : Records c c' names
  components : c'.manifest.components = c.manifest.components
  aliases : c'.aliases = c.aliases

theorem Uses.refl (c : Context) : Uses c c [] :=
  ⟨rfl, rfl, rfl⟩

theorem Uses.trans {c c₁ c' : Context} {names more : List String} (h : Uses c c₁ names)
    (h' : Uses c₁ c' more) : Uses c c' (names ++ more) :=
  ⟨h.records.trans h'.records, h'.components.trans h.components, h'.aliases.trans h.aliases⟩

/-- What is recorded one by one comes out without repetition. -/
theorem foldl_record (names members : List String) :
    names.foldl record members = members ++ (unbound members names).eraseDups := by
  induction names generalizing members with
  | nil => simp [unbound]
  | cons name rest ih =>
    rw [List.foldl_cons, ih, record]
    by_cases h : members.contains name
    · have hnames : unbound members (name :: rest) = unbound members rest :=
        List.filter_cons_of_neg (by simpa using h)
      rw [if_pos h, hnames]
    · have hnames : unbound members (name :: rest) = name :: unbound members rest :=
        List.filter_cons_of_pos (by simpa using h)
      have hrest : unbound (members ++ [name]) rest =
          (unbound members rest).filter fun other => !other == name := by
        simp only [unbound, List.filter_filter]
        refine List.filter_congr fun other _ => ?_
        by_cases ho : other = name <;> simp [ho]
      rw [if_neg h, hnames, hrest, List.eraseDups_cons, List.append_assoc]
      rfl

namespace CompileM

variable {env : Env} {c c' : Context} {bound : List String}

theorem pure_uses {α : Type} {a b : α} (h : Yields (pure a) c b c') : Uses c c' [] :=
  (yields_pure.1 h).2 ▸ .refl c

theorem useName_uses {name : String} {u : Unit} (h : Yields (useName name) c u c') :
    Uses c c' [name] := by
  simp only [useName, yields_modify] at h
  subst h
  exact ⟨rfl, rfl, rfl⟩

theorem forM_useName_uses {u : Unit} :
    ∀ {names : List String} {c c' : Context}, Yields (names.forM useName) c u c' →
      Uses c c' names
  | [], c, c', h => by
    rw [List.forM] at h
    exact pure_uses h
  | name :: rest, c, c', h => by
    rw [List.forM, yields_bind] at h
    obtain ⟨_, c₁, h₁, h₂⟩ := h
    exact (useName_uses h₁).trans (forM_useName_uses h₂)

theorem note_uses {event : Event} {u : Unit} (h : Yields (note event) c u c') :
    Uses c c' [] := by
  simp only [note, yields_modify] at h
  subst h
  exact ⟨rfl, rfl, rfl⟩

theorem note_records {event : Event} {u : Unit} (h : Yields (note event) c u c') :
    Records c c' [] :=
  (note_uses h).records

theorem openScope_uses {names : List String} {u : Unit}
    (h : Yields (openScope names) c u c') : Uses c c' [] := by
  simp only [openScope, yields_bind, yields_modify, yields_get] at h
  obtain ⟨_, c₁, rfl, _, _, ⟨rfl, rfl⟩, hn⟩ := h
  have hopened : Uses c { c with scope := c.scope.enter names } [] := ⟨rfl, rfl, rfl⟩
  exact hopened.trans (note_uses hn)

theorem openScope_records {names : List String} {u : Unit}
    (h : Yields (openScope names) c u c') : Records c c' [] :=
  (openScope_uses h).records

theorem closeScope_uses {ds : List Declaration} (h : Yields closeScope c ds c') :
    Uses c c' [] := by
  simp only [closeScope, yields_bind, yields_get] at h
  obtain ⟨_, _, ⟨rfl, rfl⟩, h⟩ := h
  split at h
  · exact absurd h yields_throw
  · simp only [yields_bind, yields_set, yields_pure] at h
    rename_i scope _
    obtain ⟨_, _, rfl, _, _, hn, rfl, rfl⟩ := h
    have hclosed : Uses c { c with scope } [] := ⟨rfl, rfl, rfl⟩
    exact hclosed.trans (note_uses hn)

theorem closeScope_records {ds : List Declaration} (h : Yields closeScope c ds c') :
    Records c c' [] :=
  (closeScope_uses h).records

theorem queue_uses {d : Declaration} {u : Unit} (h : Yields (queue d) c u c') :
    Uses c c' [] := by
  simp only [queue, yields_bind, yields_get] at h
  obtain ⟨_, _, ⟨rfl, rfl⟩, h⟩ := h
  split at h
  · exact absurd h yields_throw
  · simp only [yields_set] at h
    subst h
    exact ⟨rfl, rfl, rfl⟩

theorem uniqueName_uses {stem name : String} (h : Yields (uniqueName stem) c name c') :
    Uses c c' [] := by
  simp only [uniqueName, yields_bind, yields_get, yields_set, yields_pure] at h
  obtain ⟨_, _, ⟨rfl, rfl⟩, _, _, rfl, rfl, rfl⟩ := h
  exact ⟨rfl, rfl, rfl⟩

theorem qualify_uses {site : Site} {e : Expr} {code : Code}
    (h : Yields (qualify env site e) c code c') (hbound : c.scope.isBound = bound.contains) :
    Uses c c' (unbound bound e.names) := by
  simp only [qualify, yields_bind, yields_get, yields_pure] at h
  obtain ⟨_, _, ⟨rfl, rfl⟩, _, _, hu, rfl, rfl⟩ := h
  rw [← e.freeNames_eq, ← hbound]
  exact forM_useName_uses hu

theorem binding_uses {site : Site} {text : String} {pos : Position} {code : Code}
    (h : Yields (binding env site text pos) c code c')
    (hbound : c.scope.isBound = bound.contains) :
    Uses c c' (Binding.usedNames bound text) := by
  unfold binding at h
  split at h
  · exact absurd h yields_reject
  · rename_i e hform
    rw [Binding.usedNames_of_path hform]
    exact qualify_uses h hbound
  · rename_i name hform
    rw [Binding.usedNames_of_dashed hform]
    simp only [yields_bind, yields_pure] at h
    obtain ⟨_, _, hu, -, rfl⟩ := h
    exact useName_uses hu

theorem resolve_uses {site : Site} {pos : Position} {isDirective : Bool} {content : Content}
    {code : Code} (h : Yields (resolve env site pos isDirective content) c code c')
    (hbound : c.scope.isBound = bound.contains) :
    Uses c c' (content.usedNames bound isDirective) := by
  unfold resolve at h
  split at h
  · exact qualify_uses h hbound
  · rename_i constant
    cases constant with
    | text text =>
      simp only [Constant.text?, Content.usedNames] at h ⊢
      split at h
      · rename_i hd
        rw [if_pos hd]
        exact binding_uses h hbound
      · rename_i hd
        rw [if_neg hd]
        exact pure_uses h
    | bool | null | int | float | bytes | complex | ellipsis =>
      exact pure_uses h

theorem memoKey_uses {key : String} (h : Yields (memoKey env) c key c') : Uses c c' [] := by
  simp only [memoKey, yields_bind, yields_pure] at h
  obtain ⟨_, _, hu, -, rfl⟩ := h
  exact uniqueName_uses hu

theorem bindCallback_uses {target code : Code}
    (h : Yields (bindCallback env target) c code c') : Uses c c' [] := by
  have hkeep : ∀ {c : Context} {kept : Bool} {value : Code},
      (if kept = true then ∃ name c₁, Yields (memoKey env) c name c₁ ∧
          memoized env name value = code ∧ c₁ = c' else value = code ∧ c = c') →
        Uses c c' [] := by
    intro c kept value h
    split at h
    · obtain ⟨_, _, hm, -, rfl⟩ := h
      exact memoKey_uses hm
    · obtain ⟨-, rfl⟩ := h
      exact .refl c
  unfold bindCallback at h
  by_cases hm : target.isMethodOf env.config.instanceParam
  · simp only [hm, if_true, yields_bind, yields_pure, yields_get, yields_ite] at h
    obtain ⟨_, _, ⟨rfl, rfl⟩, _, _, ⟨rfl, rfl⟩, h⟩ := h
    exact hkeep h
  · simp only [hm, Bool.false_eq_true, if_false, yields_bind, yields_modify, yields_pure,
      yields_get, yields_ite] at h
    obtain ⟨_, _, rfl, _, _, ⟨rfl, rfl⟩, _, _, ⟨rfl, rfl⟩, h⟩ := h
    have hbinds : Uses c { c with bindsCallbacks := true } [] := ⟨rfl, rfl, rfl⟩
    exact hbinds.trans (hkeep h)

theorem resolveReading_uses {site : Site} {pos : Position} {isComponent : Bool}
    {reading : Reading} {parts : List Part}
    (h : Yields (resolveReading env site pos isComponent reading) c parts c')
    (hbound : c.scope.isBound = bound.contains) :
    Uses c c' (reading.usedNames bound) := by
  cases reading with
  | iteration | slot => exact pure_uses h
  | component | condition | alternative =>
    simp only [resolveReading, yields_bind, yields_pure] at h
    obtain ⟨_, _, h, -, rfl⟩ := h
    exact resolve_uses h hbound
  | property p =>
    simp only [resolveReading, resolveProperty, yields_bind, yields_ite, yields_pure] at h
    obtain ⟨entry, _, ⟨value, c₁, hv, h⟩, -, rfl⟩ := h
    have hvalue := resolve_uses hv hbound
    split at h
    · obtain ⟨_, _, hb, -, rfl⟩ := h
      have := hvalue.trans (bindCallback_uses hb)
      rwa [List.append_nil] at this
    · obtain ⟨-, rfl⟩ := h
      exact hvalue

theorem resolveReadings_uses {site : Site} {pos : Position} {isComponent : Bool} :
    ∀ {readings : List Reading} {c c' : Context} {parts : List Part},
      Yields (resolveReadings env site pos isComponent readings) c parts c' →
      c.scope.isBound = bound.contains →
      Uses c c' (readings.flatMap (Reading.usedNames bound))
  | [], c, _, parts, h, _ => pure_uses h
  | reading :: rest, c, _, parts, h, hbound => by
    simp only [resolveReadings, yields_bind, yields_pure] at h
    obtain ⟨head, c₁, hh, more, c₂, ht, -, rfl⟩ := h
    have hbound₁ : c₁.scope.isBound = bound.contains :=
      (funext (resolveReading_yields hh).1.isBound).trans hbound
    exact (resolveReading_uses hh hbound).trans (resolveReadings_uses ht hbound₁)

/-! ## Nodes -/

theorem openLoop_uses {place : Place} {pos : Position} {readings : List Reading}
    {loop : Option Loop} (h : Yields (openLoop env place pos readings) c loop c')
    (hbound : c.scope.isBound = bound.contains) :
    Uses c c' (Reading.iterableNames bound readings) := by
  simp only [openLoop] at h
  unfold Reading.iterableNames
  split at h
  · exact absurd h yields_reject
  · rename_i hi
    rw [hi]
    exact pure_uses h
  · rename_i content hi
    rw [hi]
    simp only [yields_bind] at h
    obtain ⟨iterable, c₁, hr, h⟩ := h
    have hiterable := resolve_uses hr hbound
    split at h
    · exact absurd h yields_reject
    · simp only [yields_bind, yields_pure] at h
      obtain ⟨_, _, ho, -, rfl⟩ := h
      have := hiterable.trans (openScope_uses ho)
      rwa [List.append_nil] at this

theorem iterate_uses {loop : Loop} {ds : List Declaration} {body code : Code} {flatten : Bool}
    (h : Yields (iterate env loop ds body flatten) c code c') : Uses c c' [] := by
  unfold iterate at h
  rcases ds with _ | ⟨d, ds⟩
  · simp only [List.isEmpty_nil, if_true, yields_bind, yields_pure] at h
    obtain ⟨_, _, ⟨-, rfl⟩, -, rfl⟩ := h
    exact .refl c
  · simp only [List.isEmpty_cons, Bool.false_eq_true, if_false, yields_bind, yields_pure] at h
    obtain ⟨name, c₁, hu, _, c₂, hq, _, _, ⟨-, rfl⟩, -, rfl⟩ := h
    exact (uniqueName_uses hu).trans (queue_uses hq)

theorem finishSibling_uses {s : Sibling} {alternative : Option Item} {item : Item}
    (h : Yields (finishSibling env s alternative) c item c') : Uses c c' [] := by
  unfold finishSibling at h
  split at h
  · exact pure_uses h
  · exact pure_uses h
  · exact pure_uses h
  · simp only [yields_bind, yields_pure] at h
    obtain ⟨_, _, hi, -, rfl⟩ := h
    exact iterate_uses hi
  · simp only [yields_bind, yields_pure] at h
    obtain ⟨_, _, hi, -, rfl⟩ := h
    exact iterate_uses hi

theorem finishBranches_uses :
    ∀ {siblings : List Sibling} {c c' : Context} {item : Option Item},
      Yields (finishBranches env siblings) c item c' → Uses c c' []
  | [], _, _, _, h => pure_uses h
  | s :: rest, c, _, _, h => by
    simp only [finishBranches, yields_bind, yields_map] at h
    obtain ⟨_, c₁, hrest, _, hs, -⟩ := h
    exact (finishBranches_uses hrest).trans (finishSibling_uses hs)

theorem finishChain_uses {chain : List Sibling} {items : List Item}
    (h : Yields (finishChain env chain) c items c') : Uses c c' [] := by
  unfold finishChain at h
  split at h
  · exact pure_uses h
  · split at h
    · exact absurd h yields_reject
    · split at h
      · exact pure_uses h
      · simp only [yields_bind, yields_pure] at h
        obtain ⟨_, _, hb, -, rfl⟩ := h
        exact finishBranches_uses hb

theorem finishChains_uses :
    ∀ {chains : List (List Sibling)} {c c' : Context} {items : List Item},
      Yields (finishChains env chains) c items c' → Uses c c' []
  | [], _, _, _, h => pure_uses h
  | chain :: rest, c, _, _, h => by
    simp only [finishChains, yields_bind, yields_pure] at h
    obtain ⟨_, c₁, hh, _, c₂, ht, -, rfl⟩ := h
    exact (finishChain_uses hh).trans (finishChains_uses ht)

theorem guardItems_uses {condition : Code} {items kept : List Item}
    (h : Yields (guardItems condition items) c kept c') : Uses c c' [] := by
  simp only [guardItems, yields_ite, yields_bind, yields_pure] at h
  split at h
  · obtain ⟨-, rfl⟩ := h
    exact .refl c
  · obtain ⟨_, c₁, hu, _, c₂, hq, -, rfl⟩ := h
    exact (uniqueName_uses hu).trans (queue_uses hq)

theorem componentAlias_records {path name : String}
    (h : Yields (componentAlias env path) c name c') : Records c c' [] :=
  .of_eq (congrArg Manifest.usedNames (componentAlias_yields h).2.2)

/-- What is imported gets its alias first and is registered last. -/
theorem importComponent_steps {pos : Position} {path : String} {code : Code}
    (h : Yields (importComponent env pos path) c code c') :
    ∃ name c₁ c₂, Yields (componentAlias env path) c name c₁ ∧ Uses c₁ c₂ [] ∧
      c' = { c₂ with manifest := c₂.manifest.useComponent path } := by
  unfold importComponent at h
  by_cases hp : Component.isImportable path
  · simp only [hp, Bool.not_true, Bool.false_eq_true, if_false, yields_bind, yields_pure,
      yields_get, yields_ite, yields_modify] at h
    obtain ⟨name, c₁, ha, _, _, ⟨rfl, rfl⟩, h⟩ := h
    split at h
    · obtain ⟨_, c₂, hn, _, _, rfl, -, rfl⟩ := h
      exact ⟨name, c₁, c₂, ha, note_uses hn, rfl⟩
    · obtain ⟨_, _, rfl, -, rfl⟩ := h
      exact ⟨name, c₁, c₁, ha, .refl c₁, rfl⟩
  · simp [hp] at h

theorem importComponent_records {pos : Position} {path : String} {code : Code}
    (h : Yields (importComponent env pos path) c code c') : Records c c' [] := by
  obtain ⟨_, c₁, c₂, ha, hu, rfl⟩ := importComponent_steps h
  exact (componentAlias_records ha).trans hu.records

theorem dynamicReference_records {pos : Position} {written : Option Content}
    {resolved : Option Code} {code : Code}
    (h : Yields (dynamicReference env pos written resolved) c code c') : Records c c' [] := by
  unfold dynamicReference at h
  split at h
  · exact importComponent_records h
  · exact (pure_uses h).records
  · exact absurd h yields_reject

theorem elementCall_records {pos : Position} {tag : Tag} {kind : ElementKind}
    {written : Option Content} {parts : List Part} {items : List Item} {code : Code}
    (h : Yields (elementCall env pos tag kind written parts items) c code c') :
    Records c c' [] := by
  unfold elementCall at h
  cases kind with
  | virtual ns =>
    simp only [yields_bind, yields_pure] at h
    obtain ⟨_, _, hi, -, rfl⟩ := h
    exact importComponent_records hi
  | dynamic =>
    simp only [yields_bind, yields_pure] at h
    obtain ⟨_, _, hr, -, rfl⟩ := h
    exact dynamicReference_records hr
  | custom =>
    simp only [yields_bind, yields_pure] at h
    obtain ⟨_, _, hi, -, rfl⟩ := h
    exact importComponent_records hi
  | template | outlet | plain => exact (pure_uses h).records

theorem elementForm_uses {loop : Option Loop} {condition : Option Code} {form : Form}
    (h : Yields (elementForm loop condition) c form c') : Uses c c' [] := by
  unfold elementForm at h
  split at h
  · simp only [yields_bind, yields_pure] at h
    obtain ⟨_, _, hc, -, rfl⟩ := h
    exact closeScope_uses hc
  · exact pure_uses h
  · exact pure_uses h

/-- A template with its items guarded already, or with no condition to guard them by. -/
theorem unguardedSibling_uses {pos : Position} {slot : Option String} {isAlternative : Bool}
    {loop : Option Loop} {items : List Item} {sibling : Sibling}
    (h : Yields (templateSibling env pos slot isAlternative none loop items) c sibling c') :
    Uses c c' [] := by
  rcases loop with _ | loop
  · exact pure_uses h
  · simp only [templateSibling, yields_bind, yields_pure] at h
    obtain ⟨_, _, ⟨-, rfl⟩, _, c₂, hc, _, _, hi, -, rfl⟩ := h
    exact (closeScope_uses hc).trans (iterate_uses hi)

theorem templateSibling_uses {pos : Position} {slot : Option String} {isAlternative : Bool}
    {condition : Option Code} {loop : Option Loop} {items : List Item} {sibling : Sibling}
    (h : Yields (templateSibling env pos slot isAlternative condition loop items) c sibling c') :
    Uses c c' [] := by
  rcases condition with _ | condition
  · exact unguardedSibling_uses h
  · unfold templateSibling at h
    simp only [yields_bind] at h
    obtain ⟨kept, c₁, hg, h⟩ := h
    exact (guardItems_uses hg).trans (unguardedSibling_uses h)

/-- The names bound inside an element are those that it repeats for and those bound around it. -/
theorem isBound_openLoop {place : Place} {pos : Position} {readings : List Reading}
    {loop : Option Loop} (h : Yields (openLoop env place pos readings) c loop c')
    (hbound : c.scope.isBound = bound.contains) :
    c'.scope.isBound = (Reading.parameters readings ++ bound).contains := by
  have hbinds : c.scope.isBound = binds [⟨[], bound⟩] := by
    rw [hbound]
    funext name
    simp [binds]
  obtain ⟨hopens, hframes, -, -⟩ := openLoop_yields h hbinds
  have hinside := isBound_opened loop c.scope.frames hbinds
  rw [← hframes] at hinside
  refine hinside.trans (funext fun name => ?_)
  cases hopens with
  | once hreads => simp [inside, binds, Reading.parameters, hreads]
  | repeated hreads _ hparameters =>
    simp [inside, Loop.binder, binds, Reading.parameters, hreads, hparameters]

theorem lowerElement_records {place : Place} {pos : Position} {tag : Tag}
    {attributes : List Attribute} {children : CompileM (List Sibling)} {nodes : List Node}
    {sibling : Sibling}
    (hchildren : ∀ {bound c c' siblings}, Yields children c siblings c' →
      c.scope.isBound = bound.contains → Records c c' (Node.usedNamesOf env.config bound nodes))
    (h : Yields (lowerElement env place pos tag attributes children) c sibling c')
    (hbound : c.scope.isBound = bound.contains) :
    Records c c' (Node.usedNames env.config bound (.element pos tag attributes nodes)) := by
  simp only [lowerElement, yields_bind] at h
  obtain ⟨⟨readings, kind⟩, c₀, hr, loop, c₁, ho, parts, c₂, hp, siblings, c₃, hs, items, c₄, hi, h⟩
    := h
  obtain ⟨hread, -, -, rfl⟩ := readElement_yields hr
  have hreadings : Node.readings env.config (.element pos tag attributes nodes) = readings := by
    simp only [Node.readings, hread]
  have hbound₁ := isBound_openLoop ho hbound
  have hbound₂ : c₂.scope.isBound = (Reading.parameters readings ++ bound).contains :=
    (funext (resolveReadings_yields hp).1.isBound).trans hbound₁
  have hread₁ := (openLoop_uses ho hbound).records
  have hread₂ := (resolveReadings_uses hp hbound₁).records
  rw [Reading.usedNames_of_ofAttributes hread] at hread₂
  have hread₃ := hchildren hs hbound₂
  have hrest : Records c₃ c' [] := by
    refine (finishChains_uses hi).records.trans ?_
    dsimp only at h
    split at h
    · exact (templateSibling_uses h).records
    · exact (pure_uses h).records
    · simp only [yields_bind, yields_pure] at h
      obtain ⟨_, c₅, hcall, _, _, hform, -, rfl⟩ := h
      exact (elementCall_records hcall).trans (elementForm_uses hform).records
  have := ((hread₁.trans hread₂).trans hread₃).trans hrest
  simpa only [Node.usedNames, hreadings, List.append_nil] using this

mutual

theorem lowerNode_records {around : Place} {before : Nat} :
    ∀ {node : Node} {bound c c' siblings}, Yields (lowerNode env around before node) c siblings c' →
      c.scope.isBound = bound.contains → Records c c' (node.usedNames env.config bound)
  | .text pos value, _, _, _, _, h, _ => by
    rw [Node.usedNames]
    simp only [lowerNode, yields_ite, yields_pure] at h
    split at h <;> exact .of_eq (h.2 ▸ rfl)
  | .placeholder pos none, _, _, _, _, h, _ => by
    rw [Node.usedNames]
    rw [lowerNode] at h
    exact (pure_uses h).records
  | .placeholder pos (some e), _, _, _, _, h, hbound => by
    rw [Node.usedNames]
    simp only [lowerNode, yields_bind, yields_pure] at h
    obtain ⟨_, _, hc, code, _, hq, -, rfl⟩ := h
    obtain ⟨-, rfl⟩ := yields_check hc
    exact (qualify_uses hq hbound).records
  | .fragment pos children, _, _, _, _, h, hbound => by
    rw [Node.usedNames]
    rw [lowerNode] at h
    exact lowerNodes_records h hbound
  | .element pos tag attributes children, _, _, _, _, h, hbound => by
    simp only [lowerNode, yields_bind, yields_pure] at h
    obtain ⟨sibling, _, h, -, rfl⟩ := h
    exact lowerElement_records (fun h => lowerNodes_records h) h hbound
  | .literal _ _, _, _, _, _, h, _ => by
    rw [lowerNode] at h
    exact absurd h yields_throw
  | .attr _, _, _, _, _, h, _ => by
    rw [lowerNode] at h
    exact absurd h yields_throw
  | .template _ _, _, _, _, _, h, _ => by
    rw [lowerNode] at h
    exact absurd h yields_throw

theorem lowerNodes_records {around : Place} {before : Nat} :
    ∀ {nodes : List Node} {bound c c' siblings},
      Yields (lowerNodes env around before nodes) c siblings c' →
      c.scope.isBound = bound.contains → Records c c' (Node.usedNamesOf env.config bound nodes)
  | [], _, _, _, _, h, _ => by
    rw [Node.usedNamesOf]
    rw [lowerNodes] at h
    exact (pure_uses h).records
  | node :: rest, bound, c, _, _, h, hbound => by
    rw [Node.usedNamesOf]
    simp only [lowerNodes, yields_bind, yields_pure] at h
    obtain ⟨head, c₁, hh, more, c₂, ht, -, rfl⟩ := h
    have hbinds : c.scope.isBound = binds [⟨[], bound⟩] := by
      rw [hbound]
      funext name
      simp [binds]
    obtain ⟨_, ha, -⟩ := lowerNode_yields hh hbinds
    have hbound₁ : c₁.scope.isBound = bound.contains := (funext ha.isBound).trans hbound
    exact (lowerNode_records hh hbound).trans (lowerNodes_records ht hbound₁)

end

end CompileM

theorem CompileM.lowerRoot_records {env : Env} {t : Template} {c c' : Context} {code : Code}
    (h : Yields (lowerRoot env t) c code c') (hbound : c.scope.isBound = [].contains) :
    Records c c' (t.usedNames env.config) := by
  unfold lowerRoot at h
  split at h
  · exact absurd h yields_reject
  · exact absurd h yields_reject
  · rename_i pos attributes children hroot
    simp only [yields_bind, yields_pure] at h
    obtain ⟨sibling, _, h, -, rfl⟩ := h
    have := lowerElement_records (fun h => lowerNodes_records h) h hbound
    simpa only [Template.usedNames, Template.root?, hroot, List.head?_cons, Option.map_some,
      Option.getD_some] using this
  · exact absurd h yields_reject

/-- The names a module lists are those of the markup in the order of their first occurrence, and
its last statement is the list. -/
theorem usedNames_eq {env : Env} {t : Template} {compiled : Compiled}
    (h : (compile env t).1 = .ok compiled) :
    compiled.module.usedNames = (t.usedNames env.config).eraseDups ∧
      compiled.module.body.getLast? =
        some (.manifest env.config.usedIdsName (t.usedNames env.config).eraseDups) := by
  obtain ⟨K, hrun⟩ := exists_run_of_ok h
  simp only [CompileM.compileUnit, CompileM.yields_bind, CompileM.yields_get,
    CompileM.yields_pure] at hrun
  obtain ⟨_, c₁, hn₁, _, c₂, ho, code, c₃, hr, ds, c₄, hc, _, _, ⟨rfl, rfl⟩, imports, c₅, hi, _, _,
    ⟨rfl, rfl⟩, _, _, -, rfl, -⟩ := hrun
  have hbound : c₂.scope.isBound = [].contains := by
    obtain ⟨hf₂, -, -⟩ := CompileM.openScope_yields env ho
    have hk₁ : Keeps env _ c₁ := CompileM.note_keeps hn₁
    funext name
    rw [Scope.isBound, hf₂, hk₁.scope]
    rfl
  have hrecords : Records .initial c₄ (t.usedNames env.config) := by
    have := ((CompileM.note_records hn₁).trans (CompileM.openScope_records ho)).trans
      ((CompileM.lowerRoot_records hr hbound).trans (CompileM.closeScope_records hc))
    simpa only [List.nil_append, List.append_nil] using this
  have hused : c₄.manifest.usedNames = (t.usedNames env.config).eraseDups := by
    rw [hrecords, foldl_record]
    simp [Context.initial, Manifest.empty, unbound]
  simp [Module.body, hused]

/-- Rows of cells: the inner iteration binds again a name of the outer one, and is over what the
outer one means by it. -/
def nestedTemplate : Template :=
  .ofRoot [.plain "tr" [.text "repeat" "for" "(x, i) in table.rows", .text "set" "title" "x.name"]
    [.plain "td" [.text "set" "is-open" "is-open", .text "repeat" "for" "x in x.cells",
        .text "set" "class" "style"]
      [.name "x", .name "title"]],
    .name "x", .name "i", .name "table"]

theorem usedNames_eq_nested :
    ∃ compiled, (compile .default nestedTemplate).1 = .ok compiled ∧
      compiled.module.usedNames = ["table", "is-open", "style", "title", "x", "i"] := by
  have hnames : (compile .default nestedTemplate).1.toOption.map (fun _ => ()) = some () := by
    decide +kernel
  obtain ⟨compiled, hc, -⟩ := exists_ok_of_map hnames
  have hwalk : (nestedTemplate.usedNames {}).eraseDups =
      ["table", "is-open", "style", "title", "x", "i"] := by
    decide +kernel
  exact ⟨compiled, hc, (usedNames_eq hc).1.trans hwalk⟩

end TemplateCompiler
