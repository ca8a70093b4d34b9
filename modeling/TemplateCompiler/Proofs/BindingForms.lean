import TemplateCompiler.Proofs.Identifiers
import TemplateCompiler.Proofs.Interpreter
import TemplateCompiler.Proofs.Locations
import TemplateCompiler.Proofs.Revision

/-!
# The two forms of a binding

What a directive binds is written as text or as an expression. A path of identifiers and the chain
that it spells are compiled to the same, save for where the chain says that it is written, wherever
the attribute stands (`binding_forms_agree`).
-/

namespace TemplateCompiler

/-- Whether the text of an attribute with a role is a binding. -/
def Role.takesBinding : Role → Bool
  | .modifier .iterate m => m ∉ [Modifier.statement, .item, .index]
  | .modifier .. | .event .. | .directed .. => true
  | .component | .slot | .plain _ => false

/-- One attribute with a path as its text and with the chain that the path spells. -/
inductive SameBinding : Attribute → Attribute → Prop where
  | mk {pos place place' : Position} {tag : Tag} {role : Role} {text first : String}
      {rest : List String} {e : Expr} (htag : Role.ofTag tag = .ok role) (hrole : role.takesBinding)
      (hpath : identifierPath? text = some (first :: rest)) (hself : first ≠ Expr.selfName)
      (hchain : e.unlocated = Binding.chain first rest) :
      SameBinding ⟨pos, tag, .node (.literal place (.text text))⟩
        ⟨pos, tag, .node (.placeholder place' (some e))⟩

inductive RespellsBinding : List Attribute → List Attribute → Prop where
  | mk {left right a a'} (same : SameBinding a a') :
      RespellsBinding (left ++ [a] ++ right) (left ++ [a'] ++ right)

variable {config : Config} {env : Env} {content content' : Content}

/-! ## Readings that differ in what they bind -/

/-- One reading of either content. -/
inductive Reading.Rebinds (content content' : Content) : Reading → Reading → Prop where
  | each : Rebinds content content' (.iteration (.each content)) (.iteration (.each content'))
  | idle : Rebinds content content' (.iteration .idle) (.iteration .idle)
  | condition : Rebinds content content' (.condition content) (.condition content')
  | alternative : Rebinds content content' (.alternative content) (.alternative content')
  | property {key isEvent d} : Rebinds content content'
      (.property ⟨key, isEvent, some d, content⟩) (.property ⟨key, isEvent, some d, content'⟩)

/-- An attribute that takes a binding is read with any content. -/
theorem Role.IsRead.exists_rebinds {role : Role} {reading : Reading}
    (h : Role.IsRead config content role reading) (hrole : role.takesBinding) (content' : Content) :
    ∃ reading', Role.IsRead config content' role reading' ∧
      Reading.Rebinds content content' reading reading' := by
  cases h with
  | iteration reads =>
    cases reads with
    | each => exact ⟨_, .iteration .each, .each⟩
    | idle other => exact ⟨_, .iteration (.idle other), .idle⟩
    | statement | item | index => simp [takesBinding] at hrole
  | condition directive => exact ⟨_, .condition directive, .condition⟩
  | alternative directive => exact ⟨_, .alternative directive, .alternative⟩
  | modifier directive other => exact ⟨_, .modifier directive other, .property⟩
  | event directive => exact ⟨_, .event directive, .property⟩
  | directed directive => exact ⟨_, .directed directive, .property⟩
  | component | slot | plain => simp [takesBinding] at hrole

namespace LoopPart

variable (left right : List LoopPart) (content : Content)

/-- An each is passed over in a search for another part. -/
theorem findSome?_each {α : Type} {f : LoopPart → Option α} (hf : f (.each content) = none) :
    (left ++ [each content] ++ right).findSome? f = (left ++ right).findSome? f := by
  simp [List.findSome?_append, hf]

theorem iterable?_each : iterable? (left ++ [each content] ++ right) =
    if (statement? (left ++ right)).isSome then .error .statementWithEach
    else if (item? (left ++ right)).isSome then .ok (some ((each? left).getD content))
    else .error .itemMissing := by
  have hstatement : statement? (left ++ [each content] ++ right) = statement? (left ++ right) :=
    findSome?_each left right content rfl
  have hitem : item? (left ++ [each content] ++ right) = item? (left ++ right) :=
    findSome?_each left right content rfl
  have heach : each? (left ++ [each content] ++ right) = some ((each? left).getD content) := by
    simp only [each?, List.findSome?_append, List.findSome?_cons]
    cases left.findSome? _ <;> rfl
  have hempty : (left ++ [each content] ++ right).isEmpty = false := by simp
  rw [iterable?, hempty, hstatement, hitem, heach]
  cases statement? (left ++ right) <;> rfl

theorem parameters_each :
    parameters (left ++ [each content] ++ right) = parameters (left ++ right) := by
  have hstatement : statement? (left ++ [each content] ++ right) = statement? (left ++ right) :=
    findSome?_each left right content rfl
  have hitem : item? (left ++ [each content] ++ right) = item? (left ++ right) :=
    findSome?_each left right content rfl
  have hindex : index? (left ++ [each content] ++ right) = index? (left ++ right) :=
    findSome?_each left right content rfl
  rw [parameters, hstatement, hitem, hindex, parameters]

end LoopPart

/-- Contents that a directive binds alike. -/
def Content.BoundAlike (env : Env) (content content' : Content) : Prop :=
  ∀ site pos, CompileM.resolve env site pos true content' =
    CompileM.resolve env site pos true content

namespace Reading.Rebinds

variable {reading reading' : Reading} (h : Rebinds content content' reading reading')
include h

theorem openLoop_eq (hbound : content.BoundAlike env content') (L R : List Reading) (place : Place)
    (pos : Position) :
    CompileM.openLoop env place pos (L ++ [reading'] ++ R) =
      CompileM.openLoop env place pos (L ++ [reading] ++ R) := by
  have hparts : ∀ middle, loopParts (L ++ middle ++ R) =
      loopParts L ++ loopParts middle ++ loopParts R := by
    simp [loopParts, List.filterMap_append]
  unfold CompileM.openLoop
  dsimp only
  rw [hparts, hparts]
  cases h with
  | each =>
    have heach : ∀ content, loopParts [.iteration (.each content)] = [.each content] :=
      fun _ => rfl
    rw [heach, heach, LoopPart.iterable?_each, LoopPart.iterable?_each, LoopPart.parameters_each,
      LoopPart.parameters_each]
    split_ifs
    · rfl
    · -- an each before this one is what is iterated over
      cases LoopPart.each? (loopParts L) with
      | none => simp only [Option.getD_none, hbound _ pos]
      | some => rfl
    · rfl
  | idle | condition | alternative | property => rfl

theorem resolveReading_eq (hbound : content.BoundAlike env content') (site : Site) (pos : Position)
    (isComponent : Bool) : CompileM.resolveReading env site pos isComponent reading' =
      CompileM.resolveReading env site pos isComponent reading := by
  cases h with
  | each | idle => rfl
  | condition | alternative => simp only [CompileM.resolveReading, hbound site pos]
  | property =>
    simp only [CompileM.resolveReading, CompileM.resolveProperty, Option.isSome_some,
      hbound site pos]
    rfl

theorem resolveReadings_eq (hbound : content.BoundAlike env content') (L R : List Reading)
    (site : Site) (pos : Position) (isComponent : Bool) :
    CompileM.resolveReadings env site pos isComponent (L ++ [reading'] ++ R) =
      CompileM.resolveReadings env site pos isComponent (L ++ [reading] ++ R) := by
  induction L with
  | nil =>
    simp only [List.nil_append, List.cons_append, CompileM.resolveReadings,
      h.resolveReading_eq hbound]
  | cons first rest ih =>
    simp only [List.cons_append, CompileM.resolveReadings] at ih ⊢
    rw [ih]

/-- What is bound alike makes no difference between the same readings. -/
theorem alike (hbound : content.BoundAlike env content') (L R : List Reading) :
    Alike env (L ++ [reading] ++ R) (L ++ [reading'] ++ R) where
  component := by
    simp only [component?, List.findSome?_append]
    cases h <;> rfl
  isDirective := by
    simp only [List.any_append]
    cases h <;> rfl
  slot := by
    simp only [slotOf, List.filterMap_append]
    cases h <;> rfl
  outlet := by
    simp only [outletName, List.filterMap_append]
    cases h with
    | property => simp
    | each | idle | condition | alternative => rfl
  loop place pos := .of_eq (h.openLoop_eq hbound L R place pos)
  parts site pos isComponent := .of_eq (h.resolveReadings_eq hbound L R site pos isComponent)

end Reading.Rebinds

/-- What is bound alike is interchangeable between other attributes. -/
theorem interchangeable_of_boundAlike {left right : List Attribute} {a a' : Attribute} {role : Role}
    (htag : a'.tag = a.tag) (hrole : Role.ofTag a.tag = .ok role) (htakes : role.takesBinding)
    (hcontent : Content.ofAttribute a = .ok content)
    (hcontent' : Content.ofAttribute a' = .ok content')
    (hbound : content.BoundAlike env content') :
    Interchangeable env (left ++ [a] ++ right) (left ++ [a'] ++ right) := by
  have hmodifier : a'.modifier? = a.modifier? := by
    rw [Attribute.modifier?, htag, Attribute.modifier?]
  have hrole' : Role.ofTag a'.tag = .ok role := by rw [htag, hrole]
  refine interchangeable_between ?_ (fun hM => ?_) fun hM' => ?_
  · simp only [List.filterMap_append, List.filterMap_cons, hmodifier]
  · obtain ⟨reading, _, ⟨_, _, hread, hfound, hreads⟩, hnil, rfl⟩ :=
      List.forall₂_cons_left_iff.1 hM
    obtain rfl := List.forall₂_nil_left_iff.1 hnil
    obtain rfl := Except.ok.inj (hrole.symm.trans hread)
    obtain rfl := Except.ok.inj (hcontent.symm.trans hfound)
    obtain ⟨reading', hreads', hrebinds⟩ := hreads.exists_rebinds htakes content'
    exact ⟨[reading'], .cons ⟨role, content', hrole', hcontent', hreads'⟩ .nil,
      fun _ _ => hrebinds.alike hbound _ _⟩
  · obtain ⟨reading', _, ⟨_, _, hread, -, hreads⟩, -, rfl⟩ := List.forall₂_cons_left_iff.1 hM'
    obtain rfl := Except.ok.inj (hrole'.symm.trans hread)
    obtain ⟨reading, hreads', -⟩ := hreads.exists_rebinds htakes content
    exact ⟨[reading], .cons ⟨role, content, hrole, hcontent, hreads'⟩ .nil⟩

/-! ## Paths and chains -/

variable {text first : String} {rest : List String}

theorem Binding.form_of_path (hpath : identifierPath? text = some (first :: rest))
    (hself : first ≠ Expr.selfName) :
    Binding.form text = .ok (.path (Binding.chain first rest)) := by
  have hword : IsWord text := isWord_of_identifierPath? (by rw [hpath]; rfl)
  rw [Binding.form, hword.stripped]
  simp [hpath, hself]

theorem Content.boundAlike_of_path (env : Env) (hpath : identifierPath? text = some (first :: rest))
    (hself : first ≠ Expr.selfName) : (Content.constant (.text text)).BoundAlike env
      (.expression (Binding.chain first rest)) := by
  intro site pos
  simp [CompileM.resolve, Constant.text?, CompileM.binding, Binding.form_of_path hpath hself]

theorem Binding.isMember_chain (first : String) (rest : List String) :
    (chain first rest).isMember := by
  have hfold : ∀ e : Expr, e.isMember →
      (rest.foldl (fun e id => .member none e id) e).isMember := by
    induction rest with
    | nil => exact fun _ he => he
    | cons id rest ih => exact fun e _ => ih (.member none e id) rfl
  exact hfold _ rfl

/-! ## Without locations -/

/-- A path and the chain that it spells are bound alike, wherever the chain is written. -/
theorem RespellsBinding.unlocated {attributes attributes' : List Attribute}
    (h : RespellsBinding attributes attributes') :
    Interchangeable env (mapAttributes Expr.unlocated attributes)
      (mapAttributes Expr.unlocated attributes') := by
  obtain @⟨left, right, _, _, @⟨pos, place, place', tag, role, text, first, rest, e, htag, htakes,
    hpath, hself, hchain⟩⟩ := h
  simp only [mapAttributes_eq_map, List.map_append, List.map_cons, List.map_nil, Attribute.mapExpr,
    AttributeValue.mapExpr, Node.mapExpr, Option.map_some, hchain]
  have hcheck : (Binding.chain first rest).check .value = .ok () :=
    Expr.check_eq_ok_iff.2
      ⟨Binding.isMember_chain first rest, (Binding.allowed_chain first rest).2 hself⟩
  refine interchangeable_of_boundAlike rfl htag htakes rfl ?_
    (Content.boundAlike_of_path env hpath hself)
  simp only [Content.ofAttribute, hcheck]
  rfl

theorem Revises.mapExpr {A A' : List Attribute → List Attribute → Prop} {n n' : Node}
    (f : Expr → Expr) (h : Revises A n n')
    (hA : ∀ {attributes attributes'}, A attributes attributes' →
      A' (mapAttributes f attributes) (mapAttributes f attributes')) :
    Revises A' (n.mapExpr f) (n'.mapExpr f) := by
  induction h with
  | attributes h => exact .attributes (hA h)
  | child _ ih =>
    simp only [Node.mapExpr, mapNodes_eq_map, List.map_append, List.map_cons]
    exact .child ih
  | member _ ih =>
    simp only [Node.mapExpr, mapNodes_eq_map, List.map_append, List.map_cons]
    exact .member ih
  | body _ ih =>
    simp only [Node.mapExpr, mapNodes_eq_map, List.map_append, List.map_cons]
    exact .body ih
  | value _ ih =>
    simp only [Node.mapExpr, mapAttributes_eq_map, List.map_append, List.map_cons,
      Attribute.mapExpr, AttributeValue.mapExpr]
    exact .value ih
  | attr _ ih => exact .attr ih

/-- A template with a path as the text of a directive and the same template with the path as an
expression compile to the same module, names and dependencies, wherever these are written, or
neither of them compiles. -/
theorem binding_forms_agree {t t' : Template} (h : t.Revises RespellsBinding t')
    (compiled : Compiled) :
    (compile env t').1.map Compiled.unlocated = .ok compiled ↔
      (compile env t).1.map Compiled.unlocated = .ok compiled := by
  have hrevises : t.unlocated.Revises (Interchangeable env) t'.unlocated :=
    Revises.mapExpr Expr.unlocated h RespellsBinding.unlocated
  have hiff := hrevises.ok_iff id compiled
  rwa [compile_unlocated, compile_unlocated] at hiff

/-- A list item that repeats, with a handler among its attributes. -/
def handledTemplate (handler : Attribute) : Template :=
  .ofRoot [.plain "ul" [] [.plain "li"
    ([.text "repeat" "for" "i in rows"] ++ [handler] ++ [.text "set" "title" "i"]) []]]

/-- The handler of a click, as an expression that says where it is written. -/
def spannedHandler : Attribute :=
  ⟨⟨none, none⟩, ⟨none, "onclick"⟩, .node (.placeholder ⟨some 3, none⟩
    (some (.member (some ⟨3, 8, 3, 12⟩) (.name (some ⟨3, 8, 3, 9⟩) "i") "open")))⟩

theorem handledTemplate_revises :
    (handledTemplate (.named "onclick" "i.open")).Revises RespellsBinding
      (handledTemplate spannedHandler) := by
  have hrole : Role.ofTag ⟨none, "onclick"⟩ = .ok (.event .bind "click") := by decide +kernel
  have hpath : identifierPath? "i.open" = some ["i", "open"] := by decide +kernel
  have hsame : SameBinding (.named "onclick" "i.open") spannedHandler :=
    .mk hrole (by decide) hpath (by decide) rfl
  have hrespells := @RespellsBinding.mk [.text "repeat" "for" "i in rows"]
    [.text "set" "title" "i"] _ _ hsame
  exact @Revises.body _ _ [] _ _ [] (@Revises.child _ _ _ _ [] _ _ [] (@Revises.child _ _ _ _ [] _ _
    [] (.attributes hrespells)))

theorem binding_forms_agree_handled :
    ∃ compiled compiled',
      (compile .default (handledTemplate (.named "onclick" "i.open"))).1 = .ok compiled ∧
      (compile .default (handledTemplate spannedHandler)).1 = .ok compiled' ∧
      compiled'.unlocated = compiled.unlocated ∧ compiled.module.bindHelper = some "_bind" := by
  have hok : (compile .default (handledTemplate (.named "onclick" "i.open"))).1.toOption.map
      (fun compiled => compiled.module.bindHelper) = some (some "_bind") := by
    decide +kernel
  obtain ⟨compiled, hc, hhelper⟩ := exists_ok_of_map hok
  have hiff := @binding_forms_agree .default _ _ handledTemplate_revises compiled.unlocated
  rw [hc] at hiff
  have hmap := hiff.2 rfl
  rcases hc' : (compile .default (handledTemplate spannedHandler)).1 with failure | compiled'
  · rw [hc'] at hmap
    cases hmap
  · rw [hc'] at hmap
    exact ⟨compiled, compiled', hc, rfl, Except.ok.inj hmap, hhelper⟩

end TemplateCompiler
