import TemplateCompiler.Proofs.Choices
import TemplateCompiler.Proofs.Content

/-!
# Elses are branches of conditionals

The elses of a unit that compiles and the conditionals with an else in its module correspond one to
one, in the order of the markup: each conditional is that of the member of its row which the else
follows (`elses_answered`). Only the root is in no row, and an else marker on it is passed over.
-/

namespace TemplateCompiler

/-! ## Elses of the markup -/

mutual

/-- What a node puts into the row of its parent's children: neither blank texts nor empty
placeholders, and for a fragment what is in it. -/
def Node.members : Node → List Node
  | .element pos tag attributes children => [.element pos tag attributes children]
  | .text pos value => if (Text.collapse value).isEmpty then [] else [.text pos value]
  | .placeholder _ none => []
  | .placeholder pos (some e) => [.placeholder pos (some e)]
  | .fragment _ children => membersOf children
  | .literal .. | .attr _ | .template .. => []

def membersOf : List Node → List Node
  | [] => []
  | node :: rest => node.members ++ membersOf rest

end

/-- An else in a row, with the member that it follows and those that follow it. A member stands
behind some number of elements around the place of its parent. -/
structure ElseOf where
  around : Place
  before : Nat
  owner : Option (Nat × Node)
  element : Node
  behind : List Node

/-- Whether a node is marked as an else. -/
def Node.isElse (config : Config) (node : Node) : Bool :=
  (node.readings config).any Reading.isAlternative

section

variable (config : Config)

/-- The elses of a row, where some member is in front of it. -/
def rowElses (around : Place) (before : Nat) (owner : Option (Nat × Node)) :
    List Node → List ElseOf
  | [] => []
  | node :: behind =>
    (if node.isElse config then [⟨around, before, owner, node, behind⟩] else []) ++
      rowElses around (before + node.elements.length) (some (before, node)) behind

mutual

/-- The elses in the rows of a node and of all that is in it. -/
def Node.elses (around : Place) (before : Nat) : Node → List ElseOf
  | .element _ _ _ children =>
    rowElses config (around ++ [before]) 0 none (membersOf children) ++
      elsesOf (around ++ [before]) 0 children
  | .fragment _ children => elsesOf around before children
  | .text .. | .placeholder .. | .literal .. | .attr _ | .template .. => []

def elsesOf (around : Place) (before : Nat) : List Node → List ElseOf
  | [] => []
  | node :: rest => node.elses around before ++ elsesOf around (before + node.elements.length) rest

end

/-- The elses of a template are those in the row of its root and of all that is in that. -/
def Template.elses (t : Template) : List ElseOf :=
  match t.root? with
  | some root =>
    rowElses config [] 0 none (membersOf root.children) ++ elsesOf config [] 0 root.children
  | none => []

/-- What an else lays out, with the elses that follow it. -/
def ElseOf.layouts (o : ElseOf) : List Layout :=
  (Display.branch? (displaysOf config o.around o.before (o.element :: o.behind))).getD []

end

variable {env : Env} {config : Config} {K : Context} {n n' : Numbering}

/-! ### Elements that are marked -/

theorem map_element_rowElses (around : Place) :
    ∀ (nodes : List Node) (before : Nat) (owner : Option (Nat × Node)),
      (rowElses config around before owner nodes).map ElseOf.element =
        nodes.filter (Node.isElse config)
  | [], _, _ => rfl
  | node :: behind, before, owner => by
    rw [rowElses, List.map_append, map_element_rowElses around behind, List.filter_cons]
    split <;> rfl

mutual

/-- Only an element is marked as an else. -/
theorem Node.filter_members : ∀ node : Node,
    node.members.filter (Node.isElse config) = node.elements.filter (Node.isElse config)
  | .element .. => rfl
  | .text .. => by
    rw [Node.members]
    split <;> rfl
  | .placeholder _ none => rfl
  | .placeholder _ (some _) => rfl
  | .fragment _ children => filter_membersOf children
  | .literal .. | .attr _ | .template .. => rfl

theorem filter_membersOf : ∀ nodes : List Node,
    (membersOf nodes).filter (Node.isElse config) = (elementsOf nodes).filter (Node.isElse config)
  | [] => rfl
  | node :: rest => by
    rw [membersOf, elementsOf, List.filter_append, List.filter_append, Node.filter_members node,
      filter_membersOf rest]

end

mutual

/-- The elses of a node are the elements in it that are marked. -/
theorem Node.elses_perm : ∀ (node : Node) (around : Place) (before : Nat),
    (node.elements.filter (Node.isElse config) ++
      (node.elses config around before).map ElseOf.element).Perm
        (node.allElements.filter (Node.isElse config))
  | .element pos tag attributes children, around, before => by
    rw [Node.elements, Node.elses, Node.allElements, List.map_append, map_element_rowElses,
      filter_membersOf]
    exact ((elsesOf_perm children _ _).append_left _).trans (.of_eq (List.filter_append ..).symm)
  | .fragment _ children, _, _ => elsesOf_perm children _ _
  | .text .., _, _ => .refl _
  | .placeholder .., _, _ => .refl _
  | .literal .., _, _ => .refl _
  | .attr _, _, _ => .refl _
  | .template .., _, _ => .refl _

theorem elsesOf_perm : ∀ (nodes : List Node) (around : Place) (before : Nat),
    ((elementsOf nodes).filter (Node.isElse config) ++
      (elsesOf config around before nodes).map ElseOf.element).Perm
        ((allElementsOf nodes).filter (Node.isElse config))
  | [], _, _ => .refl _
  | node :: rest, around, before => by
    rw [elementsOf, elsesOf, allElementsOf, List.filter_append, List.map_append, List.filter_append]
    have hperm := (Node.elses_perm node around before).append
      (elsesOf_perm rest around (before + node.elements.length))
    refine List.Perm.trans ?_ hperm
    rw [List.append_assoc, List.append_assoc, List.perm_append_left_iff, ← List.append_assoc,
      ← List.append_assoc, List.perm_append_right_iff]
    exact List.perm_append_comm

end

/-! ### Displays of a row -/

/-- How a member of a row is displayed. -/
def Node.display? (config : Config) (around : Place) (before : Nat) : Node → Option Display
  | .fragment .. => none
  | node => (node.displays config around before).head?

/-- A member is displayed as one, and as an else if it is marked as one. -/
structure Node.IsMember (config : Config) (around : Place) (before : Nat) (node : Node)
    (d : Display) : Prop where
  display : node.display? config around before = some d
  displays : node.displays config around before = [d]
  isAlternative : d.isAlternative = node.isElse config

theorem Reading.any_isAlternative_of_outlet {readings : List Reading}
    (h : readings.any isDirective = false) : readings.any isAlternative = false := by
  rw [List.any_eq_false] at h ⊢
  intro reading hr
  have hnot := h reading hr
  cases reading <;> simp_all [isDirective, isAlternative]

theorem Node.IsSound.isMember {pos : Position} {tag : Tag} {attributes : List Attribute}
    {children : List Node} (h : (Node.element pos tag attributes children).IsSound config)
    (around : Place) (before : Nat) :
    ∃ d, (Node.element pos tag attributes children).IsMember config around before d := by
  obtain ⟨readings, hreads, houtlet⟩ := h
  refine ⟨_, rfl, rfl, ?_⟩
  have hreadings : (Node.element pos tag attributes children).readings config = readings := by
    simp only [Node.readings, hreads]
  simp only [elementDisplay, Node.isElse, Node.kind, hreadings]
  by_cases hkind : elementKind tag readings = .outlet
  · simp [Reading.any_isAlternative_of_outlet (houtlet hkind)]
  · simp [hkind]

mutual

theorem Node.isMember_of_mem_members : ∀ {node : Node}, (∀ e ∈ node.allElements, e.IsSound config) →
    ∀ member ∈ node.members, ∀ around before, ∃ d, member.IsMember config around before d
  | .element .., hsound => by
    rw [Node.members, List.forall_mem_singleton]
    exact (hsound _ List.mem_cons_self).isMember
  | .text pos value, _ => by
    rw [Node.members]
    split
    · simp
    · rename_i hshown
      rw [List.forall_mem_singleton]
      intro around before
      refine ⟨{ form := .fixed [.piece (.content around (.text pos value)) []] }, ?_, ?_, rfl⟩
      · simp [Node.display?, Node.displays, hshown]
      · simp [Node.displays, hshown]
  | .placeholder _ none, _ => by simp [Node.members]
  | .placeholder _ (some _), _ => by
    rw [Node.members, List.forall_mem_singleton]
    exact fun _ _ => ⟨_, rfl, rfl, rfl⟩
  | .fragment _ children, hsound => isMember_of_mem_membersOf hsound
  | .literal .., _ | .attr _, _ | .template .., _ => by simp [Node.members]

theorem isMember_of_mem_membersOf : ∀ {nodes : List Node},
    (∀ e ∈ allElementsOf nodes, e.IsSound config) →
    ∀ member ∈ membersOf nodes, ∀ around before, ∃ d, member.IsMember config around before d
  | [], _ => by simp [membersOf]
  | node :: rest, hsound => by
    rw [allElementsOf, List.forall_mem_append] at hsound
    rw [membersOf, List.forall_mem_append]
    exact ⟨Node.isMember_of_mem_members hsound.1, isMember_of_mem_membersOf hsound.2⟩

end

theorem displaysOf_append (around : Place) : ∀ (nodes nodes' : List Node) (before : Nat),
    displaysOf config around before (nodes ++ nodes') = displaysOf config around before nodes ++
      displaysOf config around (before + (elementsOf nodes).length) nodes'
  | [], _, _ => rfl
  | node :: rest, nodes', before => by
    rw [List.cons_append, displaysOf, displaysOf, elementsOf, displaysOf_append around rest,
      List.length_append, Nat.add_assoc, List.append_assoc]

mutual

theorem Node.elementsOf_members : ∀ node : Node, elementsOf node.members = node.elements
  | .element .. => rfl
  | .text .. => by
    rw [Node.members]
    split <;> rfl
  | .placeholder _ none => rfl
  | .placeholder _ (some _) => rfl
  | .fragment _ children => elementsOf_membersOf children
  | .literal .. | .attr _ | .template .. => rfl

/-- The members of a row are its elements, with what is no element. -/
theorem elementsOf_membersOf : ∀ nodes : List Node, elementsOf (membersOf nodes) = elementsOf nodes
  | [] => rfl
  | node :: rest => by
    rw [membersOf, elementsOf_append, Node.elementsOf_members node, elementsOf_membersOf rest,
      elementsOf]

end

mutual

theorem Node.displaysOf_members : ∀ (node : Node) (around : Place) (before : Nat),
    displaysOf config around before node.members = node.displays config around before
  | .element .., _, _ => List.append_nil _
  | .text .., _, _ => by
    rw [Node.members, Node.displays]
    split
    · rfl
    · rename_i hshown
      simp [displaysOf, Node.displays, hshown]
  | .placeholder _ none, _, _ => rfl
  | .placeholder _ (some _), _, _ => rfl
  | .fragment _ children, _, _ => displaysOf_membersOf children _ _
  | .literal .., _, _ => rfl
  | .attr _, _, _ => rfl
  | .template .., _, _ => rfl

/-- A row is displayed as its members are. -/
theorem displaysOf_membersOf : ∀ (nodes : List Node) (around : Place) (before : Nat),
    displaysOf config around before (membersOf nodes) = displaysOf config around before nodes
  | [], _, _ => rfl
  | node :: rest, around, before => by
    rw [membersOf, displaysOf_append, Node.displaysOf_members node, Node.elementsOf_members node,
      displaysOf_membersOf rest, displaysOf]

end

/-- The elses of a row are those that it displays. -/
theorem elses_displaysOf (around : Place) : ∀ {nodes : List Node},
    (∀ node ∈ nodes, ∀ around before, ∃ d, node.IsMember config around before d) →
    ∀ (before : Nat) (owner : Option (Nat × Node)),
      Display.elses (owner.bind fun m => m.2.display? config around m.1)
          (displaysOf config around before nodes) =
        (rowElses config around before owner nodes).map fun o =>
          (o.owner.bind fun m => m.2.display? config o.around m.1, o.layouts config)
  | [], _, _, _ => rfl
  | node :: behind, hmember, before, owner => by
    rw [List.forall_mem_cons] at hmember
    obtain ⟨d, hd⟩ := hmember.1 around before
    have hbehind := elses_displaysOf around hmember.2 (before + node.elements.length)
      (some (before, node))
    rw [Option.bind_some, hd.display] at hbehind
    rw [displaysOf, hd.displays, List.singleton_append, Display.elses, hbehind, rowElses,
      List.map_append, Display.branch?, hd.isAlternative]
    split
    · rename_i hmarked
      simp [ElseOf.layouts, displaysOf, hd.displays, Display.branch?, hd.isAlternative, hmarked]
    · rfl

/-! ## Elses of the module -/

/-- A conditional with something to be made if its condition does not hold. -/
def Code.hasElse : Code → Bool
  | .conditional _ _ other => !other.isNothing
  | _ => false

/-- A conditional that is made of the element in front of an else: that has a condition and is
neither a template nor an outlet, and the conditional chooses between it and the else. -/
inductive Answers (env : Env) (t : Template) (m : Module) : Code → ElseOf → Prop where
  | mk {o number owner place test body other used used'}
      (follows : o.owner = some (number, owner)) (sited : place = o.around ++ [number])
      (chooses : (owner.kind env.config).chooses) (tests : owner.Tests env t place test)
      (reads : Reads env t m body ((owner.kind env.config).layout env.config place owner
        (Display.contributions (displaysOf env.config place 0 owner.children))) used)
      (readsElse : Reads env t m other (o.layouts env.config) used')
      (made : other.isNothing = false) : Answers env t m (.conditional test body other) o

section

variable {t : Template} {m : Module}

theorem Answers.hasElse {c : Code} {o : ElseOf} (h : Answers env t m c o) : c.hasElse := by
  cases h with
  | mk _ _ _ _ _ _ made => simp [Code.hasElse, made]

theorem chosen_of_elementDisplay {place : Place} {node : Node} {inner : List Contributed}
    {iteration : Option Piece} {condition : Piece} {ls : List Layout}
    (h : (elementDisplay config place node inner).form = .chosen iteration condition ls) :
    (node.kind config).chooses ∧ node.condition? config place = some condition ∧
      ls = (node.kind config).layout config place node inner := by
  cases hkind : node.kind config with
  | template =>
    rw [elementDisplay_template hkind] at h
    simp only at h
    split at h <;> simp at h
  | outlet =>
    rw [elementDisplay_outlet hkind] at h
    simp at h
  | virtual | dynamic | custom | plain =>
    rw [elementDisplay_chooses hkind rfl] at h
    simp only at h
    split at h
    · simp at h
    · rename_i found hfound
      obtain ⟨-, rfl, rfl⟩ := DisplayForm.chosen.inj h
      exact ⟨rfl, hfound, rfl⟩

theorem Chooses.answers {c : Code} {o : ElseOf}
    (h : Chooses env t m c
      (o.owner.bind fun m => m.2.display? env.config o.around m.1, o.layouts env.config)) :
    Answers env t m c o := by
  generalize hpair :
    (o.owner.bind fun m => m.2.display? env.config o.around m.1, o.layouts env.config) = pair at h
  cases h with
  | mk form tests reads readsElse made =>
    obtain ⟨howner, rfl⟩ := Prod.mk.inj hpair
    obtain ⟨⟨number, owner⟩, hnode, hdisplay⟩ := Option.bind_eq_some_iff.1 howner
    cases owner with
    | element pos tag attributes children =>
      obtain rfl := Option.some.inj hdisplay
      obtain ⟨hchooses, hcondition, rfl⟩ := chosen_of_elementDisplay form
      obtain ⟨_, -, hpiece⟩ := Option.map_eq_some_iff.1 hcondition
      obtain ⟨rfl, rfl⟩ := Piece.condition.inj hpiece
      exact .mk hnode rfl hchooses tests reads readsElse made
    | text =>
      unfold Node.display? Node.displays at hdisplay
      simp only at hdisplay
      split at hdisplay
      · simp at hdisplay
      · obtain rfl := Option.some.inj hdisplay
        simp at form
    | placeholder pos e =>
      cases e with
      | none => simp [Node.display?, Node.displays] at hdisplay
      | some e =>
        obtain rfl := Option.some.inj hdisplay
        simp at form
    | fragment | literal | attr | template => simp [Node.display?, Node.displays] at hdisplay

/-- The conditionals with an else among what is counted are those of some elses. -/
structure AnswersAll (env : Env) (t : Template) (m : Module) (elses : List ElseOf)
    (count : (Code → Bool) → Nat) (made : List Code) : Prop where
  count : ∀ p, (∀ code, p code → code.hasElse) → count p = made.countP p
  answers : List.Forall₂ (Answers env t m) made elses

theorem AnswersAll.perm {elses : List ElseOf} {count : (Code → Bool) → Nat}
    {made codes : List Code} (h : AnswersAll env t m elses count made)
    (hcodes : ∀ p, (∀ code, p code → code.hasElse) → codes.countP p = count p) :
    made.Perm (codes.filter Code.hasElse) := by
  classical
  have hmade : ∀ code ∈ made, code.hasElse :=
    ((List.forall₂_and_left _ _).1 (h.answers.imp fun _ _ h => ⟨h.hasElse, h⟩)).1
  refine List.perm_iff_count.2 fun c => ?_
  let p : Code → Bool := fun code => code == c && code.hasElse
  have hp : ∀ code, p code → code.hasElse := fun code hcode => (Bool.and_eq_true_iff.1 hcode).2
  calc made.count c = made.countP p := by
        refine List.countP_congr fun code hcode => ?_
        simp [p, hmade code hcode]
    _ = codes.countP p := by rw [hcodes p hp, h.count p hp]
    _ = (codes.filter Code.hasElse).count c := by rw [List.count_eq_countP, List.countP_filter]

end

/-! ### Attributes have none -/

section

variable {p : Code → Bool} (hp : ∀ code, p code → code.hasElse)

include hp

theorem counts_hasElse (config : Config) : Counts config p := by
  constructor
  case conditional =>
    exact fun test body other hother => eq_false_of_kind hp (by simp [Code.hasElse, hother])
  all_goals intros; exact eq_false_of_kind hp rfl

theorem Plain.tally_eq_zero {code : Code} (h : Plain config code) : code.tally p = 0 := by
  have hcounts := counts_hasElse hp config
  have hnot : ∀ code : Code, code.hasElse = false → p code = false :=
    fun _ hcode => eq_false_of_kind hp hcode
  induction h with
  | ref => exact hcounts.tally_ref _
  | constant => exact hcounts.tally_constant _ _
  | name | foreign =>
    rw [Code.tally_eq, hnot _ rfl]
    rfl
  | member _ ih =>
    rw [Code.tally_eq, hnot _ rfl]
    simp [Code.parts, Code.operands, ih]
  | index _ _ ih ih' =>
    rw [Code.tally_eq, hnot _ rfl]
    simp [Code.parts, Code.operands, ih, ih']
  | or _ _ ih ih' =>
    rw [Code.tally_eq, hnot _ rfl]
    simp [Code.parts, Code.operands, ih, ih']
  | dict _ ih =>
    rw [hcounts.tally_dict]
    exact List.sum_eq_zero (List.forall_mem_map.2 ih)
  | bound _ ih => simp [hcounts.tally_call, hcounts.tally_ref, ih]
  | lookup => simp [hcounts.tally_call, hcounts.tally_service, hcounts.tally_text]
  | store _ ih => simp [hcounts.tally_call, hcounts.tally_service, hcounts.tally_text, ih]

theorem PartsAll.partsTally_eq_zero {parts : List Part} (h : PartsAll (Plain config) parts)
    (kind : ElementKind) (isHollow : Bool) : partsTally p kind isHollow parts = 0 := by
  have hcondition : conditionTally p parts = 0 := by
    refine List.sum_eq_zero (List.forall_mem_map.2 fun test htest => ?_)
    exact (h.condition (Option.mem_toList.1 htest)).tally_eq_zero hp
  have hcomponent : componentTally p parts = 0 := by
    refine List.sum_eq_zero (List.forall_mem_map.2 fun component hcomponent => ?_)
    exact (h.component (Option.mem_toList.1 hcomponent)).tally_eq_zero hp
  have hentries : entriesTally p (Part.entries parts) = 0 := by
    refine List.sum_eq_zero (List.forall_mem_map.2 fun e he => ?_)
    obtain ⟨part, hpart, hsome⟩ := List.mem_filterMap.1 he
    have hplain := h part hpart
    cases part <;> simp at hsome
    exact (hsome ▸ hplain).tally_eq_zero hp
  unfold partsTally
  cases kind with
  | template => cases isHollow <;> simp [hcondition]
  | outlet => rfl
  | dynamic => simp [hcondition, hcomponent, hentries]
  | virtual | custom | plain => simp [hcondition, hentries]

end

/-! ### Elements -/

section

variable {t : Template} {compiled : Compiled} {root : Sibling} {ds' : List Declaration}
  {n₁ : Numbering}

theorem LowersElement.exists_answers {binders : List Binder} {place : Place} {pos : Position}
    {tag : Tag} {attributes : List Attribute} {children : List Node} {sibling : Sibling}
    {ds : List Declaration}
    (h : LowersElement env K binders place pos tag attributes children sibling ds n n')
    (hc : Compiles env t compiled K root ds' n₁)
    (ht : t.elementAt? place = some (.element pos tag attributes children))
    (hb : t.Binds env.config binders (Site.enclosing ⟨place, true⟩))
    (hsound : ∀ e ∈ allElementsOf children, e.IsSound env.config)
    (hchildren : ∀ {binders siblings ds n n'},
      LowersNodes env K binders place 0 children siblings ds n n' →
      t.Shows place 0 (elementsOf children) →
      t.Binds env.config binders (Site.enclosing ⟨place, false⟩) →
        ∃ made, AnswersAll env t compiled.module (elsesOf env.config place 0 children)
          (fun p => rowTally p siblings + statementsTally p ds) made) :
    ∃ made, AnswersAll env t compiled.module
      (rowElses env.config place 0 none (membersOf children) ++
        elsesOf env.config place 0 children)
      (fun p => sibling.tally p + statementsTally p ds) made := by
  obtain ⟨readings, loop, parts, siblings, inner, made, _, _, htallies⟩ := h.exists_tallies
  have hshows := Template.shows_children ht
  have hinside :=
    htallies.opens.binds_enclosing hb (Template.readingsAt_element ht htallies.reads)
  obtain ⟨made', hinner⟩ := hchildren htallies.lowersChildren hshows hinside
  refine ⟨made ++ made', fun p hp => ?_, ?_⟩
  · have hiterable : (loop.toList.map fun l => l.iterable.tally p).sum = 0 := by
      refine List.sum_eq_zero (List.forall_mem_map.2 fun l hl => ?_)
      exact (htallies.opens.plain_iterable l (Option.mem_toList.1 hl)).tally_eq_zero hp
    have hparts := (htallies.lowersReadings.all plain_attributive).partsTally_eq_zero hp
      (elementKind tag readings) (allVoid children)
    have htally := htallies.tally p (counts_hasElse hp _)
    have hrest := hinner.count p hp
    rw [List.countP_append]
    omega
  · refine List.rel_append ?_ hinner.answers
    obtain ⟨rs, hrs, hdisplays, -⟩ := htallies.lowersChildren.reads hc hshows hinside
    have hchosen := htallies.chosen hrs
    have hrow := elses_displaysOf place (isMember_of_mem_membersOf hsound) 0 none
    rw [displaysOf_membersOf, Option.bind_none] at hrow
    rw [hdisplays, hrow, List.forall₂_map_right_iff] at hchosen
    exact hchosen.imp fun _ _ h => h.answers

mutual

theorem LowersNode.exists_answers (hc : Compiles env t compiled K root ds' n₁) :
    ∀ {node : Node} {binders around before siblings ds n n'},
      LowersNode env K binders around before node siblings ds n n' →
      t.Shows around before node.elements →
      t.Binds env.config binders (Site.enclosing ⟨around, false⟩) →
      (∀ e ∈ node.allElements, e.IsSound env.config) →
      ∃ made, AnswersAll env t compiled.module (node.elses env.config around before)
        (fun p => rowTally p siblings + statementsTally p ds) made
  | .text .., _, _, _, _, _, _, _, h, _, _, _ => by
    cases h with
    | blank => exact ⟨[], fun _ _ => rfl, .nil⟩
    | text =>
      refine ⟨[], fun p hp => ?_, .nil⟩
      simp [rowTally, Sibling.tally, (counts_hasElse hp env.config).tally_text, statementsTally,
        allDeclarations]
  | .placeholder .., _, _, _, _, _, _, _, h, _, _, _ => by
    cases h with
    | nothing => exact ⟨[], fun _ _ => rfl, .nil⟩
    | placeholder =>
      refine ⟨[], fun p hp => ?_, .nil⟩
      simp [rowTally, Sibling.tally, (counts_hasElse hp env.config).tally_callPrimitive,
        (plain_qualify _).tally_eq_zero hp, statementsTally, allDeclarations]
  | .fragment _ children, _, _, _, _, _, _, _, h, ht, hb, hsound => by
    cases h with
    | fragment lowersChildren => exact LowersNodes.exists_answers hc lowersChildren ht hb hsound
  | .element .., _, _, _, _, _, _, _, h, ht, hb, hsound => by
    rw [Node.allElements, List.forall_mem_cons] at hsound
    cases h with
    | element lowers =>
      rw [← Site.enclosing_iterable] at hb
      obtain ⟨made, hmade⟩ := lowers.exists_answers hc (ht 0 _ rfl) hb hsound.2
        fun h ht hb => LowersNodes.exists_answers hc h ht hb hsound.2
      exact ⟨made, fun p hp => by simpa [rowTally] using hmade.count p hp, hmade.answers⟩
  | .literal .., _, _, _, _, _, _, _, h, _, _, _ => nomatch h
  | .attr .., _, _, _, _, _, _, _, h, _, _, _ => nomatch h
  | .template .., _, _, _, _, _, _, _, h, _, _, _ => nomatch h

theorem LowersNodes.exists_answers (hc : Compiles env t compiled K root ds' n₁) :
    ∀ {nodes : List Node} {binders around before siblings ds n n'},
      LowersNodes env K binders around before nodes siblings ds n n' →
      t.Shows around before (elementsOf nodes) →
      t.Binds env.config binders (Site.enclosing ⟨around, false⟩) →
      (∀ e ∈ allElementsOf nodes, e.IsSound env.config) →
      ∃ made, AnswersAll env t compiled.module (elsesOf env.config around before nodes)
        (fun p => rowTally p siblings + statementsTally p ds) made
  | [], _, _, _, _, _, _, _, h, _, _, _ => by
    cases h
    exact ⟨[], fun _ _ => rfl, .nil⟩
  | node :: rest, _, _, _, _, _, _, _, h, ht, hb, hsound => by
    rw [allElementsOf, List.forall_mem_append] at hsound
    rw [elementsOf] at ht
    cases h with
    | cons head tail =>
      obtain ⟨made, hmade⟩ := LowersNode.exists_answers hc head ht.left hb hsound.1
      obtain ⟨made', hmade'⟩ := LowersNodes.exists_answers hc tail ht.right hb hsound.2
      refine ⟨made ++ made', fun p hp => ?_, List.rel_append hmade.answers hmade'.answers⟩
      have hhead := hmade.count p hp
      have htail := hmade'.count p hp
      rw [rowTally_append, statementsTally_append, List.countP_append]
      omega

end

end

/-! ## Units -/

variable {t : Template} {compiled : Compiled}

/-- In a unit that compiles, the elements inside of the root that are marked as an else and the
conditionals with an else in the module correspond one to one. Each conditional is made of the
element in front of the else, which has a condition and is neither a template nor an outlet. -/
theorem elses_answered (h : (compile env t).1 = .ok compiled) :
    ((t.elses env.config).map ElseOf.element).Perm
        (t.elements.tail.filter (Node.isElse env.config)) ∧
      ∃ choices, choices.Perm (compiled.module.function.subterms.filter Code.hasElse) ∧
        List.Forall₂ (Answers env t compiled.module) choices (t.elses env.config) := by
  obtain ⟨K, sibling, ds, n, hc⟩ := compiles_of_ok h
  obtain ⟨pos, attributes, children, hroot, hl⟩ := hc.root
  have ht : t.elementAt? [] = some (.element pos ⟨none, "template"⟩ attributes children) := by
    simp [Template.elementAt?, hroot]
  have hsound := isSound_of_ok h
  rw [Template.elements, hroot, Option.map_some, Option.getD_some, Node.allElements,
    List.forall_mem_cons] at hsound
  obtain ⟨choices, hchoices⟩ := hl.exists_answers hc ht (fun _ => rfl) hsound.2
    fun h ht hb => LowersNodes.exists_answers hc h ht hb hsound.2
  rw [Template.elses, hroot]
  refine ⟨?_, choices, ?_, hchoices.answers⟩
  · rw [Template.elements, hroot, Option.map_some, Option.getD_some, Node.allElements,
      List.tail_cons, List.map_append, map_element_rowElses, filter_membersOf]
    exact elsesOf_perm children _ _
  · refine hchoices.perm fun p hp => ?_
    rw [Function.countP_subterms, hc.function, hl.tally_root (counts_hasElse hp _)]
    rfl

/-- A chain of three, with blank text and a fragment between, and a row inside of its last else. -/
def chainTemplate : Template :=
  .ofRoot [.plain "p" [.text "set" "if" "a", .text "repeat" "for" "x in xs"] [],
    .text ⟨none, none⟩ "\n",
    .fragment ⟨none, none⟩ [.plain "x-foo" [.bare "set" "else", .text "bind" "if" "b"] []],
    .plain "template" [.bare "bind" "else"]
      [.plain "i" [.text "set" "if" "c"] [], .plain "b" [.bare "set" "else"] []]]

theorem elses_answered_chain :
    ∃ compiled, (compile .default chainTemplate).1 = .ok compiled ∧
      (chainTemplate.elses {}).length = 3 ∧
      ((chainTemplate.elses {}).map ElseOf.element).Perm
        (chainTemplate.elements.tail.filter (Node.isElse {})) ∧
      ∃ choices, choices.Perm (compiled.module.function.subterms.filter Code.hasElse) ∧
        List.Forall₂ (Answers .default chainTemplate compiled.module) choices
          (chainTemplate.elses {}) := by
  have hok : (compile .default chainTemplate).1.toOption.map (fun _ => ()) = some () := by
    decide +kernel
  obtain ⟨compiled, hc, -⟩ := exists_ok_of_map hok
  exact ⟨compiled, hc, by decide +kernel, elses_answered hc⟩

/-- A root that is marked as an else. -/
def markedTemplate : Template :=
  ⟨⟨none, none⟩, [.plain "template" [.bare "set" "else"] []]⟩

/-- An element is marked as an else, and the module has no conditional. -/
theorem root_else_is_passed_over :
    ∃ compiled, (compile .default markedTemplate).1 = .ok compiled ∧
      (markedTemplate.elements.filter (Node.isElse {})).length = 1 ∧
      compiled.module.function.subterms.filter Code.hasElse = [] := by
  have hnone : (compile .default markedTemplate).1.toOption.map (fun c =>
      (c.module.function.subterms.filter Code.hasElse).length) = some 0 := by
    decide +kernel
  obtain ⟨compiled, hc, hchoices⟩ := exists_ok_of_map hnone
  exact ⟨compiled, hc, by decide +kernel, List.length_eq_zero_iff.1 hchoices⟩

end TemplateCompiler
