import TemplateCompiler.Proofs.Accepted
import TemplateCompiler.Proofs.CollapsedText
import TemplateCompiler.Proofs.Content
import TemplateCompiler.Proofs.Rejections
import TemplateCompiler.Proofs.Rewriting

/-!
# Blank text

Text that collapses to nothing is lowered to nothing. A text of spaces, tabs, carriage returns and
line feeds does where it breaks a line, and otherwise only if it is empty
(`collapse_isEmpty_iff`): a single line keeps its edges. So blank text with a line break makes no
difference wherever it stands, and a unit that compiles is told from the same with a line of blanks
in it (`blank_text_unnoticed_iff`).
-/

namespace TemplateCompiler

/-! ## Text that is put in -/

/-- A text is put into a row of nodes. -/
inductive Insert (w : String) : List Node → List Node → Prop where
  | mk {left right pos} : Insert w (left ++ right) (left ++ .text pos w :: right)

/-- A text is put among the nodes of a unit or among the children of an element or a fragment. -/
def Template.Inserts (allowed : Node → Prop) (w : String) (t t' : Template) : Prop :=
  t'.pos = t.pos ∧ Insert w t.body t'.body ∨ t.Rewrites allowed (Insert w) t'

variable {env : Env} {config : Config} {t t' : Template} {w : String} {allowed : Node → Prop}

theorem Insert.unnoticed {nodes nodes' : List Node} (h : Insert w nodes nodes')
    (hw : (Text.collapse w).isEmpty) : Unnoticed env nodes nodes' := by
  obtain @⟨left, right, pos⟩ := h
  constructor
  case length => simp [elementsOf_append, elementsOf, Node.elements]
  case lowers =>
    intro around before
    simp [CompileM.lowerNodes_append, CompileM.lowerNodes, CompileM.lowerNode, Node.elements, hw]

/-- Text that collapses to nothing makes no difference. -/
theorem Template.Inserts.sameOutcome (h : t.Inserts allowed w t') (hw : (Text.collapse w).isEmpty) :
    SameOutcome allowed (Insert w) (compile env t) (compile env t') := by
  obtain ⟨hpos, hbody⟩ | h := h
  · obtain ⟨pos, body⟩ := t
    obtain ⟨pos', body'⟩ := t'
    obtain rfl : pos' = pos := hpos
    have hroot : CompileM.lowerRoot env ⟨pos', body'⟩ = CompileM.lowerRoot env ⟨pos', body⟩ := by
      cases hbody with
      | mk => simp [CompileM.lowerRoot, Node.isBlank, hw]
    exact .inl (by simp only [compile, CompileM.compileUnit, hroot])
  · exact h.sameOutcome fun h => h.unnoticed hw

/-! ## Text that is noticed -/

/-- How many pieces an element is by itself depends on its attributes only. -/
theorem length_ownPieces (place place' : Place) (pos : Position) (tag : Tag)
    (attributes : List Attribute) (nodes nodes' : List Node) :
    ((Node.element pos tag attributes nodes).ownPieces config place).length =
      ((Node.element pos tag attributes nodes').ownPieces config place').length := by
  have hkind : (Node.element pos tag attributes nodes').kind config =
      (Node.element pos tag attributes nodes).kind config := rfl
  have hiteration : ((Node.element pos tag attributes nodes').iteration? place').toList.length =
      ((Node.element pos tag attributes nodes).iteration? place).toList.length := by
    rw [Node.iteration?, Node.iteration?]
    split <;> rfl
  have hcondition :
      ((Node.element pos tag attributes nodes').condition? config place').toList.length =
        ((Node.element pos tag attributes nodes).condition? config place).toList.length := by
    rw [Node.condition?, Node.condition?, Option.toList_map, Option.toList_map, List.length_map,
      List.length_map]
    rfl
  simp only [Node.ownPieces, List.length_append, hkind, hiteration]
  cases (Node.element pos tag attributes nodes).kind config <;>
    simp [ElementKind.chooses, ElementKind.piece?, hcondition]

mutual

/-- How many pieces there are does not depend on where they stand. -/
theorem Node.length_pieces : ∀ (node : Node) (around around' : Place) (before before' : Nat),
    (node.pieces config around before).length = (node.pieces config around' before').length
  | .text .., _, _, _, _ => by
    rw [Node.pieces, Node.pieces]
    split <;> rfl
  | .placeholder _ none, _, _, _, _ => rfl
  | .placeholder _ (some _), _, _, _, _ => rfl
  | .fragment _ children, _, _, _, _ => length_piecesOf children _ _ _ _
  | .element _ _ _ children, _, _, _, _ => by
    rw [Node.pieces, Node.pieces, List.length_append, List.length_append,
      length_piecesOf children _ _ _ _, length_ownPieces]
  | .literal .., _, _, _, _ => rfl
  | .attr _, _, _, _, _ => rfl
  | .template .., _, _, _, _ => rfl

theorem length_piecesOf : ∀ (nodes : List Node) (around around' : Place) (before before' : Nat),
    (piecesOf config around before nodes).length = (piecesOf config around' before' nodes).length
  | [], _, _, _, _ => rfl
  | node :: rest, _, _, _, _ => by
    rw [piecesOf, piecesOf, List.length_append, List.length_append, Node.length_pieces node,
      length_piecesOf rest]

end

theorem length_piecesOf_append (around : Place) (before : Nat) : ∀ nodes nodes' : List Node,
    (piecesOf config around before (nodes ++ nodes')).length =
      (piecesOf config around before nodes).length + (piecesOf config around before nodes').length
  | [], _ => by simp [piecesOf]
  | node :: rest, nodes' => by
    rw [List.cons_append, piecesOf, piecesOf, List.length_append, List.length_append,
      length_piecesOf (rest ++ nodes') around around _ before,
      length_piecesOf rest around around _ before, length_piecesOf_append around before rest,
      Nat.add_assoc]

theorem Insert.length_pieces {nodes nodes' : List Node} (h : Insert w nodes nodes')
    (hw : (Text.collapse w).isEmpty = false) (around : Place) (before : Nat) :
    (piecesOf config around before nodes').length =
      (piecesOf config around before nodes).length + 1 := by
  cases h with
  | mk =>
    simp [length_piecesOf_append, piecesOf, Node.pieces, Node.elements, hw]
    omega

theorem strays_subset_of_mem {node : Node} {nodes : List Node} (h : node ∈ nodes) :
    node.strays ⊆ straysOf nodes := by
  rw [straysOf_eq_flatMap]
  exact fun _ => List.mem_flatMap_of_mem h

theorem allElements_subset_of_mem_nodes {node : Node} {nodes : List Node} (h : node ∈ nodes) :
    node.allElements ⊆ allElementsOf nodes := by
  rw [allElementsOf_eq_flatMap]
  exact fun _ => List.mem_flatMap_of_mem h

/-- In a node that is lowered, a text that does not collapse to nothing is a further piece. -/
theorem Rewrites.length_pieces {n n' : Node} (h : Rewrites allowed (Insert w) n n')
    (hw : (Text.collapse w).isEmpty = false) (hstrays : n.strays ⊆ [])
    (hsound : ∀ e ∈ n.allElements, e.IsSound config) (around : Place) (before : Nat) :
    (n'.pieces config around before).length = (n.pieces config around before).length + 1 := by
  induction h generalizing around before with
  | @children pos tag attributes nodes nodes' h =>
    rw [Node.pieces, Node.pieces, List.length_append, List.length_append, h.length_pieces hw,
      length_ownPieces _ _ _ _ _ nodes' nodes]
    rfl
  | members h => rw [Node.pieces, Node.pieces, h.length_pieces hw]
  | @child pos tag attributes left n n' right h ih =>
    have hn : n ∈ left ++ n :: right := by simp
    have hlength := ih (List.Subset.trans (strays_subset_of_mem hn) hstrays) fun e he =>
      hsound e (List.mem_cons_of_mem _ (allElements_subset_of_mem_nodes hn he))
    rw [Node.pieces, Node.pieces, List.length_append, List.length_append, length_piecesOf_append,
      length_piecesOf_append, piecesOf, piecesOf, List.length_append, List.length_append, hlength,
      length_piecesOf right _ (around ++ [before]) _ (0 + n.elements.length),
      length_ownPieces _ (around ++ [before]) _ _ _ _ (left ++ n :: right)]
    omega
  | @member pos left n n' right h ih =>
    have hn : n ∈ left ++ n :: right := by simp
    have hlength := ih (List.Subset.trans (strays_subset_of_mem hn) hstrays) fun e he =>
      hsound e (allElements_subset_of_mem_nodes hn he)
    rw [Node.pieces, Node.pieces, length_piecesOf_append, length_piecesOf_append, piecesOf,
      piecesOf, List.length_append, List.length_append, hlength,
      length_piecesOf right _ around _ (before + n.elements.length)]
    omega
  | @value pos tag left place name n n' right nodes h ha =>
    obtain ⟨readings, hreads, -⟩ := hsound _ List.mem_cons_self
    have hmem : ⟨place, name, .node n⟩ ∈ left ++ ⟨place, name, .node n⟩ :: right := by simp
    obtain ⟨_, _, _, _, -, hcontent, -⟩ := Reading.exists_reading_of_mem hreads hmem
    simp [(h.ofAttribute place name).1] at hcontent
  | body | attr => simp [Node.strays] at hstrays

/-- A unit that compiles has as many pieces as its root has wherever that stands. -/
theorem Template.length_pieces {compiled : Compiled} (h : (compile env t).1 = .ok compiled)
    {root : Node} (hroot : t.root? = some root) :
    (t.pieces config).length = (root.pieces config [] 0).length := by
  obtain ⟨K, sibling, ds, n, hc⟩ := compiles_of_ok h
  obtain ⟨pos, attributes, children, hroot', -⟩ := hc.root
  obtain rfl := Option.some.inj (hroot'.symm.trans hroot)
  rw [Template.pieces, hroot, Option.map_some, Option.getD_some, Node.pieces, List.length_append,
    List.length_append, length_ownPieces [] ([] ++ [0]) _ _ _ children children, Node.children,
    length_piecesOf children [] ([] ++ [0])]

/-- Units with the same module have as many pieces. -/
theorem length_pieces_eq {compiled : Compiled} (h : (compile env t).1 = .ok compiled)
    (h' : (compile env t').1 = .ok compiled) (hconfig : env.config = {}) :
    (t'.pieces env.config).length = (t.pieces env.config).length := by
  have hcard := Multiset.card_eq_card_of_rel (content_once h hconfig).1
  have hcard' := Multiset.card_eq_card_of_rel (content_once h' hconfig).1
  exact hcard'.trans hcard.symm

/-- A unit that compiles has one node that is no blank text. -/
theorem exists_root_of_ok {compiled : Compiled} (h : (compile env t).1 = .ok compiled) :
    ∃ root, t.body.filter (fun node => !node.isBlank) = [root] := by
  obtain ⟨c, code, c', hroot, -⟩ := exists_lowerRoot_of_ok h
  rw [CompileM.lowerRoot_eq] at hroot
  split at hroot
  · exact absurd hroot CompileM.yields_reject
  · exact ⟨_, by assumption⟩
  · exact absurd hroot CompileM.yields_reject

theorem Insert.length_filter {nodes nodes' : List Node} (h : Insert w nodes nodes')
    (hw : (Text.collapse w).isEmpty = false) :
    (nodes'.filter fun node => !node.isBlank).length =
      (nodes.filter fun node => !node.isBlank).length + 1 := by
  cases h with
  | mk =>
    rw [List.filter_append, List.filter_append,
      List.filter_cons_of_pos (by simp [Node.isBlank, hw])]
    simp only [List.length_append, List.length_cons]
    omega

/-- The root of a unit that compiles has only content in it, and attributes that can be read. -/
theorem strays_subset_of_root? {compiled : Compiled} (h : (compile env t).1 = .ok compiled)
    {root : Node} (hroot : t.root? = some root) :
    root.strays ⊆ [] ∧ ∀ e ∈ root.allElements, e.IsSound env.config := by
  obtain ⟨K, sibling, ds, n, hc⟩ := compiles_of_ok h
  obtain ⟨pos, attributes, children, hroot', hl⟩ := hc.root
  obtain rfl := Option.some.inj (hroot.symm.trans hroot')
  constructor
  · cases hl with
    | mk _ _ _ lowersChildren =>
      rw [Node.strays, (LowersNodes.strays_eq_nil_and_pos_mem lowersChildren).1]
      exact List.Subset.refl _
  · have hsound := isSound_of_ok h
    rwa [Template.elements, hroot, Option.map_some, Option.getD_some] at hsound

/-- Where a unit has only its root, the root is what is rewritten. -/
theorem Template.Rewrites.root {R : List Node → List Node → Prop} {root root' : Node}
    (h : t.Rewrites allowed R t') (hroot : t.body.filter (fun node => !node.isBlank) = [root])
    (hroot' : t'.body.filter (fun node => !node.isBlank) = [root']) :
    TemplateCompiler.Rewrites allowed R root root' := by
  obtain ⟨left, n, n', right, h, -, hbody, hbody'⟩ := h.exists_node
  obtain ⟨hblank, hblank'⟩ := h.not_isBlank
  rw [hbody, List.filter_append, List.filter_cons_of_pos (by simp [hblank]),
    List.append_eq_singleton_iff] at hroot
  rw [hbody', List.filter_append, List.filter_cons_of_pos (by simp [hblank']),
    List.append_eq_singleton_iff] at hroot'
  obtain ⟨-, hroot⟩ | ⟨-, hroot⟩ := hroot
  · obtain ⟨-, hroot'⟩ | ⟨-, hroot'⟩ := hroot'
    · rwa [(List.cons.inj hroot).1, (List.cons.inj hroot').1] at h
    · simp at hroot'
  · simp at hroot

/-- Text that does not collapse to nothing makes a difference. -/
theorem Template.Inserts.ne_ok (h : t.Inserts allowed w t')
    (hw : (Text.collapse w).isEmpty = false) {compiled : Compiled}
    (hok : (compile env t).1 = .ok compiled) (hconfig : env.config = {}) :
    (compile env t').1 ≠ .ok compiled := by
  intro hok'
  obtain ⟨root, hroot⟩ := exists_root_of_ok hok
  obtain ⟨root', hroot'⟩ := exists_root_of_ok hok'
  obtain ⟨-, hbody⟩ | h := h
  · have hlength := hbody.length_filter hw
    rw [hroot, hroot'] at hlength
    simp at hlength
  · have hlength := length_pieces_eq hok hok' hconfig
    have hhead : t.root? = some root := by rw [Template.root?, hroot, List.head?_cons]
    have hhead' : t'.root? = some root' := by rw [Template.root?, hroot', List.head?_cons]
    obtain ⟨hstrays, hsound⟩ := strays_subset_of_root? hok hhead
    rw [Template.length_pieces hok hhead, Template.length_pieces hok' hhead',
      (h.root hroot hroot').length_pieces hw hstrays hsound] at hlength
    omega

/-- Blank text that breaks a line, and blank text that is empty, makes no difference, but in a
message that shows where it stands. Any other blank text makes one to every unit that compiles. -/
theorem blank_text_unnoticed_iff (hw : ∀ c ∈ w.toList, Text.isLayout c) :
    (w = "" ∨ '\n' ∈ w.toList → ∀ (env : Env) (t t' : Template),
      (t.Inserts Node.IsElement w t' → compile env t' = compile env t) ∧
        (t.Inserts (fun _ => True) w t' →
          SameOutcome (fun _ => True) (Insert w) (compile env t) (compile env t'))) ∧
      ∀ (env : Env) (t t' : Template) (compiled : Compiled), env.config = {} →
        (compile env t).1 = .ok compiled → t.Inserts (fun _ => True) w t' →
          ((compile env t').1 = .ok compiled ↔ w = "" ∨ '\n' ∈ w.toList) := by
  rw [← Text.collapse_isEmpty_iff hw]
  constructor
  · intro hempty env t t'
    exact ⟨fun h => (h.sameOutcome hempty).eq, fun h => h.sameOutcome hempty⟩
  · intro env t t' compiled hconfig hok h
    constructor
    · intro hok'
      by_contra hshown
      exact h.ne_ok (Bool.not_eq_true _ ▸ hshown) hok hconfig hok'
    · intro hempty
      have hsame : SameOutcome _ _ (compile env t) (compile env t') := h.sameOutcome hempty
      obtain heq | ⟨v, v', qualified, pos, log, -, -, hrefused, -⟩ := hsame
      · rw [heq, hok]
      · simp [hrefused] at hok

/-- An element, and what stands after it. -/
def followedTemplate (after : List Node) : Template :=
  .ofRoot (.plain "b" [] [] :: after)

theorem followedTemplate_inserts (allowed : Node → Prop) (w : String) :
    (followedTemplate []).Inserts allowed w (followedTemplate [.text ⟨none, none⟩ w]) :=
  .inr (@Rewrites.body _ _ _ [] _ _ [] (.children (@Insert.mk w [_] [] _)))

theorem exists_followed :
    ∃ compiled, (compile .default (followedTemplate [])).1 = .ok compiled := by
  have hok : (compile .default (followedTemplate [])).1.toOption.map (fun _ => ()) = some () := by
    decide +kernel
  obtain ⟨compiled, hc, -⟩ := exists_ok_of_map hok
  exact ⟨compiled, hc⟩

theorem blank_text_unnoticed_iff_followed :
    compile .default (followedTemplate [.text ⟨none, none⟩ "\n  "]) =
        compile .default (followedTemplate []) ∧
      ∃ compiled, (compile .default (followedTemplate [])).1 = .ok compiled ∧
        ((compile .default (followedTemplate [.text ⟨none, none⟩ "\t"])).1 = .ok compiled ↔
          "\t" = "" ∨ '\n' ∈ "\t".toList) := by
  obtain ⟨compiled, hc⟩ := exists_followed
  have hbreak : "\n  ".toList.all Text.isLayout := by decide +kernel
  have htab : "\t".toList.all Text.isLayout := by decide +kernel
  have hsame := (blank_text_unnoticed_iff (List.all_eq_true.1 hbreak)).1 (.inr (by decide +kernel))
  refine ⟨(hsame _ _ _).1 (followedTemplate_inserts _ _), compiled, hc, ?_⟩
  exact (blank_text_unnoticed_iff (List.all_eq_true.1 htab)).2 _ _ _ _ rfl hc
    (followedTemplate_inserts _ _)

theorem blank_line_is_noticed :
    (∀ c ∈ " ".toList, Text.isLayout c) ∧
      (followedTemplate []).Inserts Node.IsElement " "
        (followedTemplate [.text ⟨none, none⟩ " "]) ∧
      (compile .default (followedTemplate [.text ⟨none, none⟩ " "])).1 ≠
        (compile .default (followedTemplate [])).1 := by
  obtain ⟨compiled, hc⟩ := exists_followed
  have hinserts := followedTemplate_inserts Node.IsElement " "
  have hblank : " ".toList.all Text.isLayout := by decide +kernel
  refine ⟨List.all_eq_true.1 hblank, hinserts, ?_⟩
  rw [hc]
  exact hinserts.ne_ok (by decide +kernel) hc rfl

end TemplateCompiler
