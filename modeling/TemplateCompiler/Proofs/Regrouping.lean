import TemplateCompiler.Proofs.Rewriting

/-!
# Fragments and empty placeholders

A fragment is lowered to what its children are lowered to, and an empty placeholder to nothing. So
it makes no difference how children are grouped (`regrouping_unnoticed`).
-/

namespace TemplateCompiler

/-- A run of children is put into a fragment, or an empty placeholder between them. -/
inductive Regroup : List Node → List Node → Prop where
  | fragment {left run right pos} :
      Regroup (left ++ run ++ right) (left ++ .fragment pos run :: right)
  | placeholder {left right pos} :
      Regroup (left ++ right) (left ++ .placeholder pos none :: right)

variable {env : Env} {t t' : Template}

theorem Regroup.unnoticed {nodes nodes' : List Node} (h : Regroup nodes nodes') :
    Unnoticed env nodes nodes' := by
  cases h with
  | @fragment left run right pos =>
    constructor
    case length =>
      simp [elementsOf_append, elementsOf, Node.elements]
    case lowers =>
      intro around before
      simp [CompileM.lowerNodes_append, CompileM.lowerNodes, CompileM.lowerNode, Node.elements,
        Nat.add_assoc]
  | placeholder =>
    constructor
    case length => simp [elementsOf_append, elementsOf, Node.elements]
    case lowers =>
      intro around before
      simp [CompileM.lowerNodes_append, CompileM.lowerNodes, CompileM.lowerNode, Node.elements]

/-- Compiling does not tell how children are grouped in fragments and where empty placeholders stand
among them, at any depth, also in an element that is an attribute's value. No other node with
children is such a value. -/
theorem regrouping_unnoticed (h : t.Rewrites Node.IsElement Regroup t') :
    compile env t' = compile env t :=
  (h.sameOutcome fun h => h.unnoticed).eq

/-- An if, and an else that some nodes around it stand for. -/
def pairedTemplate (nodes : List Node) : Template :=
  .ofRoot (.plain "p" [.text "set" "if" "a"] [] :: nodes)

def alternativeNode : Node :=
  .plain "b" [.bare "set" "else"] []

/-- An element with another as the value of an attribute. -/
def valueNode (nodes : List Node) : Node :=
  .plain "b" [⟨⟨none, none⟩, ⟨none, "x"⟩, .node (.plain "i" [] nodes)⟩] []

theorem valueNode_rewrites :
    Rewrites Node.IsElement Regroup (valueNode []) (valueNode [.placeholder ⟨none, none⟩ none]) :=
  @Rewrites.value _ _ _ _ [] _ _ _ _ [] _ (.children (@Regroup.placeholder [] [] _)) trivial

/-- The else is put into a fragment, and an empty placeholder behind what is in an attribute. -/
theorem regrouping_unnoticed_paired :
    (∃ compiled, (compile .default (pairedTemplate [alternativeNode])).1 = .ok compiled) ∧
      compile .default (pairedTemplate [.fragment ⟨none, none⟩ [alternativeNode]]) =
        compile .default (pairedTemplate [alternativeNode]) ∧
      compile .default (pairedTemplate [valueNode [.placeholder ⟨none, none⟩ none]]) =
        compile .default (pairedTemplate [valueNode []]) := by
  have hok : (compile .default (pairedTemplate [alternativeNode])).1.toOption.map (fun _ => ()) =
      some () := by
    decide +kernel
  obtain ⟨compiled, hc, -⟩ := exists_ok_of_map hok
  refine ⟨⟨compiled, hc⟩, regrouping_unnoticed ?_, regrouping_unnoticed ?_⟩
  · exact @Rewrites.body _ _ _ [] _ _ [] (.children (@Regroup.fragment [_] [_] [] _))
  · exact @Rewrites.body _ _ _ [] _ _ [] (@Rewrites.child _ _ _ _ _ [_] _ _ [] valueNode_rewrites)

end TemplateCompiler
