import TemplateCompiler.Binding

/-!
# Which expressions are let through

An expression is searched level by level, and a search of all levels comes by each of its nodes
(`Expr.breadthFirst_perm`). So what is let through is told by recursion, without the search: a name
or a chain at the root, and nowhere in it the name self or a node that a template may not hold
(`Expr.check_eq_ok_iff`). A binding written as text spells such a chain.
-/

namespace TemplateCompiler

namespace Expr

/-- An expression and the expressions inside of it. -/
def nodes : Expr → List Expr
  | name span id => [name span id]
  | member span value id => member span value id :: value.nodes
  | index span value key => index span value key :: (value.nodes ++ key.nodes)
  | constant span c => [constant span c]
  | foreign span kind => [foreign span kind]

/-- Names but for self, chains and constants, all the way down. -/
def Allowed : Expr → Prop
  | name _ id => id ≠ selfName
  | member _ value _ => value.Allowed
  | index _ value key => value.Allowed ∧ key.Allowed
  | constant .. => True
  | foreign .. => False

open scoped List in
theorem flatten_besides_perm : ∀ left right : List (List Expr),
    (besides left right).flatten.Perm (left.flatten ++ right.flatten)
  | [], _ => .refl _
  | l :: left, [] => by simp [besides]
  | l :: left, r :: right => by
    rw [besides, List.flatten_cons, List.flatten_cons, List.flatten_cons, List.append_assoc,
      List.append_assoc]
    refine .append_left l ?_
    calc r ++ (besides left right).flatten
      _ ~ r ++ (left.flatten ++ right.flatten) := (flatten_besides_perm left right).append_left r
      _ ~ left.flatten ++ (r ++ right.flatten) := by
        rw [← List.append_assoc, ← List.append_assoc]
        exact List.perm_append_comm.append_right _

/-- A search by levels comes by every node, as often as it is there. -/
theorem breadthFirst_perm : ∀ e : Expr, e.breadthFirst.Perm e.nodes
  | name .. | constant .. | foreign .. => .refl _
  | member _ value _ => (breadthFirst_perm value).cons _
  | index _ value key =>
    ((flatten_besides_perm value.levels key.levels).trans
      ((breadthFirst_perm value).append (breadthFirst_perm key))).cons _

theorem allowed_iff : ∀ e : Expr, e.Allowed ↔ ∀ d ∈ e.nodes, d.offence? = none
  | name _ id => by simp [Allowed, nodes, offence?]
  | member _ value _ => by simp [Allowed, nodes, offence?, allowed_iff value]
  | index _ value key => by
    simp [Allowed, nodes, offence?, allowed_iff value, allowed_iff key, or_imp, forall_and]
  | constant .. => by simp [Allowed, nodes, offence?]
  | foreign .. => by simp [Allowed, nodes, offence?]

theorem check_eq_ok_iff {place : Place} {e : Expr} :
    e.check place = .ok () ↔ e.isMember ∧ e.Allowed := by
  have hsearch : e.breadthFirst.findSome? offence? = none ↔ e.Allowed := by
    rw [List.findSome?_eq_none_iff, allowed_iff]
    exact forall_congr' fun d => imp_congr_left e.breadthFirst_perm.mem_iff
  unfold check
  rw [← hsearch]
  split
  · rename_i offence h
    simp [h]
  · rename_i h
    simp [h]

end Expr

theorem Binding.allowed_chain (first : String) (rest : List String) :
    (chain first rest).Allowed ↔ first ≠ Expr.selfName := by
  have hfold : ∀ e : Expr,
      (rest.foldl (fun e id => .member none e id) e).Allowed ↔ e.Allowed := by
    induction rest with
    | nil => exact fun _ => Iff.rfl
    | cons id rest ih => exact fun e => ih (.member none e id)
  exact hfold _

/-- A text that spells a chain is a path of identifiers, the first other than self. -/
theorem Binding.exists_chain_of_form {text : String} {e : Expr} (h : form text = .ok (.path e)) :
    ∃ first rest, identifierPath? (Text.stripped text) = some (first :: rest) ∧
      first ≠ Expr.selfName ∧ e = chain first rest := by
  unfold form at h
  simp only at h
  split at h
  · rename_i first rest hpath
    split at h
    · simp at h
    · rename_i hfirst
      simp only [Except.ok.injEq, Form.path.injEq] at h
      exact ⟨first, rest, hpath, hfirst, h.symm⟩
  · split at h <;> simp at h

theorem Binding.allowed_of_form {text : String} {e : Expr} (h : form text = .ok (.path e)) :
    e.Allowed := by
  obtain ⟨first, rest, -, hfirst, rfl⟩ := exists_chain_of_form h
  exact (allowed_chain first rest).2 hfirst

end TemplateCompiler
