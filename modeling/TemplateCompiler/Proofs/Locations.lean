import TemplateCompiler.Proofs.Simulation

/-!
# What is compiled has nothing to do with where it is written

The pieces of a template's expressions and those of a module's code say where they are written. A
template whose expressions say nothing of it is compiled to the same module, which says nothing of
it either (`compile_unlocated`).
-/

namespace TemplateCompiler

/-- An expression that does not say where it is written. -/
def Expr.unlocated : Expr → Expr
  | .name _ id => .name none id
  | .member _ value id => .member none value.unlocated id
  | .index _ value key => .index none value.unlocated key.unlocated
  | .constant _ c => .constant none c
  | .foreign _ kind => .foreign none kind

namespace Code

mutual

/-- Code that does not say where it is written. -/
def unlocated : Code → Code
  | .ref id => .ref id
  | .name site _ id => .name site none id
  | .member _ value id => .member none value.unlocated id
  | .index _ value key => .index none value.unlocated key.unlocated
  | .constant _ c => .constant none c
  | .foreign _ kind => .foreign none kind
  | .call callee arguments => .call callee.unlocated (unlocatedList arguments)
  | .dict entries => .dict (unlocatedEntries entries)
  | .list items => .list (unlocatedList items)
  | .conditional test body alternative =>
    .conditional test.unlocated body.unlocated alternative.unlocated
  | .and left right => .and left.unlocated right.unlocated
  | .or left right => .or left.unlocated right.unlocated
  | .lambda place parameters body => .lambda place parameters body.unlocated

def unlocatedList : List Code → List Code
  | [] => []
  | code :: rest => code.unlocated :: unlocatedList rest

def unlocatedEntries : List (String × Code) → List (String × Code)
  | [] => []
  | (key, code) :: rest => (key, code.unlocated) :: unlocatedEntries rest

end

theorem unlocatedList_eq_map (codes : List Code) : unlocatedList codes = codes.map unlocated := by
  induction codes with
  | nil => rfl
  | cons code rest ih => rw [unlocatedList, ih, List.map_cons]

theorem unlocatedEntries_eq_map (entries : List (String × Code)) :
    unlocatedEntries entries = entries.map fun e => (e.1, e.2.unlocated) := by
  induction entries with
  | nil => rfl
  | cons e rest ih => rw [unlocatedEntries, ih, List.map_cons]

/-! ## What the compiler sees -/

theorem root_unlocated : ∀ code : Code, code.unlocated.root = code.root.unlocated
  | .member _ value _ => root_unlocated value
  | .index _ value _ => root_unlocated value
  | .ref _ | .name .. | .constant .. | .foreign .. | .call .. | .dict _ | .list _ | .conditional ..
  | .and .. | .or .. | .lambda .. => rfl

mutual

theorem names_unlocated : ∀ code : Code, code.unlocated.names = code.names
  | .ref _ | .name .. | .constant .. | .foreign .. => rfl
  | .member _ value _ => names_unlocated value
  | .index _ value key => by
    rw [unlocated, names, names_unlocated value, names_unlocated key, names]
  | .call callee arguments => by
    rw [unlocated, names, names_unlocated callee, listNames_unlocated arguments, names]
  | .dict entries => entryNames_unlocated entries
  | .list items => listNames_unlocated items
  | .conditional test body alternative => by
    rw [unlocated, names, names_unlocated test, names_unlocated body,
      names_unlocated alternative, names]
  | .and left right => by
    rw [unlocated, names, names_unlocated left, names_unlocated right, names]
  | .or left right => by
    rw [unlocated, names, names_unlocated left, names_unlocated right, names]
  | .lambda _ _ body => names_unlocated body

theorem listNames_unlocated : ∀ codes : List Code,
    listNames (unlocatedList codes) = listNames codes
  | [] => rfl
  | code :: rest => by
    rw [unlocatedList, listNames, names_unlocated code, listNames_unlocated rest, listNames]

theorem entryNames_unlocated : ∀ entries : List (String × Code),
    entryNames (unlocatedEntries entries) = entryNames entries
  | [] => rfl
  | (_, code) :: rest => by
    rw [unlocatedEntries, entryNames, names_unlocated code, entryNames_unlocated rest, entryNames]

end

end Code

namespace Expr

theorem qualify_unlocated (inst : String) (site : Site) (bound : String → Bool) :
    ∀ e : Expr, e.unlocated.qualify inst site bound = (e.qualify inst site bound).unlocated
  | .name _ id => by
    simp only [unlocated, qualify]
    split <;> rfl
  | .member _ value _ => by
    rw [unlocated, qualify, qualify_unlocated inst site bound value, qualify, Code.unlocated]
  | .index _ value key => by
    rw [unlocated, qualify, qualify_unlocated inst site bound value,
      qualify_unlocated inst site bound key, qualify, Code.unlocated]
  | .constant .. | .foreign .. => rfl

theorem freeNames_unlocated (bound : String → Bool) :
    ∀ e : Expr, e.unlocated.freeNames bound = e.freeNames bound
  | .name .. | .constant .. | .foreign .. => rfl
  | .member _ value _ => freeNames_unlocated bound value
  | .index _ value key => by
    rw [unlocated, freeNames, freeNames_unlocated bound value, freeNames_unlocated bound key,
      freeNames]

theorem besides_map (f : Expr → Expr) : ∀ left right : List (List Expr),
    besides (left.map (List.map f)) (right.map (List.map f)) =
      (besides left right).map (List.map f)
  | [], _ => rfl
  | _ :: _, [] => rfl
  | _ :: left, _ :: right => by
    simp only [List.map_cons, besides, besides_map f left right, List.map_append]

theorem levels_unlocated : ∀ e : Expr, e.unlocated.levels = e.levels.map (List.map unlocated)
  | .name .. | .constant .. | .foreign .. => rfl
  | .member _ value _ => by
    simp only [unlocated, levels, levels_unlocated value, List.map_cons, List.map_nil]
  | .index _ value key => by
    simp only [unlocated, levels, levels_unlocated value, levels_unlocated key, besides_map,
      List.map_cons, List.map_nil]

theorem check_unlocated (place : Place) (e : Expr) : e.unlocated.check place = e.check place := by
  have hoffences : e.unlocated.breadthFirst.findSome? offence? =
      e.breadthFirst.findSome? offence? := by
    rw [breadthFirst, levels_unlocated, ← List.map_flatten, List.findSome?_map, breadthFirst]
    congr 1
    funext node
    cases node <;> rfl
  have hmember : e.unlocated.isMember = e.isMember := by cases e <;> rfl
  rw [check, hoffences, hmember, check]

end Expr

theorem Binding.unlocated_chain (first : String) (rest : List String) :
    (chain first rest).unlocated = chain first rest := by
  have hfold : ∀ e : Expr, e.unlocated = e →
      (rest.foldl (fun e id => .member none e id) e).unlocated =
        rest.foldl (fun e id => .member none e id) e := by
    induction rest with
    | nil => exact fun _ he => he
    | cons id rest ih => exact fun e he => ih _ (by rw [Expr.unlocated, he])
  exact hfold _ rfl

/-! ## Compilation -/

def Recoding.unlocated : Recoding where
  code := Code.unlocated
  expr := Expr.unlocated
  ref _ := rfl
  constant _ := rfl
  index _ _ := rfl
  dict entries := by rw [Code.unlocated, Code.unlocatedEntries_eq_map]
  list items := by rw [Code.unlocated, Code.unlocatedList_eq_map]
  conditional _ _ _ := rfl
  and _ _ := rfl
  or _ _ := rfl
  lambda _ _ _ := rfl
  call id arguments := by rw [Code.unlocated, Code.unlocatedList_eq_map, Code.unlocated]
  text? c := by cases c <;> rfl
  names := Code.names_unlocated
  isMethodOf c inst := by
    cases c with
    | member _ value _ => cases value <;> rfl
    | _ => rfl
  isNamed c id := by
    rw [Code.root_unlocated]
    cases c.root <;> rfl
  qualify := Expr.qualify_unlocated
  freeNames := Expr.freeNames_unlocated
  check := Expr.check_unlocated
  display e := by cases e <;> rfl
  chain := Binding.unlocated_chain

theorem Recoding.keeps_unlocated (parameter : String) : unlocated.Keeps parameter := by
  intro field arguments
  change Code.unlocated _ = _
  rw [Code.unlocated, Code.unlocatedList_eq_map]
  rfl

theorem Recoding.carries_unlocated (config : Config) (name : String) :
    unlocated.Carries config config name name :=
  keeps_unlocated config.apiParam name

theorem Recoding.between_unlocated (config : Config) : unlocated.Between config config := by
  constructor
  case same => rfl
  case slots | memo => exact keeps_unlocated _
  all_goals exact carries_unlocated config _

def Compiled.unlocated (compiled : Compiled) : Compiled :=
  compiled.mapCode Code.unlocated

def Template.unlocated (t : Template) : Template :=
  t.mapExpr Expr.unlocated

theorem compile_unlocated (env : Env) (t : Template) :
    compile env t.unlocated = ((compile env t).1.map Compiled.unlocated, (compile env t).2) :=
  compile_recode (Recoding.between_unlocated env.config) t

end TemplateCompiler
