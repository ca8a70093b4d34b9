import TemplateCompiler.Code.Module
import TemplateCompiler.Proofs.Derivation

/-!
# Where a module mentions names

A mention is seen from a function inwards: `within` lists the functions between, innermost first,
and `earlier` the names that statements of the function's own body bind before it. A layer is such a
function with the names that its body binds before the mention and at all. Statements bind names in
the same way; `hoistings` lists them like mentions.
-/

namespace TemplateCompiler

/-- A function as seen from a place in it. -/
structure Layer extends Binder where
  earlier : List String
  hoisted : List String
deriving DecidableEq, Repr

/-- A name where a module reads it, and the site of the template it is taken over from, if any. -/
structure Mention where
  within : List Layer
  earlier : List String
  name : String
  site : Option Site
deriving DecidableEq, Repr

namespace Mention

def own (name : String) : Mention :=
  ⟨[], [], name, none⟩

def after (earlier : List String) (m : Mention) : Mention :=
  { m with earlier }

/-- The mention as seen from outside of a function. -/
def leave (place : Place) (parameters hoisted : List String) (m : Mention) : Mention :=
  { m with within := m.within ++ [⟨⟨place, parameters⟩, m.earlier, hoisted⟩], earlier := [] }

def binders (m : Mention) : List Binder :=
  m.within.map Layer.toBinder

variable (m : Mention) (earlier : List String) (place : Place) (parameters hoisted : List String)

@[simp]
theorem name_after : (m.after earlier).name = m.name := rfl

@[simp]
theorem site_after : (m.after earlier).site = m.site := rfl

@[simp]
theorem within_after : (m.after earlier).within = m.within := rfl

@[simp]
theorem earlier_after : (m.after earlier).earlier = earlier := rfl

@[simp]
theorem binders_after : (m.after earlier).binders = m.binders := rfl

@[simp]
theorem name_leave : (m.leave place parameters hoisted).name = m.name := rfl

@[simp]
theorem site_leave : (m.leave place parameters hoisted).site = m.site := rfl

@[simp]
theorem within_leave : (m.leave place parameters hoisted).within =
    m.within ++ [⟨⟨place, parameters⟩, m.earlier, hoisted⟩] := rfl

@[simp]
theorem binders_leave :
    (m.leave place parameters hoisted).binders = m.binders ++ [⟨place, parameters⟩] := by
  simp [binders, leave]

end Mention

namespace Code

mutual

def mentions : Code → List Mention
  | .ref id => [.own id]
  | .name site _ id => [⟨[], [], id, some site⟩]
  | .member _ value _ => value.mentions
  | .index _ value key => value.mentions ++ key.mentions
  | .constant .. | .foreign .. => []
  | .call callee arguments => callee.mentions ++ listMentions arguments
  | .dict entries => entryMentions entries
  | .list items => listMentions items
  | .conditional test body alternative => test.mentions ++ body.mentions ++ alternative.mentions
  | .and left right | .or left right => left.mentions ++ right.mentions
  | .lambda place parameters body =>
    body.mentions.map fun m => (m.after []).leave place parameters []

def listMentions : List Code → List Mention
  | [] => []
  | code :: rest => code.mentions ++ listMentions rest

def entryMentions : List (String × Code) → List Mention
  | [] => []
  | (_, code) :: rest => code.mentions ++ entryMentions rest

end

theorem mem_listMentions {m : Mention} {codes : List Code} :
    m ∈ listMentions codes ↔ ∃ code ∈ codes, m ∈ code.mentions := by
  induction codes with
  | nil => simp [listMentions]
  | cons code rest ih => simp [listMentions, ih]

theorem mem_entryMentions {m : Mention} {entries : List (String × Code)} :
    m ∈ entryMentions entries ↔ ∃ entry ∈ entries, m ∈ entry.2.mentions := by
  induction entries with
  | nil => simp [entryMentions]
  | cons entry rest ih => simp [entryMentions, ih]

end Code

def Declaration.name : Declaration → String
  | .assign name _ => name
  | .define function => function.name

def hoistedNames (ds : List Declaration) : List String :=
  ds.map Declaration.name

@[simp]
theorem hoistedNames_append (ds ds' : List Declaration) :
    hoistedNames (ds ++ ds') = hoistedNames ds ++ hoistedNames ds' :=
  List.map_append

mutual

/-- The mentions of a function, from outside of it. -/
def Function.mentions : Function → List Mention
  | ⟨_, place, parameters, ds, result⟩ =>
    (statementMentions [] ds ++ result.mentions.map (Mention.after (ds.map Declaration.name))).map
      (Mention.leave place parameters (ds.map Declaration.name))

def Declaration.mentions : Declaration → List Mention
  | .assign _ value => value.mentions
  | .define function => function.mentions

/-- The mentions of a row of statements, each after those before it. -/
def statementMentions (earlier : List String) : List Declaration → List Mention
  | [] => []
  | d :: rest =>
    d.mentions.map (Mention.after earlier) ++ statementMentions (earlier ++ [d.name]) rest

end

mutual

/-- The statements inside a function that bind a name, from outside of it. -/
def Function.hoistings : Function → List Mention
  | ⟨_, place, parameters, ds, _⟩ =>
    (statementHoistings ds).map (Mention.leave place parameters (ds.map Declaration.name))

def Declaration.hoistings : Declaration → List Mention
  | .assign name _ => [.own name]
  | .define function => .own function.name :: function.hoistings

def statementHoistings : List Declaration → List Mention
  | [] => []
  | d :: rest => d.hoistings ++ statementHoistings rest

end

/-- The mentions of a body, from inside of its function. -/
def bodyMentions (ds : List Declaration) (result : Code) : List Mention :=
  statementMentions [] ds ++ result.mentions.map (Mention.after (hoistedNames ds))

/-- The mentions in a function's body and the statements in it that bind names, from inside of the
function. -/
def Function.bodyMentions (f : Function) : List Mention :=
  TemplateCompiler.bodyMentions f.declarations f.result

def Function.bodyHoistings (f : Function) : List Mention :=
  statementHoistings f.declarations

theorem Function.mentions_eq (f : Function) : f.mentions =
    f.bodyMentions.map (Mention.leave f.place f.parameters (hoistedNames f.declarations)) := by
  cases f
  rw [Function.mentions]
  rfl

theorem Function.hoistings_eq (f : Function) : f.hoistings =
    f.bodyHoistings.map (Mention.leave f.place f.parameters (hoistedNames f.declarations)) := by
  cases f
  rw [Function.hoistings]
  rfl

theorem statementHoistings_append :
    ∀ ds ds' : List Declaration,
      statementHoistings (ds ++ ds') = statementHoistings ds ++ statementHoistings ds'
  | [], ds' => rfl
  | d :: ds, ds' => by
    rw [List.cons_append, statementHoistings, statementHoistings, statementHoistings_append,
      List.append_assoc]

end TemplateCompiler
