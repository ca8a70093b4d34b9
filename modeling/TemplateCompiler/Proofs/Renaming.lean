import TemplateCompiler.Proofs.Recoding

/-!
# Other names for the primitives

A primitive is a member of the interface's parameter that is called. To rename the primitives is to
change those members and nothing else. Whatever the compiler makes of code commutes with that, if
the primitives it calls are those of the other names.
-/

namespace TemplateCompiler

/-- New names for the members of the interface's parameter that are called. -/
structure Renaming where
  interface : String
  primitive : String → String

variable (r : Renaming)

/-! ## Renaming code -/

namespace Code

/-- What is called, under its new name if it is a primitive. -/
def renameCallee : Code → Code
  | .member span (.ref id) field =>
    .member span (.ref id) (if id = r.interface then r.primitive field else field)
  | code => code

mutual

def rename : Code → Code
  | .ref id => .ref id
  | .name site span id => .name site span id
  | .member span value field => .member span value.rename field
  | .index span value key => .index span value.rename key.rename
  | .constant span c => .constant span c
  | .foreign span kind => .foreign span kind
  | .call callee arguments => .call (callee.rename.renameCallee r) (renameList arguments)
  | .dict entries => .dict (renameEntries entries)
  | .list items => .list (renameList items)
  | .conditional test body alternative =>
    .conditional test.rename body.rename alternative.rename
  | .and left right => .and left.rename right.rename
  | .or left right => .or left.rename right.rename
  | .lambda place parameters body => .lambda place parameters body.rename

def renameList : List Code → List Code
  | [] => []
  | code :: rest => code.rename :: renameList rest

def renameEntries : List (String × Code) → List (String × Code)
  | [] => []
  | (key, code) :: rest => (key, code.rename) :: renameEntries rest

end

theorem renameList_eq_map (codes : List Code) : renameList r codes = codes.map (rename r) := by
  induction codes with
  | nil => rfl
  | cons code rest ih => rw [renameList, ih, List.map_cons]

theorem renameEntries_eq_map (entries : List (String × Code)) :
    renameEntries r entries = entries.map fun e => (e.1, e.2.rename r) := by
  induction entries with
  | nil => rfl
  | cons e rest ih => rw [renameEntries, ih, List.map_cons]

mutual

/-- To give the primitives the names they have changes nothing. -/
theorem rename_self {r : Renaming} (h : ∀ field, r.primitive field = field) :
    ∀ code : Code, code.rename r = code
  | .ref _ | .name .. | .constant .. | .foreign .. => rfl
  | .member _ value _ => by rw [rename, rename_self h value]
  | .index _ value key => by rw [rename, rename_self h value, rename_self h key]
  | .call callee arguments => by
    rw [rename, rename_self h callee, renameList_self h arguments]
    unfold renameCallee
    split
    · rw [h, ite_self]
    · rfl
  | .dict entries => by rw [rename, renameEntries_self h entries]
  | .list items => by rw [rename, renameList_self h items]
  | .conditional test body alternative => by
    rw [rename, rename_self h test, rename_self h body, rename_self h alternative]
  | .and left right => by rw [rename, rename_self h left, rename_self h right]
  | .or left right => by rw [rename, rename_self h left, rename_self h right]
  | .lambda _ _ body => by rw [rename, rename_self h body]

theorem renameList_self {r : Renaming} (h : ∀ field, r.primitive field = field) :
    ∀ codes : List Code, renameList r codes = codes
  | [] => rfl
  | code :: rest => by rw [renameList, rename_self h code, renameList_self h rest]

theorem renameEntries_self {r : Renaming} (h : ∀ field, r.primitive field = field) :
    ∀ entries : List (String × Code), renameEntries r entries = entries
  | [] => rfl
  | (_, code) :: rest => by rw [renameEntries, rename_self h code, renameEntries_self h rest]

end

/-! ### What a renaming leaves as it is -/

@[simp]
theorem text?_rename (code : Code) : (code.rename r).text? = code.text? := by
  cases code <;> rfl

theorem root_rename : ∀ code : Code, (code.rename r).root = code.root.rename r
  | .member _ value _ => root_rename value
  | .index _ value _ => root_rename value
  | .ref _ | .name .. | .constant .. | .foreign .. | .call .. | .dict _ | .list _ | .conditional ..
  | .and .. | .or .. | .lambda .. => rfl

@[simp]
theorem isNamed_rename (code : Code) (id : String) :
    (code.rename r).isNamed id = code.isNamed id := by
  cases code <;> rfl

@[simp]
theorem isMethodOf_rename (code : Code) (inst : String) :
    (code.rename r).isMethodOf inst = code.isMethodOf inst := by
  cases code with
  | member span value field => cases value <;> rfl
  | _ => rfl

theorem names_renameCallee (code : Code) : (code.renameCallee r).names = code.names := by
  unfold renameCallee
  split <;> rfl

mutual

theorem names_rename : ∀ code : Code, (code.rename r).names = code.names
  | .ref _ | .name .. | .constant .. | .foreign .. => rfl
  | .member _ value _ => names_rename value
  | .index _ value key => by rw [rename, names, names_rename value, names_rename key, names]
  | .call callee arguments => by
    rw [rename, names, names_renameCallee, names_rename callee, listNames_rename arguments, names]
  | .dict entries => entryNames_rename entries
  | .list items => listNames_rename items
  | .conditional test body alternative => by
    rw [rename, names, names_rename test, names_rename body, names_rename alternative, names]
  | .and left right => by rw [rename, names, names_rename left, names_rename right, names]
  | .or left right => by rw [rename, names, names_rename left, names_rename right, names]
  | .lambda _ _ body => names_rename body

theorem listNames_rename : ∀ codes : List Code, listNames (renameList r codes) = listNames codes
  | [] => rfl
  | code :: rest => by
    rw [renameList, listNames, names_rename code, listNames_rename rest, listNames]

theorem entryNames_rename : ∀ entries : List (String × Code),
    entryNames (renameEntries r entries) = entryNames entries
  | [] => rfl
  | (_, code) :: rest => by
    rw [renameEntries, entryNames, names_rename code, entryNames_rename rest, entryNames]

end

end Code

/-! ## Renaming what holds code -/

mutual

def Function.rename : Function → Function
  | ⟨name, place, parameters, declarations, result⟩ =>
    ⟨name, place, parameters, renameStatements declarations, result.rename r⟩

def Declaration.rename : Declaration → Declaration
  | .assign name value => .assign name (value.rename r)
  | .define f => .define f.rename

def renameStatements : List Declaration → List Declaration
  | [] => []
  | d :: rest => d.rename :: renameStatements rest

end

mutual

theorem Function.rename_self {r : Renaming} (h : ∀ field, r.primitive field = field) :
    ∀ f : Function, f.rename r = f
  | ⟨_, _, _, declarations, result⟩ => by
    rw [Function.rename, renameStatements_self h declarations, Code.rename_self h result]

theorem Declaration.rename_self {r : Renaming} (h : ∀ field, r.primitive field = field) :
    ∀ d : Declaration, d.rename r = d
  | .assign _ value => by rw [Declaration.rename, Code.rename_self h value]
  | .define f => by rw [Declaration.rename, Function.rename_self h f]

theorem renameStatements_self {r : Renaming} (h : ∀ field, r.primitive field = field) :
    ∀ ds : List Declaration, renameStatements r ds = ds
  | [] => rfl
  | d :: rest => by rw [renameStatements, Declaration.rename_self h d, renameStatements_self h rest]

end

mutual

theorem Function.rename_eq_mapCode : ∀ f : Function, f.rename r = f.mapCode (Code.rename r)
  | ⟨_, _, _, declarations, _⟩ => by
    rw [Function.rename, renameStatements_eq_mapStatements declarations, Function.mapCode]

theorem Declaration.rename_eq_mapCode : ∀ d : Declaration, d.rename r = d.mapCode (Code.rename r)
  | .assign .. => rfl
  | .define f => by rw [Declaration.rename, Function.rename_eq_mapCode f, Declaration.mapCode]

theorem renameStatements_eq_mapStatements : ∀ ds : List Declaration,
    renameStatements r ds = mapStatements (Code.rename r) ds
  | [] => rfl
  | d :: rest => by
    rw [renameStatements, Declaration.rename_eq_mapCode d, renameStatements_eq_mapStatements rest,
      mapStatements]

end

def Module.rename (m : Module) : Module :=
  { m with function := m.function.rename r }

/-- To rename in what holds code is to rename in its code. -/
theorem Module.rename_eq_mapCode (m : Module) : m.rename r = m.mapCode (Code.rename r) := by
  rw [rename, Function.rename_eq_mapCode, mapCode]

/-! ## Expressions -/

theorem Expr.rename_qualify (inst : String) (site : Site) (bound : String → Bool) :
    ∀ e : Expr, (e.qualify inst site bound).rename r = e.qualify inst site bound
  | .name _ id => by
    unfold qualify
    split <;> rfl
  | .member _ value _ => by rw [qualify, Code.rename, rename_qualify inst site bound value]
  | .index _ value key => by
    rw [qualify, Code.rename, rename_qualify inst site bound value,
      rename_qualify inst site bound key]
  | .constant .. | .foreign .. => rfl

/-- The expressions of a template are no calls, so they stay. -/
def Renaming.recoding : Recoding where
  code := Code.rename r
  expr := id
  ref _ := rfl
  constant _ := rfl
  index _ _ := rfl
  dict entries := by rw [Code.rename, Code.renameEntries_eq_map]
  list items := by rw [Code.rename, Code.renameList_eq_map]
  conditional _ _ _ := rfl
  and _ _ := rfl
  or _ _ := rfl
  lambda _ _ _ := rfl
  call id arguments := by
    rw [Code.rename, Code.renameList_eq_map]
    rfl
  text? := Code.text?_rename r
  names := Code.names_rename r
  isMethodOf := Code.isMethodOf_rename r
  isNamed c name := by rw [Code.root_rename, Code.isNamed_rename]
  qualify inst site bound e := (Expr.rename_qualify r inst site bound e).symm
  freeNames _ _ := rfl
  check _ _ := rfl
  display _ := rfl
  chain _ _ := rfl

end TemplateCompiler
