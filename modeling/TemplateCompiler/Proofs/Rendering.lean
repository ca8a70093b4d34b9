import TemplateCompiler.Proofs.Mentions

/-!
# What a module renders

A render function is called with the rendering interface, an instance, the slots and the memo. Its
values are the host's own, or built in rendering: the interface makes something of its operands,
without a look into them, and flattens lists by one level. What it means to read, to subscript, to
test and to iterate is the host's, save that the null value is not true; to read and to subscript
can fail. The memo is empty, so a lookup misses and what is put in comes back.
-/

namespace TemplateCompiler

/-- What a render function is called with, besides the instance. -/
inductive Service where
  | interface
  | slots
  | memo
deriving DecidableEq, Repr

inductive Value (α : Type) where
  | native (a : α)
  | constant (c : Constant)
  | list (items : List (Value α))
  | dict (entries : List (String × Value α))
  | component (path : String)
  | service (s : Service)
  | method (s : Service) (name : String)
  | methodType
  | made (maker : String) (operands : List (Value α))

namespace Value

variable {α : Type}

/-- What flattening puts in a value's place. -/
def spliced : Value α → List (Value α)
  | .list items => items
  | v => [v]

def isList : Value α → Bool
  | .list _ => true
  | _ => false

theorem spliced_of_not_isList {v : Value α} (h : v.isList = false) : v.spliced = [v] := by
  cases v with
  | list => simp [isList] at h
  | _ => rfl

end Value

structure Host (α : Type) where
  inst : Value α
  member : Value α → String → Option (Value α)
  index : Value α → Value α → Option (Value α)
  truthy : Value α → Bool
  /-- The content passed to a slot, or whatever says that there is none. -/
  content : Value α → Value α
  iterate : List (Value α) → Option (Value α)
  function : (List (Value α) → Option (Value α)) → Value α
  /-- What an expression comes to that is more than names, chains and constants. -/
  foreign : String → Value α
  null_falsy : truthy (.constant .null) = false

/-- What names stand for, innermost first; a name of a function's own stands for nothing until it is
assigned. -/
abbrev Locals (α : Type) := List (String × Option (Value α))

variable {α : Type}

def Locals.find (ρ : Locals α) (name : String) : Option (Value α) :=
  (ρ.lookup name).join

/-- A call's arguments under their names, if there is one for each. -/
def Locals.ofCall (parameters : List String) (arguments : List (Value α)) : Option (Locals α) :=
  if parameters.length = arguments.length then some (parameters.zip (arguments.map some)) else none

namespace Host

variable (host : Host α)

def read (v : Value α) (name : String) : Option (Value α) :=
  match v with
  | .service s => some (.method s name)
  | v => host.member v name

/-- The primitives that make something of their operands. -/
def makers : List String := ["h", "c", "v", "t", "e"]

def callPrimitive (name : String) (arguments : List (Value α)) : Option (Value α) :=
  if makers.contains name then some (.made name arguments)
  else match name, arguments with
    | "f", [.list items] => some (.list (items.flatMap Value.spliced))
    | "i", arguments => host.iterate arguments
    | _, _ => none

def call (callee : Value α) (arguments : List (Value α)) : Option (Value α) :=
  match callee, arguments with
  | .method .interface name, arguments => host.callPrimitive name arguments
  | .method .slots "get", [key] => some (host.content key)
  | .method .memo "get", [_] => some (.constant .null)
  | .method .memo "setdefault", [_, v] => some v
  | .methodType, arguments => some (.made "_bind" arguments)
  | _, _ => none

variable (name : String) (key v : Value α) (arguments : List (Value α))

@[simp]
theorem read_service (s : Service) : host.read (.service s) name = some (.method s name) := rfl

@[simp]
theorem call_interface :
    host.call (.method .interface name) arguments = host.callPrimitive name arguments := rfl

@[simp]
theorem call_slots : host.call (.method .slots "get") [key] = some (host.content key) := rfl

@[simp]
theorem call_memo_get : host.call (.method .memo "get") [key] = some (.constant .null) := rfl

@[simp]
theorem call_memo_setdefault : host.call (.method .memo "setdefault") [key, v] = some v := rfl

@[simp]
theorem call_methodType :
    host.call .methodType arguments = some (.made "_bind" arguments) := rfl

end Host

/-! ## Code -/

variable (host : Host α)

namespace Code

mutual

def eval (ρ : Locals α) : Code → Option (Value α)
  | .ref id | .name _ _ id => ρ.find id
  | .member _ value id => do host.read (← value.eval ρ) id
  | .index _ value key => do host.index (← value.eval ρ) (← key.eval ρ)
  | .constant _ c => some (.constant c)
  | .foreign _ kind => some (host.foreign kind)
  | .call callee arguments => do host.call (← callee.eval ρ) (← evalList ρ arguments)
  | .dict entries => do return .dict (← evalEntries ρ entries)
  | .list items => do return .list (← evalList ρ items)
  | .conditional test body alternative => do
    if host.truthy (← test.eval ρ) then body.eval ρ else alternative.eval ρ
  | .and left right => do
    let v ← left.eval ρ
    if host.truthy v then right.eval ρ else some v
  | .or left right => do
    let v ← left.eval ρ
    if host.truthy v then some v else right.eval ρ
  | .lambda _ parameters body =>
    some (host.function fun arguments => do body.eval ((← Locals.ofCall parameters arguments) ++ ρ))

def evalList (ρ : Locals α) : List Code → Option (List (Value α))
  | [] => some []
  | code :: rest => do return (← code.eval ρ) :: (← evalList ρ rest)

def evalEntries (ρ : Locals α) : List (String × Code) → Option (List (String × Value α))
  | [] => some []
  | (key, code) :: rest => do return (key, ← code.eval ρ) :: (← evalEntries ρ rest)

end

end Code

/-! ## Statements -/

mutual

/-- A call of a function, for what names stand for around it. -/
def Function.call (around : Locals α) : Function → List (Value α) → Option (Value α)
  | ⟨_, _, parameters, ds, result⟩, arguments => do
    let own := (hoistedNames ds).map fun name => (name, none)
    let ρ ← runStatements ((← Locals.ofCall parameters arguments) ++ own ++ around) ds
    result.eval host ρ

/-- What names stand for after a statement. A function sees the names as they are where it is
declared: whatever it reads is bound before it. -/
def Declaration.run (ρ : Locals α) : Declaration → Option (Locals α)
  | .assign name value => do return (name, some (← value.eval host ρ)) :: ρ
  | .define f => some ((f.name, some (host.function (f.call ρ))) :: ρ)

def runStatements (ρ : Locals α) : List Declaration → Option (Locals α)
  | [] => some ρ
  | d :: rest => do runStatements (← d.run ρ) rest

end

/-- What the names of a module stand for in its functions. -/
def Module.globals (m : Module) : Locals α :=
  m.imports.map (fun i => (i.localName, some (.component i.path))) ++
    (m.bindHelper.map fun name => (name, some .methodType)).toList

def Module.render (m : Module) : Option (Value α) :=
  m.function.call host m.globals
    [.service .interface, host.inst, .service .slots, .service .memo]

end TemplateCompiler
