import TemplateCompiler.Proofs.Temporaries

/-!
# What is evaluated in rendering

Code is evaluated through its operands, and a body through its statements. The functions of
iterations are taken to be called with any arguments there is room for. A name that is mentioned is
found if it is bound by then: inside of a function that is called, by what it is called with or by a
statement before; else by what names stand for there.
-/

namespace TemplateCompiler

variable {α : Type} {host : Host α} {ρ ρ' : Locals α}

/-! ## Evaluation as a relation -/

namespace Code

/-- The pieces of code that are evaluated with a piece of code, where it is. -/
def operands : Code → List Code
  | .ref _ | .name .. | .constant .. | .foreign .. | .lambda .. => []
  | .member _ value _ => [value]
  | .index _ value key => [value, key]
  | .call callee arguments => callee :: arguments
  | .dict entries => entries.map Prod.snd
  | .list items => items
  | .conditional test body alternative => [test, body, alternative]
  | .and left right | .or left right => [left, right]

/-- To evaluate a piece of code is to evaluate another in it, for what names stand for then. -/
inductive Reaches : Locals α → Code → Locals α → Code → Prop where
  | here {ρ code} : Reaches ρ code ρ code
  | operand {ρ ρ' code code' operand} (mem : operand ∈ code.operands)
      (reaches : Reaches ρ operand ρ' code') : Reaches ρ code ρ' code'
  | item {ρ ρ' own place parameters body code' arguments}
      (call : Locals.ofCall parameters arguments = some own)
      (reaches : Reaches (own ++ ρ) body ρ' code') :
      Reaches ρ (.lambda place parameters body) ρ' code'

theorem All.operand {Q : Mention → Prop} {code operand : Code} (h : code.All Q)
    (hmem : operand ∈ code.operands) : operand.All Q := by
  cases code with
  | ref | name | constant | foreign | lambda => simp [operands] at hmem
  | member =>
    rw [operands, List.mem_singleton] at hmem
    exact hmem ▸ all_member.1 h
  | index =>
    rw [all_index] at h
    simp only [operands, List.mem_cons, List.not_mem_nil, or_false] at hmem
    rcases hmem with rfl | rfl
    · exact h.1
    · exact h.2
  | call =>
    rw [all_call] at h
    rcases List.mem_cons.1 hmem with rfl | hmem
    · exact h.1
    · exact h.2 operand hmem
  | dict =>
    obtain ⟨e, he, rfl⟩ := List.mem_map.1 hmem
    exact all_dict.1 h e he
  | list => exact all_list.1 h operand hmem
  | conditional =>
    rw [all_conditional] at h
    simp only [operands, List.mem_cons, List.not_mem_nil, or_false] at hmem
    rcases hmem with rfl | rfl | rfl
    · exact h.1
    · exact h.2.1
    · exact h.2.2
  | and =>
    rw [all_and] at h
    simp only [operands, List.mem_cons, List.not_mem_nil, or_false] at hmem
    rcases hmem with rfl | rfl
    · exact h.1
    · exact h.2
  | or =>
    rw [all_or] at h
    simp only [operands, List.mem_cons, List.not_mem_nil, or_false] at hmem
    rcases hmem with rfl | rfl
    · exact h.1
    · exact h.2

end Code

/-- What names stand for at the top of a function that is called. -/
def Function.entry (around : Locals α) (f : Function) (arguments : List (Value α)) :
    Option (Locals α) :=
  (Locals.ofCall f.parameters arguments).map fun own =>
    own ++ (hoistedNames f.declarations).map (·, none) ++ around

variable (host) in
mutual

inductive Function.Reaches : Locals α → Function → Locals α → Code → Prop where
  | call {around ρ ρ' f arguments code} (entry : f.entry around arguments = some ρ)
      (reaches : BodyReaches ρ f.declarations f.result ρ' code) :
      Function.Reaches around f ρ' code

/-- To run a row of statements and to evaluate a result is to evaluate a piece of code in them. -/
inductive BodyReaches : Locals α → List Declaration → Code → Locals α → Code → Prop where
  | result {ρ ρ' result code} (reaches : result.Reaches ρ ρ' code) :
      BodyReaches ρ [] result ρ' code
  | value {ρ ρ' name value rest result code} (reaches : value.Reaches ρ ρ' code) :
      BodyReaches ρ (.assign name value :: rest) result ρ' code
  | inner {ρ ρ' f rest result code} (reaches : Function.Reaches ρ f ρ' code) :
      BodyReaches ρ (.define f :: rest) result ρ' code
  | after {ρ ρ₁ ρ' d rest result code} (run : d.run host ρ = some ρ₁)
      (reaches : BodyReaches ρ₁ rest result ρ' code) : BodyReaches ρ (d :: rest) result ρ' code

end

variable (host) in
/-- To render a module is to evaluate a piece of code in it. -/
def Module.Reaches (m : Module) (ρ : Locals α) (code : Code) : Prop :=
  ∃ ρ₀, m.function.entry m.globals [.service .interface, host.inst, .service .slots,
    .service .memo] = some ρ₀ ∧
      BodyReaches host ρ₀ m.function.declarations m.function.result ρ code

theorem Function.call_eq (around : Locals α) (f : Function) (arguments : List (Value α)) :
    f.call host around arguments = (f.entry around arguments).bind fun ρ =>
      (runStatements host ρ f.declarations).bind (f.result.eval host) := by
  cases f
  rw [Function.call, Function.entry]
  rcases Locals.ofCall _ arguments with _ | own
  · rfl
  · rfl

/-! ## Calls -/

theorem Locals.ofCall_eq_some_iff {parameters : List String} {arguments : List (Value α)}
    {own : Locals α} : Locals.ofCall parameters arguments = some own ↔
      parameters.length = arguments.length ∧ own = parameters.zip (arguments.map some) := by
  unfold Locals.ofCall
  split
  · rename_i h
    simp [h, eq_comm]
  · rename_i h
    simp [h]

theorem Locals.map_fst_ofCall {parameters : List String} {arguments : List (Value α)}
    {own : Locals α} (h : Locals.ofCall parameters arguments = some own) :
    own.map Prod.fst = parameters := by
  obtain ⟨hlength, rfl⟩ := Locals.ofCall_eq_some_iff.1 h
  exact List.map_fst_zip (by simp [hlength])

/-- A parameter stands for an argument. -/
theorem Locals.isSome_find_ofCall {parameters : List String} {arguments : List (Value α)}
    {own : Locals α} (h : Locals.ofCall parameters arguments = some own) (ρ : Locals α) {x : String}
    (hx : x ∈ parameters) : (Locals.find (own ++ ρ) x).isSome := by
  rw [Locals.find, List.lookup_append]
  rcases hlookup : own.lookup x with _ | v
  · rw [← Locals.map_fst_ofCall h] at hx
    obtain ⟨e, he, rfl⟩ := List.mem_map.1 hx
    simpa using List.lookup_eq_none_iff.1 hlookup e he
  · obtain ⟨-, rfl⟩ := Locals.ofCall_eq_some_iff.1 h
    obtain ⟨before, after, heq, -⟩ := List.lookup_eq_some_iff.1 hlookup
    have hmem : (x, v) ∈ parameters.zip (arguments.map some) := by simp [heq]
    obtain ⟨a, -, rfl⟩ := List.mem_map.1 (List.of_mem_zip hmem).2
    rfl

theorem Locals.find_ofCall_append {parameters : List String} {arguments : List (Value α)}
    {own : Locals α} (h : Locals.ofCall parameters arguments = some own) (ρ : Locals α) {x : String}
    (hx : x ∉ parameters) : Locals.find (own ++ ρ) x = ρ.find x :=
  Locals.find_append (by rwa [Locals.map_fst_ofCall h]) ρ

/-- A name that a function binds stands for nothing of its own at first. -/
theorem Locals.find_hoisted_append (names : List String) (ρ : Locals α) (x : String) :
    Locals.find (names.map (·, none) ++ ρ) x = if x ∈ names then none else ρ.find x := by
  induction names with
  | nil => rfl
  | cons name rest ih =>
    rw [List.map_cons, List.cons_append]
    by_cases hx : x = name
    · rw [hx, Locals.find_cons_self, if_pos List.mem_cons_self]
    · rw [Locals.find_cons_of_ne hx, ih]
      simp [hx]

/-- What a name stands for at the top of a function: a parameter is an argument, and a name that the
function binds is nothing. -/
theorem Function.find_entry {around : Locals α} {f : Function} {arguments : List (Value α)}
    (h : f.entry around arguments = some ρ) (x : String) :
    (x ∈ f.parameters → (ρ.find x).isSome) ∧
      (x ∉ f.parameters →
        ρ.find x = if x ∈ hoistedNames f.declarations then none else around.find x) := by
  obtain ⟨own, hown, rfl⟩ := Option.map_eq_some_iff.1 h
  rw [List.append_assoc]
  constructor
  · exact Locals.isSome_find_ofCall hown _
  · intro hx
    rw [Locals.find_ofCall_append hown _ hx, Locals.find_hoisted_append]

theorem Function.exists_entry {around : Locals α} {f : Function} {arguments : List (Value α)}
    (h : f.parameters.length = arguments.length) : ∃ ρ, f.entry around arguments = some ρ := by
  rw [Function.entry, Locals.ofCall_eq_some_iff.2 ⟨h, rfl⟩]
  exact ⟨_, rfl⟩

/-- A function takes as many arguments as it has parameters. -/
theorem Function.length_of_isSome_call {around : Locals α} {f : Function}
    {arguments : List (Value α)} (h : (f.call host around arguments).isSome) :
    arguments.length = f.parameters.length := by
  rw [Function.call_eq, Function.entry] at h
  rcases hcall : Locals.ofCall f.parameters arguments with _ | own
  · simp [hcall] at h
  · exact (Locals.ofCall_eq_some_iff.1 hcall).1.symm

/-! ## Names that are found -/

/-- A mention finds its name, where names stand for something already. -/
def Mention.FoundIn (ρ : Locals α) (m : Mention) : Prop :=
  match m.holder? with
  | some layer => m.name ∈ layer.parameters ∨ m.name ∈ layer.earlier
  | none => m.name ∈ m.earlier ∨ (ρ.find m.name).isSome

namespace Mention.FoundIn

variable {m : Mention}

theorem mono (h : m.FoundIn ρ) (hρ : ∀ x, (ρ.find x).isSome → (ρ'.find x).isSome) :
    m.FoundIn ρ' := by
  unfold FoundIn at *
  rcases hholder : m.holder? with _ | layer
  · rw [hholder] at h
    exact h.imp_right (hρ m.name)
  · rwa [hholder] at h

/-- The names that are bound before a mention stand for something. -/
theorem of_after {earlier : List String} (h : (m.after earlier).FoundIn ρ)
    (hearlier : ∀ x ∈ earlier, (ρ.find x).isSome) : m.FoundIn ρ := by
  have hholder : (m.after earlier).holder? = m.holder? := rfl
  unfold FoundIn at *
  rw [hholder] at h
  rcases hm : m.holder? with _ | layer
  · rw [hm] at h
    exact .inr (Or.elim h (hearlier m.name) id)
  · rw [hm] at h
    exact h

/-- A mention in a function that is called. -/
theorem of_leave {place : Place} {parameters hoisted : List String}
    (h : (m.leave place parameters hoisted).FoundIn ρ)
    (hown : ∀ x ∈ parameters, (ρ'.find x).isSome)
    (haround : ∀ x, x ∉ parameters → x ∉ hoisted → (ρ.find x).isSome → (ρ'.find x).isSome) :
    m.FoundIn ρ' := by
  unfold FoundIn at *
  rw [holder?, within_leave, name_leave, List.find?_append] at h
  rcases hholder : m.within.find? (fun layer => layer.isLocal m.name) with _ | layer
  · rw [holder?, hholder]
    rw [hholder, Option.none_or] at h
    by_cases hlocal : Layer.isLocal ⟨⟨place, parameters⟩, m.earlier, hoisted⟩ m.name
    · rw [List.find?_cons, hlocal] at h
      exact h.symm.imp_right (hown m.name)
    · rw [List.find?_cons, Bool.eq_false_iff.2 hlocal, List.find?_nil] at h
      rw [Layer.isLocal_iff, not_or] at hlocal
      refine .inr (haround m.name hlocal.1 hlocal.2 ?_)
      exact h.resolve_left (by simp [leave])
  · rw [hholder, Option.some_or] at h
    rwa [holder?, hholder]

end Mention.FoundIn

/-- The names in a function of an iteration are found once it is called. -/
theorem Code.All.body {place : Place} {parameters : List String} {body : Code}
    {arguments : List (Value α)} {own : Locals α}
    (h : (Code.lambda place parameters body).All (Mention.FoundIn ρ))
    (hcall : Locals.ofCall parameters arguments = some own) :
    body.All (Mention.FoundIn (own ++ ρ)) := by
  intro m hm
  have hleave := Code.all_lambda.1 h m hm
  have hafter : (m.after []).FoundIn (own ++ ρ) := by
    refine hleave.of_leave (fun x hx => Locals.isSome_find_ofCall hcall ρ hx) fun x hx _ hsome => ?_
    rwa [Locals.find_ofCall_append hcall ρ hx]
  exact hafter.of_after (by simp)

/-- The names in the rest of a body are found, where some of its statements have been run. -/
structure Covers (ρ : Locals α) (earlier : List String) (ds : List Declaration) (result : Code) :
    Prop where
  bound : ∀ x ∈ earlier, (ρ.find x).isSome
  found : ∀ m ∈ statementMentions earlier ds ++
    result.mentions.map (Mention.after (earlier ++ hoistedNames ds)), m.FoundIn ρ

section

variable {earlier : List String} {d : Declaration} {ds : List Declaration} {result : Code}

theorem Covers.all_result (h : Covers ρ earlier [] result) : result.All (Mention.FoundIn ρ) := by
  intro m hm
  refine Mention.FoundIn.of_after (h.found (m.after earlier) ?_) h.bound
  refine List.mem_append_right _ (List.mem_map.2 ⟨m, hm, ?_⟩)
  simp [hoistedNames]

theorem Covers.head (h : Covers ρ earlier (d :: ds) result) : ∀ m ∈ d.mentions, m.FoundIn ρ := by
  intro m hm
  refine Mention.FoundIn.of_after (h.found (m.after earlier) ?_) h.bound
  rw [statementMentions]
  exact List.mem_append_left _ (List.mem_append_left _ (List.mem_map_of_mem hm))

theorem Covers.tail (h : Covers ρ earlier (d :: ds) result) (v : Value α) :
    Covers ((d.name, some v) :: ρ) (earlier ++ [d.name]) ds result := by
  have hmono : ∀ x, (ρ.find x).isSome → (Locals.find ((d.name, some v) :: ρ) x).isSome := by
    intro x hx
    by_cases hname : x = d.name
    · rw [hname, Locals.find_cons_self]
      rfl
    · rwa [Locals.find_cons_of_ne hname]
  constructor
  · intro x hx
    rcases List.mem_append.1 hx with hx | hx
    · exact hmono x (h.bound x hx)
    · rw [List.mem_singleton.1 hx, Locals.find_cons_self]
      rfl
  · intro m hm
    refine (h.found m ?_).mono hmono
    rw [statementMentions]
    rcases List.mem_append.1 hm with hm | hm
    · exact List.mem_append_left _ (List.mem_append_right _ hm)
    · exact List.mem_append_right _ (by simpa [hoistedNames] using hm)

end

theorem Function.covers_entry {around : Locals α} {f : Function} {arguments : List (Value α)}
    (h : ∀ m ∈ f.mentions, m.FoundIn around) (hentry : f.entry around arguments = some ρ) :
    Covers ρ [] f.declarations f.result := by
  refine ⟨by simp, fun m hm => ?_⟩
  rw [List.nil_append] at hm
  have hleave := h _ (by rw [Function.mentions_eq]; exact List.mem_map_of_mem hm)
  refine hleave.of_leave (fun x hx => (Function.find_entry hentry x).1 hx) fun x hx hx' hsome => ?_
  rwa [(Function.find_entry hentry x).2 hx, if_neg hx']

end TemplateCompiler
