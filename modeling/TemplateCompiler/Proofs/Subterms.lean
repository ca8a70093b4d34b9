import TemplateCompiler.Proofs.Reaches
import TemplateCompiler.Proofs.Shapes

/-!
# Code inside of code

All the code that stands in a piece of code, in functions as elsewhere, and all that stands in a
function: in its result, in what its statements assign, and in the functions that it declares.
-/

namespace TemplateCompiler

namespace Code

mutual

/-- A piece of code and the code inside of it. -/
def subterms : Code → List Code
  | .ref id => [.ref id]
  | .name site span id => [.name site span id]
  | .member span value field => .member span value field :: value.subterms
  | .index span value key => .index span value key :: (value.subterms ++ key.subterms)
  | .constant span c => [.constant span c]
  | .foreign span kind => [.foreign span kind]
  | .call callee arguments =>
    .call callee arguments :: (callee.subterms ++ listSubterms arguments)
  | .dict entries => .dict entries :: entrySubterms entries
  | .list items => .list items :: listSubterms items
  | .conditional test body alternative =>
    .conditional test body alternative ::
      (test.subterms ++ (body.subterms ++ alternative.subterms))
  | .and left right => .and left right :: (left.subterms ++ right.subterms)
  | .or left right => .or left right :: (left.subterms ++ right.subterms)
  | .lambda place parameters body => .lambda place parameters body :: body.subterms

def listSubterms : List Code → List Code
  | [] => []
  | code :: rest => code.subterms ++ listSubterms rest

def entrySubterms : List (String × Code) → List Code
  | [] => []
  | (_, code) :: rest => code.subterms ++ entrySubterms rest

end

theorem listSubterms_eq (codes : List Code) : listSubterms codes = codes.flatMap subterms := by
  induction codes with
  | nil => rfl
  | cons code rest ih => rw [listSubterms, ih, List.flatMap_cons]

theorem entrySubterms_eq (entries : List (String × Code)) :
    entrySubterms entries = entries.flatMap fun e => e.2.subterms := by
  induction entries with
  | nil => rfl
  | cons e rest ih => rw [entrySubterms, ih, List.flatMap_cons]

/-- The pieces of code that a piece of code is put together from. -/
def parts : Code → List Code
  | .lambda _ _ body => [body]
  | code => code.operands

theorem subterms_eq (code : Code) : code.subterms = code :: code.parts.flatMap subterms := by
  cases code <;>
    simp [subterms, parts, operands, listSubterms_eq, entrySubterms_eq, List.flatMap_map]

theorem mem_subterms_self (code : Code) : code ∈ code.subterms := by
  rw [subterms_eq]
  exact List.mem_cons_self

theorem mem_subterms_of_mem_parts {code part c : Code} (h : part ∈ code.parts)
    (hc : c ∈ part.subterms) : c ∈ code.subterms := by
  rw [subterms_eq]
  exact List.mem_cons_of_mem _ (List.mem_flatMap.2 ⟨part, h, hc⟩)

theorem sizeOf_lt_of_mem_parts {code part : Code} (h : part ∈ code.parts) :
    sizeOf part < sizeOf code := by
  cases code with
  | ref | name | constant | foreign => simp [parts, operands] at h
  | member =>
    obtain rfl : part = _ := by simpa [parts, operands] using h
    rw [member.sizeOf_spec]
    omega
  | lambda =>
    obtain rfl : part = _ := by simpa [parts, operands] using h
    rw [lambda.sizeOf_spec]
    omega
  | index =>
    rw [index.sizeOf_spec]
    obtain rfl | rfl : part = _ ∨ part = _ := by simpa [parts, operands] using h
    all_goals omega
  | and =>
    rw [and.sizeOf_spec]
    obtain rfl | rfl : part = _ ∨ part = _ := by simpa [parts, operands] using h
    all_goals omega
  | or =>
    rw [or.sizeOf_spec]
    obtain rfl | rfl : part = _ ∨ part = _ := by simpa [parts, operands] using h
    all_goals omega
  | conditional =>
    rw [conditional.sizeOf_spec]
    obtain rfl | rfl | rfl : part = _ ∨ part = _ ∨ part = _ := by
      simpa [parts, operands] using h
    all_goals omega
  | call =>
    rw [call.sizeOf_spec]
    rcases List.mem_cons.1 h with rfl | harg
    · omega
    · have hlt := List.sizeOf_lt_of_mem harg
      omega
  | list items =>
    have hitem : part ∈ items := h
    have hlt := List.sizeOf_lt_of_mem hitem
    rw [list.sizeOf_spec]
    omega
  | dict entries =>
    obtain ⟨⟨key, value⟩, he, rfl⟩ := List.mem_map.1 h
    have hlt := List.sizeOf_lt_of_mem he
    rw [Prod.mk.sizeOf_spec] at hlt
    rw [dict.sizeOf_spec]
    dsimp only
    omega

theorem subterms_subset {code c : Code} (h : c ∈ code.subterms) :
    c.subterms ⊆ code.subterms := by
  have hcases := h
  rw [subterms_eq] at hcases
  rcases List.mem_cons.1 hcases with rfl | hinner
  · exact List.Subset.refl _
  · obtain ⟨part, hpart, hc⟩ := List.mem_flatMap.1 hinner
    exact fun d hd => mem_subterms_of_mem_parts hpart (subterms_subset hc hd)
termination_by sizeOf code
decreasing_by
  exact sizeOf_lt_of_mem_parts hpart

theorem mem_subterms_of_mem_arguments {callee argument c : Code} {arguments : List Code}
    (h : argument ∈ arguments) (hc : c ∈ argument.subterms) :
    c ∈ (Code.call callee arguments).subterms :=
  mem_subterms_of_mem_parts (List.mem_cons_of_mem _ h) hc

theorem mem_subterms_of_mem_entries {entries : List (String × Code)} {e : String × Code} {c : Code}
    (h : e ∈ entries) (hc : c ∈ e.2.subterms) : c ∈ (Code.dict entries).subterms :=
  mem_subterms_of_mem_parts (List.mem_map_of_mem h) hc

/-- An iteration that calls a function for each item of something. -/
def IteratesWith (code : Code) (config : Config) (function : Code) : Prop :=
  ∃ iterable, code = config.callPrimitive config.primitives.iterator [iterable, function]

end Code

/-! ## Functions -/

/-- The code of a statement: what it assigns, or what the function it declares gives. -/
def Declaration.code : Declaration → Code
  | .assign _ value => value
  | .define f => f.result

namespace Function

/-- All the code in a function. -/
def subterms (f : Function) : List Code :=
  f.result.subterms ++ f.inner.flatMap fun d => d.code.subterms

variable {f : Function} {code c : Code}

theorem mem_subterms_of_mem (h : code ∈ f.subterms) (hc : c ∈ code.subterms) :
    c ∈ f.subterms := by
  rcases List.mem_append.1 h with h | h
  · exact List.mem_append_left _ (Code.subterms_subset h hc)
  · obtain ⟨d, hd, h⟩ := List.mem_flatMap.1 h
    exact List.mem_append_right _ (List.mem_flatMap.2 ⟨d, hd, Code.subterms_subset h hc⟩)

theorem result_mem_subterms (f : Function) : f.result ∈ f.subterms :=
  List.mem_append_left _ f.result.mem_subterms_self

theorem code_mem_subterms {d : Declaration} (h : d ∈ f.inner) : d.code ∈ f.subterms :=
  List.mem_append_right _ (List.mem_flatMap.2 ⟨d, h, d.code.mem_subterms_self⟩)

end Function

/-! ## Items -/

section

variable {config : Config} {items : List Item} {i : Item}

theorem Item.code_mem_assemble (h : i ∈ items) :
    i.code ∈ (Item.assemble config items).subterms := by
  have hlist : i.code ∈ (Code.list (items.map Item.code)).subterms :=
    Code.mem_subterms_of_mem_parts (List.mem_map_of_mem h) i.code.mem_subterms_self
  have hflattened : i.code ∈ (config.callPrimitive config.primitives.flatten
      [Code.list (items.map Item.code)]).subterms :=
    Code.mem_subterms_of_mem_arguments List.mem_cons_self hlist
  obtain ⟨item, rfl, heq⟩ | heq | heq := Item.assemble_cases config items
  · rw [heq, List.mem_singleton.1 h]
    exact Code.mem_subterms_self _
  · exact heq ▸ hlist
  · exact heq ▸ hflattened

theorem Item.code_mem_slots (h : i ∈ items) :
    i.code ∈ (Code.dict (Item.slots config items)).subterms := by
  have hslot : i.slotName config ∈ (items.map (Item.slotName config)).eraseDups :=
    List.mem_eraseDups.2 (List.mem_map_of_mem h)
  refine Code.mem_subterms_of_mem_entries (List.mem_map_of_mem hslot) ?_
  exact Item.code_mem_assemble (List.mem_filter.2 ⟨h, by simp⟩)

theorem Item.code_mem_iteratedBody (h : i ∈ items) :
    i.code ∈ (CompileM.iteratedBody config items).1.subterms := by
  unfold CompileM.iteratedBody
  split
  · rw [List.mem_singleton.1 h]
    exact Code.mem_subterms_self _
  · exact Item.code_mem_assemble h

end

end TemplateCompiler
