import Mathlib.Data.List.SplitBy
import TemplateCompiler.Proofs.Derivation

/-!
# Code written in another way

Of the code it puts together the compiler sees the names, a text, and what a chain starts from. Code
may be written in another way that leaves these as they are: a recoding. Whatever the compiler makes
of code commutes with a recoding that takes the calls of one configuration to those of another.
-/

namespace TemplateCompiler

/-! ## What holds code -/

section

variable (f : Code → Code)

mutual

def Function.mapCode : Function → Function
  | ⟨name, place, parameters, declarations, result⟩ =>
    ⟨name, place, parameters, mapStatements declarations, f result⟩

def Declaration.mapCode : Declaration → Declaration
  | .assign name value => .assign name (f value)
  | .define function => .define function.mapCode

def mapStatements : List Declaration → List Declaration
  | [] => []
  | d :: rest => d.mapCode :: mapStatements rest

end

theorem mapStatements_eq_map (ds : List Declaration) :
    mapStatements f ds = ds.map (Declaration.mapCode f) := by
  induction ds with
  | nil => rfl
  | cons d rest ih => rw [mapStatements, ih, List.map_cons]

def Module.mapCode (m : Module) : Module :=
  { m with function := m.function.mapCode f }

def Item.mapCode (i : Item) : Item :=
  { i with code := f i.code }

def Loop.mapCode (loop : Loop) : Loop :=
  { loop with iterable := f loop.iterable }

def Form.mapCode : Form → Form
  | .fixed => .fixed
  | .spliced items => .spliced (items.map (Item.mapCode f))
  | .guarded condition => .guarded (f condition)
  | .repeated loop declarations condition =>
    .repeated (loop.mapCode f) (declarations.map (Declaration.mapCode f)) (condition.map f)

def Sibling.mapCode (s : Sibling) : Sibling :=
  { s with item := s.item.mapCode f, form := s.form.mapCode f }

def Entry.mapCode (e : Entry Code) : Entry Code :=
  { e with value := f e.value }

def Part.mapCode : Part → Part
  | .condition code => .condition (f code)
  | .alternative => .alternative
  | .component code => .component (f code)
  | .entry e => .entry (e.mapCode f)

namespace Entry

theorem inGroup_mapCode (entries : List (Entry Code)) (group : Option Group) :
    inGroup (entries.map (mapCode f)) group =
      (inGroup entries group).map fun e => (e.1, f e.2) := by
  simp only [inGroup, List.filter_map, List.map_map]
  rfl

theorem groups_mapCode (entries : List (Entry Code)) :
    groups (entries.map (mapCode f)) = groups entries := by
  simp only [groups, List.filterMap_map]
  rfl

end Entry

namespace Part

theorem condition?_mapCode (parts : List Part) :
    condition? (parts.map (mapCode f)) = (condition? parts).map f := by
  rw [condition?, List.findSome?_map, condition?, List.map_findSome?]
  congr 1
  funext part
  cases part <;> rfl

theorem component?_mapCode (parts : List Part) :
    component? (parts.map (mapCode f)) = (component? parts).map f := by
  rw [component?, List.findSome?_map, component?, List.map_findSome?]
  congr 1
  funext part
  cases part <;> rfl

theorem isAlternative_mapCode (parts : List Part) :
    isAlternative (parts.map (mapCode f)) = isAlternative parts := by
  unfold isAlternative
  rw [List.any_map]
  refine List.any_congr rfl fun part => ?_
  cases part <;> rfl

theorem entries_mapCode (parts : List Part) :
    entries (parts.map (mapCode f)) = (entries parts).map (Entry.mapCode f) := by
  rw [entries, List.filterMap_map, entries, List.map_filterMap]
  congr 1
  funext part
  cases part <;> rfl

end Part

namespace Sibling

theorem continues_mapCode (s next : Sibling) :
    (s.mapCode f).continues (next.mapCode f) = s.continues next := by
  obtain ⟨item, pos, isAlternative, form⟩ := s
  cases form with
  | repeated loop declarations condition => cases condition <;> rfl
  | fixed | spliced | guarded => rfl

theorem chains_mapCode (siblings : List Sibling) :
    chains (siblings.map (mapCode f)) = (chains siblings).map (List.map (mapCode f)) := by
  obtain ⟨hflatten, hnil, hchain, hbetween⟩ :=
    List.splitBy_eq_iff.1 (rfl : siblings.splitBy continues = chains siblings)
  rw [chains, List.splitBy_eq_iff]
  refine ⟨by rw [← List.map_flatten, chains, ← hflatten], ?_, ?_, ?_⟩
  · intro hmem
    obtain ⟨chain, hc, hempty⟩ := List.mem_map.1 hmem
    rw [List.map_eq_nil_iff] at hempty
    exact hnil (hempty ▸ hc)
  · intro mapped hmem
    obtain ⟨chain, hc, rfl⟩ := List.mem_map.1 hmem
    rw [List.isChain_map]
    exact (hchain chain hc).imp fun s next h => by rwa [continues_mapCode]
  · rw [List.isChain_map]
    refine hbetween.imp fun left right h => ?_
    obtain ⟨hleft, hright, h⟩ := h
    refine ⟨by simpa using hleft, by simpa using hright, ?_⟩
    rwa [List.getLast_map, List.head_map, continues_mapCode]

end Sibling

end

/-! ## Recodings -/

/-- Another way to write code and the expressions that it is made from, in which the compiler sees
the same. -/
structure Recoding where
  code : Code → Code
  expr : Expr → Expr
  ref : ∀ id, code (.ref id) = .ref id
  constant : ∀ c, code (.constant none c) = .constant none c
  index : ∀ value key, code (.index none value key) = .index none (code value) (code key)
  dict : ∀ entries, code (.dict entries) = .dict (entries.map fun e => (e.1, code e.2))
  list : ∀ items, code (.list items) = .list (items.map code)
  conditional : ∀ test body alternative, code (.conditional test body alternative) =
    .conditional (code test) (code body) (code alternative)
  and : ∀ left right, code (.and left right) = .and (code left) (code right)
  or : ∀ left right, code (.or left right) = .or (code left) (code right)
  lambda : ∀ place parameters body, code (.lambda place parameters body) =
    .lambda place parameters (code body)
  call : ∀ id arguments, code (.call (.ref id) arguments) = .call (.ref id) (arguments.map code)
  text? : ∀ c, (code c).text? = c.text?
  names : ∀ c, (code c).names = c.names
  isMethodOf : ∀ c inst, (code c).isMethodOf inst = c.isMethodOf inst
  isNamed : ∀ c id, (code c).root.isNamed id = c.root.isNamed id
  qualify : ∀ inst site bound e, (expr e).qualify inst site bound = code (e.qualify inst site bound)
  freeNames : ∀ bound e, (expr e).freeNames bound = e.freeNames bound
  check : ∀ place e, (expr e).check place = e.check place
  display : ∀ e, displayExpression (some (expr e)) = displayExpression (some e)
  chain : ∀ first rest, expr (Binding.chain first rest) = Binding.chain first rest

namespace Recoding

variable (R : Recoding)

/-- A primitive of one configuration is called like that of another. -/
def Carries (config config' : Config) (name name' : String) : Prop :=
  ∀ arguments, R.code (config.callPrimitive name arguments) =
    config'.callPrimitive name' (arguments.map R.code)

/-- The members of a parameter are called as before. -/
def Keeps (parameter : String) : Prop :=
  ∀ field arguments, R.code (.call (.refMember parameter field) arguments) =
    .call (.refMember parameter field) (arguments.map R.code)

/-- A recoding that takes the calls of one configuration to those of another, which differ in the
names of the primitives at most. -/
structure Between (config config' : Config) : Prop where
  same : config' = { config with primitives := config'.primitives }
  slots : R.Keeps config.slotsetParam
  memo : R.Keeps config.contextParam
  element : R.Carries config config' config.primitives.element config'.primitives.element
  customElement :
    R.Carries config config' config.primitives.customElement config'.primitives.customElement
  virtualElement :
    R.Carries config config' config.primitives.virtualElement config'.primitives.virtualElement
  text : R.Carries config config' config.primitives.text config'.primitives.text
  iterator : R.Carries config config' config.primitives.iterator config'.primitives.iterator
  flatten : R.Carries config config' config.primitives.flatten config'.primitives.flatten
  empty : R.Carries config config' config.primitives.empty config'.primitives.empty

theorem code_text (s : String) : R.code (.text s) = .text s :=
  R.constant (.text s)

variable {R} {config config' : Config}

theorem Between.reserved (h : R.Between config config') : config'.reserved = config.reserved := by
  rw [h.same]
  rfl

end Recoding

/-! ## Generated code -/

variable (R : Recoding)

namespace Entry

theorem topValue_code (key : String) (value : Code) :
    topValue key (R.code value) = R.code (topValue key value) := by
  unfold topValue
  rw [R.text?]
  split
  · split
    · rw [R.dict, List.map_map]
      exact congrArg Code.dict (List.map_congr_left fun e _ => by simp [R.code_text])
    · rfl
  · rfl

theorem ofProperty_code (isComponent : Bool) (p : Property) (value : Code) :
    ofProperty isComponent p (R.code value) = (ofProperty isComponent p value).mapCode R.code := by
  unfold ofProperty
  split
  · simp only [mapCode, topValue_code]
  · rfl

theorem attributes_mapCode (entries : List (Entry Code)) :
    attributes .dict (entries.map (mapCode R.code)) =
      (attributes .dict entries).map fun e => (e.1, R.code e.2) := by
  simp only [attributes, groups_mapCode, inGroup_mapCode, List.map_append, List.map_map,
    Function.comp_def, R.dict]

end Entry

variable {R} {config config' : Config} (h : R.Between config config')
include h

namespace Item

theorem assemble_mapCode (items : List Item) :
    assemble config' (items.map (mapCode R.code)) = R.code (assemble config items) := by
  have hlist : Code.list ((items.map (mapCode R.code)).map code) =
      R.code (Code.list (items.map code)) := by
    rw [R.list, List.map_map, List.map_map]
    rfl
  have hflattened : config'.callPrimitive config'.primitives.flatten
      [Code.list ((items.map (mapCode R.code)).map code)] =
      R.code (config.callPrimitive config.primitives.flatten [.list (items.map code)]) := by
    rw [h.flatten, hlist]
    rfl
  have hflattens : ((items.map (mapCode R.code)).any fun i => i.nested && !i.iteration) =
      items.any fun i => i.nested && !i.iteration := by
    rw [List.any_map]
    rfl
  have hiterates : (items.map (mapCode R.code)).any iteration = items.any iteration := by
    rw [List.any_map]
    rfl
  unfold assemble
  dsimp only
  rw [hflattens, hiterates, hflattened, hlist]
  rcases items with _ | ⟨item, _ | ⟨second, rest⟩⟩
  · simp only [List.map_nil]
    split <;> rfl
  · simp only [List.map_cons, List.map_nil]
    split
    · rfl
    · split <;> rfl
  · simp only [List.map_cons]
    split <;> rfl

theorem slotName_mapCode (i : Item) :
    slotName config' (i.mapCode R.code) = slotName config i := by
  rw [h.same]
  rfl

theorem slots_mapCode (items : List Item) :
    slots config' (items.map (mapCode R.code)) =
      (slots config items).map fun e => (e.1, R.code e.2) := by
  have hnames : (items.map (mapCode R.code)).map (slotName config') =
      items.map (slotName config) := by
    rw [List.map_map]
    exact List.map_congr_left fun i _ => slotName_mapCode h i
  simp only [slots, hnames, List.map_map]
  refine List.map_congr_left fun slot _ => ?_
  rw [List.filter_map, assemble_mapCode h]
  simp only [Function.comp_def, slotName_mapCode h]

end Item

theorem Sibling.choose_code (condition body : Code) (alternative : Option Item) :
    choose config' (R.code condition) (R.code body) (alternative.map (Item.mapCode R.code)) =
      R.code (choose config condition body alternative) := by
  have hempty : config'.callPrimitive config'.primitives.empty [] =
      R.code (config.callPrimitive config.primitives.empty []) := by
    rw [h.empty]
    rfl
  rcases alternative with _ | i
  · simp only [choose, R.conditional, Option.map_none, Option.getD_none, hempty]
  · exact (R.conditional condition body i.code).symm

namespace CompileM

theorem iteratedBody_mapCode (items : List Item) :
    iteratedBody config' (items.map (Item.mapCode R.code)) =
      (R.code (iteratedBody config items).1, (iteratedBody config items).2) := by
  have hassemble := Item.assemble_mapCode h items
  unfold iteratedBody
  rcases items with _ | ⟨item, _ | ⟨second, rest⟩⟩
  · rw [← hassemble]
    rfl
  · rfl
  · rw [← hassemble]
    rfl

theorem outletCode_mapCode (slot : Option String) (items : List Item) :
    outletCode config' slot (items.map (Item.mapCode R.code)) =
      R.code (outletCode config slot items) := by
  rw [outletCode, Item.assemble_mapCode h, outletCode, R.or, h.slots, List.map_cons, List.map_nil,
    R.code_text, h.same]

theorem iterationCall_code (loop : Loop) (function : Code) (flatten : Bool) :
    iterationCall config' (loop.mapCode R.code) (R.code function) flatten =
      R.code (iterationCall config loop function flatten) := by
  have hcall : config'.callPrimitive config'.primitives.iterator
      [(loop.mapCode R.code).iterable, R.code function] =
      R.code (config.callPrimitive config.primitives.iterator [loop.iterable, function]) := by
    rw [h.iterator]
    rfl
  simp only [iterationCall, hcall]
  split
  · rw [h.flatten]
    rfl
  · rfl

end CompileM

end TemplateCompiler
