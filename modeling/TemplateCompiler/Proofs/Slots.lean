import TemplateCompiler.Proofs.Interpreter

/-!
# The slots that content names

What is passed to a component stands among its children, in templates among them, or in elses. It
names a slot itself, or else one is named by the nearest template around it or by the if that it is
an else of. An iterated template and an if make one item of all that they come to, and an item is
sorted into one slot. So what is named inside of them is dropped (`Passed.taken_eq_named_iff`).
-/

namespace TemplateCompiler

/-! ## Enclosures -/

/-- What is between content and the component around it, with the slot that it names: a template, a
template that repeats, or an if that the content is in an else of. -/
inductive Enclosure where
  | template (slot : Option String)
  | iteration (slot : Option String)
  | choice (slot : Option String)

namespace Enclosure

def slot : Enclosure → Option String
  | template slot | iteration slot | choice slot => slot

/-- Whether one item is made of all that is in it. -/
def joins : Enclosure → Bool
  | template _ => false
  | iteration _ | choice _ => true

/-- The slot that is named within some enclosures, innermost first, where one is named inside. -/
def named (slot : Option String) (enclosures : List Enclosure) : Option String :=
  enclosures.foldl (fun slot e => slot.or e.slot) slot

/-- The slot that is left within some enclosures. -/
def taken (slot : Option String) (enclosures : List Enclosure) : Option String :=
  enclosures.foldl (fun slot e => if e.joins then e.slot else slot.or e.slot) slot

variable {slot : Option String} {enclosures : List Enclosure}

theorem named_concat (e : Enclosure) :
    named slot (enclosures ++ [e]) = (named slot enclosures).or e.slot := by
  simp [named]

theorem taken_concat (e : Enclosure) : taken slot (enclosures ++ [e]) =
    if e.joins then e.slot else (taken slot enclosures).or e.slot := by
  simp [taken]

/-- What is named further inside counts. -/
theorem named_append {name : String} (h : named slot enclosures = some name)
    (outer : List Enclosure) : named slot (enclosures ++ outer) = some name := by
  induction outer using List.reverseRecOn with
  | nil => rwa [List.append_nil]
  | append_singleton outer e ih => rw [← List.append_assoc, named_concat, ih, Option.some_or]

/-- The slot that is named is left, unless it is named inside of what makes one item. -/
theorem taken_eq_named_or (slot : Option String) (enclosures : List Enclosure) :
    taken slot enclosures = named slot enclosures ∨
      ∃ inner e outer name, enclosures = inner ++ e :: outer ∧ e.joins ∧
        named slot inner = some name := by
  induction enclosures using List.reverseRecOn with
  | nil => exact .inl rfl
  | append_singleton enclosures e ih =>
    rw [taken_concat, named_concat]
    by_cases hjoins : e.joins
    · rw [if_pos hjoins]
      cases hname : named slot enclosures with
      | none => exact .inl Option.none_or.symm
      | some name => exact .inr ⟨enclosures, e, [], name, rfl, hjoins, hname⟩
    · rw [if_neg hjoins]
      rcases ih with ih | ⟨inner, e', outer, name, rfl, hjoins', hname⟩
      · exact .inl (by rw [ih])
      · exact .inr ⟨inner, e', outer ++ [e], name, by simp, hjoins', hname⟩

end Enclosure

/-! ## Content -/

/-- Content that is passed to a component: a text, a placeholder or an element that is no template,
with its place, the slot that it names, and its enclosures, innermost first. The place of what is no
element is that of the element around it. -/
structure Passed where
  node : Node
  place : Place
  slot : Option String := none
  enclosures : List Enclosure := []

namespace Passed

def within (p : Passed) (enclosures : List Enclosure) : Passed :=
  { p with enclosures := p.enclosures ++ enclosures }

/-- The slot that content names, or else that is named for it. -/
def named (config : Config) (p : Passed) : String :=
  (Enclosure.named p.slot p.enclosures).getD config.defaultSlotName

/-- The slot that is left of what is named. -/
def slot? (p : Passed) : Option String :=
  Enclosure.taken p.slot p.enclosures

def taken (config : Config) (p : Passed) : String :=
  p.slot?.getD config.defaultSlotName

/-- Whatever is named inside of an iterated template or an else is named outside of it as well. -/
def Kept (config : Config) (p : Passed) : Prop :=
  ∀ inner e outer, p.enclosures = inner ++ e :: outer → e.joins →
    ∀ name ∈ Enclosure.named p.slot inner, name = p.taken config

theorem taken_eq_named_iff (config : Config) (p : Passed) :
    p.taken config = p.named config ↔ p.Kept config := by
  constructor
  · intro h inner e outer hsplit _ name hname
    rw [h, named, hsplit, Enclosure.named_append hname, Option.getD_some]
  · intro h
    rcases Enclosure.taken_eq_named_or p.slot p.enclosures with heq | ⟨inner, e, outer, name, hrest⟩
    · rw [taken, slot?, heq, named]
    · obtain ⟨hsplit, hjoins, hname⟩ := hrest
      rw [← h inner e outer hsplit hjoins name hname, named, hsplit,
        Enclosure.named_append hname, Option.getD_some]

@[simp]
theorem within_nil (p : Passed) : p.within [] = p := by
  simp [within]

theorem slot?_template (p : Passed) (slot : Option String) :
    (p.within [.template slot]).slot? = p.slot?.or slot :=
  Enclosure.taken_concat (.template slot)

theorem slot?_iteration (p : Passed) (slot : Option String) :
    (p.within [.iteration slot]).slot? = slot :=
  Enclosure.taken_concat (.iteration slot)

/-- An else goes where the first if of its row goes. -/
theorem slot?_choices (p : Passed) {ifs : List (Option String)} {slot : Option String}
    (h : ifs.getLast? = some slot) : (p.within (ifs.map .choice)).slot? = slot := by
  obtain ⟨nearer, rfl⟩ := List.getLast?_eq_some_iff.1 h
  rw [List.map_append, slot?, within, ← List.append_assoc]
  exact Enclosure.taken_concat (.choice slot)

end Passed

/-! ## Rows -/

/-- What a member of a row offers to the component around the row. -/
structure Offer where
  isElse : Bool
  slot : Option String
  passed : List Passed

/-- What a row passes on, behind some ifs, the nearest first. -/
def Offer.row (ifs : List (Option String)) : List Offer → List Passed
  | [] => []
  | o :: rest =>
    (o.passed.map fun p => p.within (if o.isElse then ifs.map .choice else [])) ++
      row (o.slot :: if o.isElse then ifs else []) rest

namespace Offer

theorem exists_row_append (ifs : List (Option String)) (os os' : List Offer) :
    ∃ ifs', row ifs (os ++ os') = row ifs os ++ row ifs' os' := by
  induction os generalizing ifs with
  | nil => exact ⟨ifs, rfl⟩
  | cons o os ih =>
    obtain ⟨ifs', h⟩ := ih (o.slot :: if o.isElse then ifs else [])
    exact ⟨ifs', by rw [List.cons_append, row, h, row, List.append_assoc]⟩

/-- What elses in a row pass on is within all the ifs in front of it. -/
theorem exists_of_mem_row {slot : Option String} {p : Passed} :
    ∀ {os : List Offer} {ifs : List (Option String)}, (∀ o ∈ os, o.isElse) →
      ifs.getLast? = some slot → p ∈ row ifs os →
      ∃ o ∈ os, ∃ q ∈ o.passed, ∃ nearer : List (Option String), p = q.within (nearer.map .choice) ∧
        nearer.getLast? = some slot
  | [], _, _, _, hp => nomatch hp
  | o :: os, ifs, helse, hlast, hp => by
    rw [List.forall_mem_cons] at helse
    rw [row, helse.1, if_pos rfl, if_pos rfl] at hp
    rcases List.mem_append.1 hp with hp | hp
    · obtain ⟨q, hq, rfl⟩ := List.mem_map.1 hp
      exact ⟨o, List.mem_cons_self, q, hq, ifs, rfl, hlast⟩
    · have hlast' : (o.slot :: ifs).getLast? = some slot := by
        rw [List.getLast?_cons, hlast, Option.getD_some]
      obtain ⟨o', ho', hrest⟩ := exists_of_mem_row helse.2 hlast' hp
      exact ⟨o', List.mem_cons_of_mem _ ho', hrest⟩

end Offer

section

variable (config : Config)

mutual

/-- What a node offers: a template what its children pass on, and other content itself. -/
def Node.offers (around : Place) (before : Nat) : Node → List Offer
  | .text pos value =>
    if (Text.collapse value).isEmpty then []
    else [⟨false, none, [{ node := .text pos value, place := around }]⟩]
  | .placeholder _ none => []
  | .placeholder pos (some e) =>
    [⟨false, none, [{ node := .placeholder pos (some e), place := around }]⟩]
  | .fragment _ children => offersOf around before children
  | .element pos tag attributes children =>
    let node := Node.element pos tag attributes children
    let readings := node.readings config
    let kind := elementKind tag readings
    let place := around ++ [before]
    let slot := Reading.slotOf readings
    let enclosure :=
      if attributes.any Attribute.iterates then Enclosure.iteration slot else .template slot
    [{ isElse := kind != .outlet && readings.any Reading.isAlternative
       slot
       passed :=
        if kind = .template then
          (Offer.row [] (offersOf place 0 children)).map fun p => p.within [enclosure]
        else [{ node, place, slot }] }]
  | .literal .. | .attr _ | .template .. => []

def offersOf (around : Place) (before : Nat) : List Node → List Offer
  | [] => []
  | node :: rest =>
    node.offers around before ++ offersOf around (before + node.elements.length) rest

end

/-- What is passed to a component, by the place and the children of its element. -/
def passedTo (place : Place) (children : List Node) : List Passed :=
  Offer.row [] (offersOf config place 0 children)

end

end TemplateCompiler
