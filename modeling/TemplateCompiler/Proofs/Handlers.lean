import TemplateCompiler.Proofs.Accounting

/-!
# Event handlers of the markup

A handler is what a property of a called element binds to its event. Its callback is kept in the
memo of the instance if it starts from the instance and mentions nothing that an iteration binds
where its element is (`Handler.kept?`). Such a callback reads nothing but the instance and the bind
helper, and these are bound nowhere in the markup (`Handler.isBound_of_kept`).
-/

namespace TemplateCompiler

/-- An event that an element is called to handle. -/
structure Handler where
  place : Place
  content : Content

/-- What a reading binds to an event. -/
def Reading.handled? : Reading → Option Content
  | .property p => if p.isEvent && p.directive == some .bind then some p.content else none
  | .iteration _ | .component _ | .condition _ | .alternative _ | .slot _ => none

section

variable (config : Config)

/-- The handlers of an element itself; a template and an outlet pass no attributes on. -/
def Node.ownHandlers (place : Place) : Node → List Handler
  | .element pos tag attributes children =>
    let readings := Node.readings config (.element pos tag attributes children)
    if (elementKind tag readings).chooses then
      (readings.filterMap Reading.handled?).map (Handler.mk place)
    else []
  | .text .. | .placeholder .. | .fragment .. | .literal .. | .attr _ | .template .. => []

mutual

/-- The handlers in a node that stands around a place behind some number of elements. -/
def Node.handlers (around : Place) (before : Nat) : Node → List Handler
  | .element pos tag attributes children =>
    (Node.element pos tag attributes children).ownHandlers config (around ++ [before]) ++
      handlersOf (around ++ [before]) 0 children
  | .fragment _ children => handlersOf around before children
  | .text .. | .placeholder .. | .literal .. | .attr _ | .template .. => []

def handlersOf (around : Place) (before : Nat) : List Node → List Handler
  | [] => []
  | node :: rest =>
    node.handlers around before ++ handlersOf around (before + node.elements.length) rest

end

/-- The handlers of a template, in the order of the markup. -/
def Template.handlers (t : Template) : List Handler :=
  (t.root?.map fun root =>
    root.ownHandlers config [] ++ handlersOf config [] 0 root.children).getD []

/-- The callback of a content, if it is kept: it starts from the instance and mentions nothing that
is bound. -/
def Content.kept? (site : Site) (bound : String → Bool) (content : Content) : Option Code :=
  (content.term? true).bind fun term =>
    let target := term.code config site bound
    if target.root.isNamed config.instanceParam && !target.names.any bound then
      some (boundCode config target)
    else none

/-- The callback of a handler, if it is kept. -/
def Handler.kept? (t : Template) (h : Handler) : Option Code :=
  h.content.kept? config ⟨h.place, false⟩ (t.isBound config ⟨h.place, false⟩)

end

/-! ## Names in kept callbacks -/

variable {config : Config} {t : Template} {site : Site} {bound : String → Bool}

/-- A name that the module gives itself is bound nowhere in the markup. -/
theorem Template.isBound_of_reserved {name : String} (h : name ∈ config.reserved) :
    t.isBound config site name = false := by
  unfold isBound binder?
  rw [Option.isSome_eq_false_iff, Option.isNone_iff_eq_none]
  refine List.find?_eq_none.2 fun b hb hname => ?_
  obtain ⟨p, -, rfl⟩ := List.mem_map.1 hb
  exact t.notMem_reserved (List.contains_iff_mem.1 hname) h

theorem Expr.names_qualify {inst : String} : ∀ {e : Expr} {x : String},
    x ∈ (e.qualify inst site bound).names → x = inst ∨ bound x
  | .name _ id, x, h => by
    rw [qualify] at h
    split at h
    · rename_i hid
      rw [Code.names, List.mem_singleton] at h
      exact .inr (h ▸ hid)
    · exact .inl (List.mem_singleton.1 h)
  | .member _ value _, _, h => names_qualify (e := value) h
  | .index _ value key, _, h => by
    rw [qualify, Code.names, List.mem_append] at h
    exact h.elim (names_qualify (e := value)) (names_qualify (e := key))
  | .constant .., _, h | .foreign .., _, h => by simp [qualify, Code.names] at h

/-- What a content comes to reads the instance and names that are bound. -/
theorem Term.names_code {term : Term} {name : String}
    (h : name ∈ (term.code config site bound).names) :
    name = config.instanceParam ∨ bound name := by
  cases term with
  | constant => simp [code, Code.names] at h
  | expression e => exact Expr.names_qualify h
  | dashed => exact .inl (by simpa [code, Code.text, Code.names] using h)

theorem names_boundCode {target : Code} {name : String}
    (h : name ∈ (boundCode config target).names) :
    name = config.bindHelper ∨ name ∈ target.names ∨ name = config.instanceParam := by
  unfold boundCode at h
  split at h
  · exact .inr (.inl h)
  · simpa [Code.names, Code.listNames] using h

/-- What is bound never makes a difference through the names that are put around a target. -/
theorem isKept_eq (hfree : ∀ name ∈ config.reserved, bound name = false) (target : Code) :
    isKept config bound target =
      (target.root.isNamed config.instanceParam && !target.names.any bound) := by
  have hhelper : bound config.bindHelper = false := hfree _ (by simp [Config.reserved])
  have hinst : bound config.instanceParam = false := hfree _ (by simp [Config.reserved])
  unfold isKept boundCode
  split
  · rfl
  · simp [Code.names, Code.listNames, hhelper, hinst]

theorem Content.kept?_of_term? (hfree : ∀ name ∈ config.reserved, bound name = false)
    {content : Content} {term : Term} (h : content.term? true = some term) :
    content.kept? config site bound =
      if isKept config bound (term.code config site bound) then
        some (boundCode config (term.code config site bound))
      else none := by
  rw [kept?, h, Option.bind_some, isKept_eq hfree]

theorem Content.names_of_kept {content : Content} {callback : Code}
    (h : content.kept? config site bound = some callback) :
    ∀ name ∈ callback.names, name = config.bindHelper ∨ name = config.instanceParam := by
  obtain ⟨term, -, hkept⟩ := Option.bind_eq_some_iff.1 h
  dsimp only at hkept
  split at hkept
  · rename_i hsteady
    obtain rfl := Option.some.inj hkept
    rw [Bool.and_eq_true, Bool.not_eq_true', List.any_eq_false] at hsteady
    intro name hname
    rcases names_boundCode hname with hhelper | htarget | hinst
    · exact .inl hhelper
    · exact .inr ((Term.names_code htarget).resolve_right (hsteady.2 name htarget))
    · exact .inr hinst
  · simp at hkept

/-- What is kept mentions nothing that an iteration binds, at whatever site. -/
theorem Handler.isBound_of_kept {h : Handler} {callback : Code}
    (hkept : h.kept? config t = some callback) :
    ∀ name ∈ callback.names, ∀ s, t.isBound config s name = false := by
  intro name hname s
  refine Template.isBound_of_reserved ?_
  rcases Content.names_of_kept hkept name hname with rfl | rfl
  · simp [Config.reserved]
  · simp [Config.reserved]

end TemplateCompiler
