import TemplateCompiler.Proofs.Place
import TemplateCompiler.Proofs.Rejections

/-!
# Scopes are closed as they are opened

Whatever part of the markup is lowered, the frames that are open before are open after, with the
names they had and all that was bound at them; only the innermost has more declarations at its end,
those that the part has queued (`scope_discipline`). So a frame that an element opens is closed by
it, on whichever way it is sealed, and no unit closes or queues where nothing is open.
-/

namespace TemplateCompiler

/-- The frames of a scope, each with its own names and with all that are bound at it, and with
declarations added at most to the innermost. -/
structure Scope.Kept (s s' : Scope) : Prop where
  depth : s'.depth = s.depth
  names : s'.frames.map Frame.names = s.frames.map Frame.names
  bound : s'.frames.map Frame.bound = s.frames.map Frame.bound
  outer : s'.frames.tail = s.frames.tail
  appended : ∃ ds, s'.frames.head?.map Frame.declarations =
    s.frames.head?.map fun frame => frame.declarations ++ ds

/-- What is queued is all that is changed by it. -/
theorem map_queued {β : Type} (frames : List Frame) (ds : List Declaration) {f : Frame → β}
    (h : ∀ frame ds, f { frame with declarations := ds } = f frame) :
    (queued frames ds).map f = frames.map f := by
  cases frames with
  | nil => rfl
  | cons frame rest => exact congrArg (· :: rest.map f) (h frame _)

theorem Adds.kept {env : Env} {c c' : Context} {ds : List Declaration} (h : Adds env c c' ds) :
    c.scope.Kept c'.scope where
  depth := by
    rw [Scope.depth, Scope.depth, h.frames]
    cases c.scope.frames <;> rfl
  names := by rw [h.frames, map_queued _ _ fun _ _ => rfl]
  bound := by rw [h.frames, map_queued _ _ fun _ _ => rfl]
  outer := by
    rw [h.frames]
    cases c.scope.frames <;> rfl
  appended := by
    refine ⟨ds, ?_⟩
    rw [h.frames]
    cases c.scope.frames <;> rfl

theorem Failure.Within.ne_scope {positions : List Position} {strays : List Misplaced}
    {fault : Scope.Fault} : ¬ (Failure.scope fault).Within positions strays := by
  rintro ⟨⟩

namespace CompileM

variable {α : Type} {env : Env}

/-- A step that, where a frame is open, keeps the scope if it succeeds and finds no fault in it
otherwise. -/
def KeepsScope (m : CompileM α) : Prop :=
  ∀ c, c.scope.frames ≠ [] →
    (∀ a c', Yields m c a c' → c.scope.Kept c'.scope) ∧ ∀ fault, ¬ Fails m c (.scope fault)

theorem lowerNode_keepsScope (around : Place) (before : Nat) (node : Node) :
    KeepsScope (lowerNode env around before node) := by
  intro c hc
  constructor
  · intro siblings c' h
    obtain ⟨binders, hbound⟩ := exists_binders c
    obtain ⟨ds, ha, -⟩ := lowerNode_yields h hbound
    exact ha.kept
  · intro fault h
    exact (lowerNode_fails node c hc h).ne_scope

theorem lowerElement_keepsScope (place : Place) (pos : Position) (tag : Tag)
    (attributes : List Attribute) (children : List Node) :
    KeepsScope (lowerElement env place pos tag attributes (lowerNodes env place 0 children)) := by
  intro c hc
  constructor
  · intro sibling c' h
    obtain ⟨binders, hbound⟩ := exists_binders c
    obtain ⟨ds, ha, -⟩ := lowerElement_yields (fun h => lowerNodes_yields h) h hbound
    exact ha.kept
  · intro fault h
    exact (lowerElement_fails (lowerNodes_fails children) hc h).ne_scope

/-- A list of children, lowered and finished. -/
theorem children_keepScope (around : Place) (before : Nat) (nodes : List Node) :
    KeepsScope (lowerNodes env around before nodes >>= finishSiblings env) := by
  intro c hc
  obtain ⟨binders, hbound⟩ := exists_binders c
  constructor
  · intro items c' h
    rw [yields_bind] at h
    obtain ⟨siblings, c₁, hs, hi⟩ := h
    obtain ⟨ds, ha, -⟩ := lowerNodes_yields hs hbound
    obtain ⟨ds', ha', -⟩ := finishChains_yields hi
    exact (ha.trans ha').kept
  · intro fault h
    rw [fails_bind] at h
    rcases h with h | ⟨siblings, c₁, hs, h⟩
    · exact (lowerNodes_fails nodes c hc h).ne_scope
    · obtain ⟨ds, ha, -⟩ := lowerNodes_yields hs hbound
      obtain ⟨s, -, problem, he⟩ := finishSiblings_fails (ha.frames_ne_nil hc) h
      simp at he

/-! ## Units -/

theorem importsOf_scope :
    ∀ {paths : List String} {c c' : Context} {imports : List Import},
      Yields (importsOf env paths) c imports c' → c'.scope = c.scope
  | [], c, _, imports, h => by
    obtain ⟨-, rfl⟩ := yields_pure.1 h
    rfl
  | path :: rest, c, _, imports, h => by
    simp only [importsOf, importOf, yields_bind, yields_pure] at h
    obtain ⟨_, c₁, ⟨localName, _, ha, rfl, rfl⟩, more, c₂, hm, rfl, rfl⟩ := h
    obtain ⟨-, hk, -⟩ := componentAlias_yields ha
    rw [importsOf_scope hm, hk.scope]

/-- The frame of the unit is the only one open around its root, and it is closed after it. -/
theorem compileUnit_frames {t : Template} {compiled : Compiled} {c' : Context}
    (h : Yields (compileUnit env t) .initial compiled c') : c'.scope.frames = [] := by
  simp only [compileUnit, yields_bind, yields_get, yields_pure] at h
  obtain ⟨_, c₁, hn₁, _, c₂, ho, code, c₃, hr, ds, c₄, hc, _, _, ⟨rfl, rfl⟩, imports, c₅, hi, _, _,
    ⟨rfl, rfl⟩, _, c₆, hn₆, rfl, rfl⟩ := h
  have hk₁ : Keeps env _ c₁ := note_keeps hn₁
  have hk₆ : Keeps env c₅ c₆ := note_keeps hn₆
  obtain ⟨hf₂, -⟩ := openScope_yields env ho
  rw [hk₁.scope] at hf₂
  have hbound : c₂.scope.isBound = binds [] := by
    funext name
    rw [Scope.isBound, hf₂]
    rfl
  obtain ⟨-, -, -, -, ds', -, -, ha₃, -⟩ := lowerRoot_yields hr hbound
  have hf₃ : c₃.scope.frames = ⟨[], ds', []⟩ :: [] := by
    rw [ha₃.frames, hf₂]
    rfl
  obtain ⟨-, hf₄, -⟩ := closeScope_yields env hc hf₃
  rw [hk₆.scope, importsOf_scope hi, hf₄]

/-- To lower a node, an element or a list of children keeps the scope, in every context with an
open frame. So no compilation ends for a fault in its scope, and one that succeeds has closed every
frame. -/
theorem scope_discipline (env : Env) :
    (∀ around before node, KeepsScope (lowerNode env around before node)) ∧
      (∀ place pos tag attributes children,
        KeepsScope (lowerElement env place pos tag attributes (lowerNodes env place 0 children))) ∧
      (∀ around before nodes,
        KeepsScope (lowerNodes env around before nodes >>= finishSiblings env)) ∧
      ∀ t, (∀ fault, (compile env t).1 ≠ .error (.scope fault)) ∧
        ∀ compiled K, Yields (compileUnit env t) .initial compiled K → K.scope.frames = [] := by
  refine ⟨lowerNode_keepsScope, lowerElement_keepsScope, children_keepScope, fun t => ⟨?_, ?_⟩⟩
  · intro fault h
    exact (within_of_error h).ne_scope
  · intro compiled K h
    exact compileUnit_frames h

/-- A list that repeats for the rows of a table, with a condition of its own on what is in it, is
lowered where one frame is open. Its function is declared there. -/
theorem scope_discipline_of_repeated :
    let nodes : List Node :=
      [.plain "ul" [.text "repeat" "for" "row in rows"]
        [.plain "template" [.text "set" "if" "row"] [.plain "li" [] []]]]
    let c : Context := { Context.initial with scope := Scope.empty.enter ["table"] }
    ∃ items c', Yields (lowerNodes .default [] 0 nodes >>= finishSiblings .default) c items c' ∧
      c.scope.Kept c'.scope ∧
        c'.scope.frames.map (fun frame => frame.declarations.length) = [1] := by
  intro nodes c
  have hrun : (match (lowerNodes .default [] 0 nodes >>= finishSiblings .default) c with
      | .ok _ c' => c'.scope.frames.map fun frame => frame.declarations.length
      | .error _ _ => []) = [1] := by decide +kernel
  rcases h : (lowerNodes .default [] 0 nodes >>= finishSiblings .default) c with
    ⟨items, c'⟩ | ⟨e, c'⟩
  · rw [h] at hrun
    obtain ⟨-, -, hchildren, -⟩ := scope_discipline .default
    have hc : c.scope.frames ≠ [] := List.cons_ne_nil _ _
    exact ⟨items, c', h, (hchildren [] 0 nodes c hc).1 items c' h, hrun⟩
  · rw [h] at hrun
    simp at hrun

end CompileM

end TemplateCompiler
