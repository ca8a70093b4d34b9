import Mathlib.Tactic.Set
import TemplateCompiler.Compile
import TemplateCompiler.Proofs.Names

/-!
# Runs of compilation steps

A step that succeeds takes a context to a context and gives a result (`Yields`), and a step made of
steps succeeds through them (`yields_bind`). Here the elementary steps are taken apart; what they do
to the context is `queued` for the innermost frame's declarations, `numbering` for the names handed
out, and `Grows` for what is only ever added to.
-/

namespace TemplateCompiler

namespace CompileM

variable {α β : Type} {c c' : Context}

/-- A step that succeeds, with the contexts before and after it. -/
def Yields (m : CompileM α) (c : Context) (a : α) (c' : Context) : Prop :=
  m c = .ok a c'

@[simp]
theorem yields_pure {a b : α} : Yields (pure a) c b c' ↔ a = b ∧ c = c' := by
  simp [Yields, pure, EStateM.pure]

@[simp]
theorem yields_bind {m : CompileM α} {f : α → CompileM β} {b : β} :
    Yields (m >>= f) c b c' ↔ ∃ a c₁, Yields m c a c₁ ∧ Yields (f a) c₁ b c' := by
  simp only [Yields, bind, EStateM.bind]
  rcases m c with ⟨a, c₁⟩ | ⟨e, c₁⟩
  · simp only [EStateM.Result.ok.injEq]
    exact ⟨fun h => ⟨a, c₁, ⟨rfl, rfl⟩, h⟩, fun ⟨_, _, ⟨ha, hc⟩, h⟩ => ha ▸ hc ▸ h⟩
  · simp

@[simp]
theorem yields_map {m : CompileM α} {f : α → β} {b : β} :
    Yields (f <$> m) c b c' ↔ ∃ a, Yields m c a c' ∧ f a = b := by
  simp only [Yields, Functor.map, EStateM.map]
  rcases m c with ⟨a, c₁⟩ | ⟨e, c₁⟩
  · simp only [EStateM.Result.ok.injEq]
    exact ⟨fun ⟨h, hc⟩ => ⟨a, ⟨rfl, hc⟩, h⟩, fun ⟨_, ⟨ha, hc⟩, h⟩ => ⟨ha ▸ h, hc⟩⟩
  · simp

@[simp]
theorem yields_throw {e : Failure} {a : α} : ¬ Yields (throw e) c a c' := by
  intro h
  have herror : EStateM.Result.error e c = .ok a c' := h
  simp at herror

@[simp]
theorem yields_reject {problem : Problem} {pos : Position} {a : α} :
    ¬ Yields (reject problem pos) c a c' :=
  yields_throw

@[simp]
theorem yields_get {a : Context} : Yields get c a c' ↔ c = a ∧ c = c' := by
  have hget : (get : CompileM Context) c = .ok c c := rfl
  rw [Yields, hget, EStateM.Result.ok.injEq]

@[simp]
theorem yields_set {d : Context} {u : Unit} : Yields (set d) c u c' ↔ d = c' := by
  have hset : (set d : CompileM Unit) c = .ok () d := rfl
  simp [Yields, hset]

@[simp]
theorem yields_modify {f : Context → Context} {u : Unit} :
    Yields (modify f) c u c' ↔ f c = c' := by
  have hmodify : (modify f : CompileM Unit) c = .ok () (f c) := rfl
  simp [Yields, hmodify]

@[simp]
theorem yields_ite {p : Prop} [Decidable p] {m m' : CompileM α} {a : α} :
    Yields (if p then m else m') c a c' ↔ if p then Yields m c a c' else Yields m' c a c' := by
  split <;> rfl

theorem yields_check {pos : Position} {result : Except Problem Unit} {u : Unit}
    (h : Yields (check pos result) c u c') : result = .ok () ∧ c' = c := by
  unfold check at h
  split at h
  · simp only [yields_pure, true_and] at h
    exact ⟨rfl, h.symm⟩
  · simp at h

end CompileM

/-! ## Declarations queued on the innermost frame -/

/-- The frames after declarations are queued. -/
def queued (frames : List Frame) (ds : List Declaration) : List Frame :=
  match frames with
  | [] => []
  | frame :: rest => { frame with declarations := frame.declarations ++ ds } :: rest

@[simp]
theorem queued_nil (frames : List Frame) : queued frames [] = frames := by
  cases frames <;> simp [queued]

@[simp]
theorem queued_queued (frames : List Frame) (ds ds' : List Declaration) :
    queued (queued frames ds) ds' = queued frames (ds ++ ds') := by
  cases frames <;> simp [queued]

theorem isBound_queued (frames : List Frame) (ds : List Declaration) (name : String) :
    Scope.isBound ⟨queued frames ds⟩ name = Scope.isBound ⟨frames⟩ name := by
  cases frames <;> rfl

/-! ## Names handed out -/

/-- How many temporaries, loop functions and memo keys are named. -/
structure Numbering where
  temporaries : Nat
  loops : Nat
  memos : Nat

namespace Numbering

def temporary (n : Numbering) : String :=
  CompileM.numberedName "expr" n.temporaries

def loop (n : Numbering) : String :=
  CompileM.numberedName "loop" n.loops

def memo (n : Numbering) : String :=
  CompileM.numberedName "m" n.memos

def withTemporary (n : Numbering) : Numbering :=
  { n with temporaries := n.temporaries + 1 }

def withLoop (n : Numbering) : Numbering :=
  { n with loops := n.loops + 1 }

def withMemo (n : Numbering) : Numbering :=
  { n with memos := n.memos + 1 }

end Numbering

def Context.count (c : Context) (stem : String) : Nat :=
  (c.counters.lookup stem).getD 0

def Context.numbering (c : Context) : Numbering :=
  ⟨c.count "expr", c.count "loop", c.count "m"⟩

/-! ## What is only added to -/

/-- No two modules share an alias, and none has a name the module gives otherwise. -/
structure AliasesApart (env : Env) (c : Context) : Prop where
  nodup : (c.aliases.map Prod.snd).Nodup
  free : ∀ name ∈ c.aliases.map Prod.snd,
    ¬ Component.isNumbered name ∧ name ≠ env.config.bindHelper ∧ ∃ rest, name.toList = '_' :: rest

/-- What a context knows, a later one knows too. -/
structure Grows (env : Env) (c c' : Context) : Prop where
  aliases : ∀ path name, c.aliases.lookup path = some name → c'.aliases.lookup path = some name
  components : c.manifest.components ⊆ c'.manifest.components
  binds : c.bindsCallbacks → c'.bindsCallbacks
  apart : AliasesApart env c → AliasesApart env c'

/-- A step that leaves the scopes and the numbers as they are. -/
structure Keeps (env : Env) (c c' : Context) : Prop where
  scope : c'.scope = c.scope
  numbering : c'.numbering = c.numbering
  grows : Grows env c c'

/-- A step that queues declarations on the innermost frame. -/
structure Adds (env : Env) (c c' : Context) (ds : List Declaration) : Prop where
  frames : c'.scope.frames = queued c.scope.frames ds
  grows : Grows env c c'

variable {env : Env} {c c₁ c₂ c₃ c' : Context} {ds ds' : List Declaration}

theorem Grows.refl (env : Env) (c : Context) : Grows env c c :=
  ⟨fun _ _ h => h, fun _ h => h, id, id⟩

theorem Grows.of_eq (ha : c'.aliases = c.aliases)
    (hm : c'.manifest.components = c.manifest.components)
    (hb : c'.bindsCallbacks = c.bindsCallbacks) : Grows env c c' :=
  ⟨fun _ _ h => ha ▸ h, fun _ h => hm ▸ h, fun h => hb ▸ h,
    fun h => ⟨ha ▸ h.nodup, ha ▸ h.free⟩⟩

theorem Grows.trans (h : Grows env c₁ c₂) (h' : Grows env c₂ c₃) : Grows env c₁ c₃ :=
  ⟨fun path name hn => h'.aliases path name (h.aliases path name hn),
    fun _ hx => h'.components (h.components hx), h'.binds ∘ h.binds, h'.apart ∘ h.apart⟩

theorem Keeps.refl (env : Env) (c : Context) : Keeps env c c :=
  ⟨rfl, rfl, .refl env c⟩

theorem Keeps.trans (h : Keeps env c₁ c₂) (h' : Keeps env c₂ c₃) : Keeps env c₁ c₃ :=
  ⟨h'.scope.trans h.scope, h'.numbering.trans h.numbering, h.grows.trans h'.grows⟩

theorem Keeps.adds (h : Keeps env c c') : Adds env c c' [] :=
  ⟨by rw [h.scope, queued_nil], h.grows⟩

theorem Adds.trans (h : Adds env c₁ c₂ ds) (h' : Adds env c₂ c₃ ds') :
    Adds env c₁ c₃ (ds ++ ds') :=
  ⟨by rw [h'.frames, h.frames, queued_queued], h.grows.trans h'.grows⟩

theorem Adds.isBound (h : Adds env c c' ds) (name : String) :
    c'.scope.isBound name = c.scope.isBound name := by
  have := isBound_queued c.scope.frames ds name
  rwa [← h.frames] at this

namespace CompileM

/-! ## Elementary steps -/

theorem note_keeps {event : Event} {u : Unit} (h : Yields (note event) c u c') :
    Keeps env c c' := by
  simp only [note, yields_modify] at h
  subst h
  exact ⟨rfl, rfl, .of_eq rfl rfl rfl⟩

theorem useName_keeps {name : String} {u : Unit} (h : Yields (useName name) c u c') :
    Keeps env c c' := by
  simp only [useName, yields_modify] at h
  subst h
  exact ⟨rfl, rfl, .of_eq rfl rfl rfl⟩

theorem forM_useName_keeps {u : Unit} :
    ∀ {names : List String} {c c' : Context}, Yields (names.forM useName) c u c' → Keeps env c c'
  | [], c, c', h => by
    rw [List.forM, yields_pure] at h
    exact h.2 ▸ .refl env c
  | name :: rest, c, c', h => by
    rw [List.forM, yields_bind] at h
    obtain ⟨_, c₁, h₁, h₂⟩ := h
    exact (useName_keeps h₁).trans (forM_useName_keeps h₂)

theorem openScope_yields (env : Env) {names : List String} {u : Unit}
    (h : Yields (openScope names) c u c') :
    c'.scope.frames = .inside c.scope.frames names :: c.scope.frames ∧ c'.numbering = c.numbering ∧
      Grows env c c' := by
  simp only [openScope, yields_bind, yields_modify, yields_get] at h
  obtain ⟨_, c₁, rfl, _, _, ⟨rfl, rfl⟩, hn⟩ := h
  have hk : Keeps env _ c' := note_keeps hn
  refine ⟨by rw [hk.scope]; rfl, hk.numbering, Grows.trans ?_ hk.grows⟩
  exact .of_eq rfl rfl rfl

theorem closeScope_yields (env : Env) {frame : Frame} {rest : List Frame}
    (h : Yields closeScope c ds c') (hf : c.scope.frames = frame :: rest) :
    ds = frame.declarations ∧ c'.scope.frames = rest ∧ c'.numbering = c.numbering ∧
      Grows env c c' := by
  simp only [closeScope, yields_bind, yields_get] at h
  obtain ⟨_, _, ⟨rfl, rfl⟩, h⟩ := h
  simp only [Scope.close, hf, yields_bind, yields_set, yields_pure] at h
  obtain ⟨_, _, rfl, _, _, hn, rfl, rfl⟩ := h
  have hk : Keeps env _ _ := note_keeps hn
  refine ⟨rfl, by rw [hk.scope], hk.numbering, Grows.trans ?_ hk.grows⟩
  exact .of_eq rfl rfl rfl

theorem queue_yields (env : Env) {d : Declaration} {u : Unit} (h : Yields (queue d) c u c') :
    Adds env c c' [d] ∧ c'.numbering = c.numbering := by
  simp only [queue, yields_bind, yields_get] at h
  obtain ⟨_, _, ⟨rfl, rfl⟩, h⟩ := h
  unfold Scope.queue at h
  rcases hf : c.scope.frames with _ | ⟨frame, rest⟩
  · simp [hf] at h
  · simp only [hf, yields_set] at h
    subst h
    exact ⟨⟨by rw [hf]; rfl, .of_eq rfl rfl rfl⟩, rfl⟩

theorem uniqueName_yields (env : Env) {stem name : String}
    (h : Yields (uniqueName stem) c name c') :
    name = numberedName stem (c.count stem) ∧ c'.scope = c.scope ∧ Grows env c c' ∧
      ∀ other, c'.count other = if other = stem then c.count stem + 1 else c.count other := by
  simp only [uniqueName, yields_bind, yields_get, yields_set, yields_pure] at h
  obtain ⟨_, _, ⟨rfl, rfl⟩, _, _, rfl, rfl, rfl⟩ := h
  refine ⟨rfl, rfl, .of_eq rfl rfl rfl, fun other => ?_⟩
  by_cases ho : other = stem
  · simp [Context.count, ho]
  · simp [Context.count, List.lookup_cons, ho, beq_eq_false_iff_ne.2 ho]

theorem temporary_yields (env : Env) {name : String} (h : Yields (uniqueName "expr") c name c') :
    name = c.numbering.temporary ∧ c'.numbering = c.numbering.withTemporary ∧
      Adds env c c' [] := by
  obtain ⟨rfl, hs, hg, hn⟩ := uniqueName_yields env h
  refine ⟨rfl, ?_, by rw [hs, queued_nil], hg⟩
  simp [Context.numbering, Numbering.withTemporary, hn]

theorem loop_yields (env : Env) {name : String} (h : Yields (uniqueName "loop") c name c') :
    name = c.numbering.loop ∧ c'.numbering = c.numbering.withLoop ∧ Adds env c c' [] := by
  obtain ⟨rfl, hs, hg, hn⟩ := uniqueName_yields env h
  refine ⟨rfl, ?_, by rw [hs, queued_nil], hg⟩
  simp [Context.numbering, Numbering.withLoop, hn]

theorem memoKey_yields {key : String} (h : Yields (memoKey env) c key c') :
    key = s!"{env.label}:{c.numbering.memo}" ∧ c'.numbering = c.numbering.withMemo ∧
      Adds env c c' [] := by
  simp only [memoKey, yields_bind, yields_pure] at h
  obtain ⟨_, _, h, rfl, rfl⟩ := h
  obtain ⟨rfl, hs, hg, hn⟩ := uniqueName_yields env h
  refine ⟨rfl, ?_, by rw [hs, queued_nil], hg⟩
  simp [Context.numbering, Numbering.withMemo, hn]

theorem componentAlias_yields {path name : String}
    (h : Yields (componentAlias env path) c name c') :
    c'.aliases.lookup path = some name ∧ Keeps env c c' ∧ c'.manifest = c.manifest := by
  simp only [componentAlias, yields_bind, yields_get] at h
  obtain ⟨_, _, ⟨rfl, rfl⟩, h⟩ := h
  rcases hk : c.aliases.lookup path with _ | known
  · simp only [hk, yields_bind, yields_set, yields_pure] at h
    obtain ⟨_, _, rfl, rfl, rfl⟩ := h
    set taken := c.aliases.map Prod.snd ++ [env.config.bindHelper] with htaken
    have hlookup : ∀ other found, c.aliases.lookup other = some found →
        (c.aliases ++ [(path, Component.freshAlias taken (Component.plainAlias path))]).lookup other
          = some found := by
      intro other found hfound
      simp [List.lookup_append, hfound]
    refine ⟨by simp [List.lookup_append, hk], ⟨rfl, rfl, hlookup, fun _ h => h, id, ?_⟩, rfl⟩
    intro hapart
    obtain ⟨rest, hrest⟩ := Component.toList_plainAlias path
    obtain ⟨hfree, -⟩ := Component.freshAlias_free taken (Component.plainAlias path)
      (by simp [hrest])
    simp only [Component.isFree, htaken, Bool.and_eq_true, Bool.not_eq_true', List.contains_eq_mem,
      List.mem_append, List.mem_singleton, decide_eq_false_iff_not, not_or] at hfree
    obtain ⟨⟨hnew, hhelper⟩, hnumbered⟩ := hfree
    constructor
    · simp only [List.map_append, List.map_cons, List.map_nil]
      refine List.nodup_append.2 ⟨hapart.nodup, by simp, ?_⟩
      rintro a ha b hb rfl
      rw [List.mem_singleton] at hb
      exact hnew (hb ▸ ha)
    · intro found hfound
      simp only [List.map_append, List.map_cons, List.map_nil, List.mem_append,
        List.mem_singleton] at hfound
      rcases hfound with hfound | rfl
      · exact hapart.free found hfound
      · exact ⟨by simp [htaken, hnumbered], hhelper, Component.toList_freshAlias taken path⟩
  · simp only [hk, yields_pure] at h
    obtain ⟨rfl, rfl⟩ := h
    exact ⟨hk, .refl env c, rfl⟩

end CompileM

end TemplateCompiler
