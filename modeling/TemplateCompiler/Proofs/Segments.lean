import TemplateCompiler.Proofs.Failing
import TemplateCompiler.Proofs.Place

/-!
# Segments of siblings

Siblings fall into segments, each as long as it can be: one that is no alternative, and alternatives
as long as the last sibling of the segment takes another. There is one way only to do so, and it may
leave alternatives over. To finish siblings is to go through them one by one, from each to the first
that is not among its alternatives: every segment is one item, or what a template is replaced by,
and the first alternative that is left over is refused (`segments_finished`).
-/

namespace TemplateCompiler

namespace Sibling

/-! ## Segments -/

/-- Siblings in their segments, and the alternatives among them that are in none. -/
inductive Segmented : List Sibling → List (List Sibling) → List Sibling → Prop where
  | nil : Segmented [] [] []
  | stray {s rest segments strays} (alternative : s.isAlternative)
      (more : Segmented rest segments strays) : Segmented (s :: rest) segments (s :: strays)
  | segment {head tail rest segments strays} (heads : head.isAlternative = false)
      (chain : (head :: tail).IsChain fun s next => s.continues next)
      (ends : ∀ last ∈ (head :: tail).getLast?, ∀ next ∈ rest.head?, last.continues next = false)
      (more : Segmented rest segments strays) :
      Segmented (head :: (tail ++ rest)) ((head :: tail) :: segments) strays

/-- The siblings after one that are its alternatives. -/
def alternatives (s : Sibling) : List Sibling → List Sibling
  | [] => []
  | next :: rest => if s.continues next then next :: next.alternatives rest else []

theorem alternatives_eq_nil {s : Sibling} (h : s.takesAlternative = false)
    (siblings : List Sibling) : s.alternatives siblings = [] := by
  cases siblings <;> simp [alternatives, continues, h]

theorem alternatives_append {s : Sibling} {tail rest : List Sibling}
    (hchain : (s :: tail).IsChain fun s next => s.continues next)
    (hends : ∀ last ∈ (s :: tail).getLast?, ∀ next ∈ rest.head?, last.continues next = false) :
    s.alternatives (tail ++ rest) = tail := by
  induction tail generalizing s with
  | nil =>
    cases rest with
    | nil => rfl
    | cons next rest => simp [alternatives, hends s rfl next rfl]
  | cons next tail ih =>
    obtain ⟨hnext, htail⟩ := List.isChain_cons_cons.1 hchain
    rw [List.cons_append, alternatives, if_pos hnext, ih htail fun last hlast => hends last ?_]
    simpa using hlast

theorem exists_alternatives (s : Sibling) (siblings : List Sibling) :
    ∃ rest, siblings = s.alternatives siblings ++ rest ∧
      ((s :: s.alternatives siblings).IsChain fun s next => s.continues next) ∧
      ∀ last ∈ (s :: s.alternatives siblings).getLast?, ∀ next ∈ rest.head?,
        last.continues next = false := by
  induction siblings generalizing s with
  | nil => exact ⟨[], rfl, List.isChain_singleton _, by simp⟩
  | cons next siblings ih =>
    rw [alternatives]
    split
    · rename_i hnext
      obtain ⟨rest, hrest, hchain, hends⟩ := ih next
      refine ⟨rest, by rw [List.cons_append, ← hrest], List.isChain_cons_cons.2 ⟨hnext, hchain⟩,
        fun last hlast => hends last ?_⟩
      simpa using hlast
    · rename_i hnext
      exact ⟨next :: siblings, rfl, List.isChain_singleton _, by simpa using hnext⟩

theorem chains_append {s : Sibling} {tail rest : List Sibling}
    (hchain : (s :: tail).IsChain fun s next => s.continues next)
    (hends : ∀ last ∈ (s :: tail).getLast?, ∀ next ∈ rest.head?, last.continues next = false) :
    chains (s :: tail ++ rest) = (s :: tail) :: chains rest := by
  rw [chains, List.splitBy_append hends, List.splitBy_of_isChain (by simp) hchain]
  rfl

theorem chains_cons (s : Sibling) (siblings : List Sibling) :
    chains (s :: siblings) = (s :: s.alternatives siblings) ::
      chains (siblings.drop (s.alternatives siblings).length) := by
  obtain ⟨rest, hrest, hchain, hends⟩ := s.exists_alternatives siblings
  have hdrop : siblings.drop (s.alternatives siblings).length = rest := by
    generalize s.alternatives siblings = taken at hrest
    rw [hrest, List.drop_left]
  calc chains (s :: siblings)
    _ = chains (s :: s.alternatives siblings ++ rest) := by rw [List.cons_append, ← hrest]
    _ = (s :: s.alternatives siblings) :: chains rest := chains_append hchain hends
    _ = _ := by rw [hdrop]

end Sibling

namespace Sibling.Segmented

theorem exists_segments : ∀ siblings : List Sibling,
    ∃ segments strays, Segmented siblings segments strays
  | [] => ⟨[], [], .nil⟩
  | s :: siblings => by
    by_cases hs : s.isAlternative
    · obtain ⟨segments, strays, h⟩ := exists_segments siblings
      exact ⟨segments, s :: strays, .stray hs h⟩
    · obtain ⟨rest, hrest, hchain, hends⟩ := s.exists_alternatives siblings
      have hlength : rest.length ≤ siblings.length := by
        rw [hrest, List.length_append]
        omega
      obtain ⟨segments, strays, h⟩ := exists_segments rest
      have hsegment := segment (by simpa using hs) hchain hends h
      rw [← hrest] at hsegment
      exact ⟨_, strays, hsegment⟩
termination_by siblings => siblings.length

variable {siblings : List Sibling} {segments segments' : List (List Sibling)}
  {strays strays' : List Sibling}

theorem eq_of_nil (h : Segmented [] segments strays) : segments = [] ∧ strays = [] := by
  cases h
  exact ⟨rfl, rfl⟩

/-- What the first sibling decides. -/
theorem cons_cases {s : Sibling} (h : Segmented (s :: siblings) segments strays) :
    (s.isAlternative ∧ ∃ more, strays = s :: more ∧ Segmented siblings segments more) ∨
    (s.isAlternative = false ∧ ∃ more, segments = (s :: s.alternatives siblings) :: more ∧
      Segmented (siblings.drop (s.alternatives siblings).length) more strays) := by
  generalize hrow : s :: siblings = row at h
  cases h with
  | nil => simp at hrow
  | stray alternative more =>
    obtain ⟨rfl, rfl⟩ := List.cons.inj hrow
    exact .inl ⟨alternative, _, rfl, more⟩
  | segment heads chain ends more =>
    obtain ⟨rfl, rfl⟩ := List.cons.inj hrow
    rw [alternatives_append chain ends, List.drop_left]
    exact .inr ⟨heads, _, rfl, more⟩

theorem unique : ∀ {siblings : List Sibling} {segments segments' : List (List Sibling)}
    {strays strays' : List Sibling}, Segmented siblings segments strays →
      Segmented siblings segments' strays' → segments' = segments ∧ strays' = strays
  | [], _, _, _, _, h, h' => by
    obtain ⟨rfl, rfl⟩ := h.eq_of_nil
    exact h'.eq_of_nil
  | s :: siblings, _, _, _, _, h, h' => by
    rcases h.cons_cases with ⟨hs, more, rfl, hmore⟩ | ⟨hs, more, rfl, hmore⟩
    · rcases h'.cons_cases with ⟨-, more', rfl, hmore'⟩ | ⟨hs', -⟩
      · obtain ⟨rfl, rfl⟩ := unique hmore hmore'
        exact ⟨rfl, rfl⟩
      · simp [hs'] at hs
    · rcases h'.cons_cases with ⟨hs', -⟩ | ⟨-, more', rfl, hmore'⟩
      · simp [hs'] at hs
      · obtain ⟨rfl, rfl⟩ := unique hmore hmore'
        exact ⟨rfl, rfl⟩
termination_by siblings => siblings.length

/-- Where nothing is left over, the segments are what siblings are finished by. -/
theorem chains_eq : ∀ {siblings : List Sibling} {segments : List (List Sibling)},
    Segmented siblings segments [] → chains siblings = segments
  | [], _, h => by
    obtain ⟨rfl, -⟩ := h.eq_of_nil
    rfl
  | s :: siblings, _, h => by
    rcases h.cons_cases with ⟨-, more, hstrays, -⟩ | ⟨-, more, rfl, hmore⟩
    · simp at hstrays
    · rw [chains_cons, chains_eq hmore]
termination_by siblings => siblings.length

end Sibling.Segmented

/-! ## Going through siblings -/

namespace CompileM

mutual

/-- A sibling as an item, with the alternatives from an index on, and the index of the first sibling
that is none of them. -/
def takeSibling (env : Env) (siblings : List Sibling) (s : Sibling) (index : Nat) :
    CompileM (Item × { next : Nat // index ≤ next }) := do
  let (alternative, next) ←
    if s.takesAlternative then takeAlternative env siblings index
    else pure (none, ⟨index, Nat.le_refl index⟩)
  let item ← finishSibling env s alternative
  return (item, next)
termination_by (siblings.length - index, 1)

/-- The sibling at an index, if it is an alternative. -/
def takeAlternative (env : Env) (siblings : List Sibling) (index : Nat) :
    CompileM (Option Item × { next : Nat // index ≤ next }) :=
  if h : index < siblings.length then
    let candidate := siblings[index]
    if candidate.isAlternative then do
      let (item, next) ← takeSibling env siblings candidate (index + 1)
      return (some item, ⟨next, Nat.le_of_succ_le next.property⟩)
    else pure (none, ⟨index, Nat.le_refl index⟩)
  else pure (none, ⟨index, Nat.le_refl index⟩)
termination_by (siblings.length - index, 0)

end

/-- The items of the siblings from an index on, taken one after another. -/
def takeSiblings (env : Env) (siblings : List Sibling) (index : Nat) : CompileM (List Item) :=
  if h : index < siblings.length then
    let s := siblings[index]
    if s.isAlternative then reject .elseBeforeIf s.pos
    else match s.form with
      | .spliced items => do
        let more ← takeSiblings env siblings (index + 1)
        return items.map (fun i => i.inSlot s.item.slot) ++ more
      | _ => do
        let (item, ⟨next, _⟩) ← takeSibling env siblings s (index + 1)
        let more ← takeSiblings env siblings next
        return item :: more
  else pure []
termination_by siblings.length - index

variable (env : Env) (siblings : List Sibling)

mutual

theorem takeSibling_eq (s : Sibling) (index : Nat) :
    (fun r => (some r.1, r.2.val)) <$> takeSibling env siblings s index =
      (fun item => (item, index + (s.alternatives (siblings.drop index)).length)) <$>
        finishBranches env (s :: s.alternatives (siblings.drop index)) := by
  rw [takeSibling, finishBranches]
  by_cases htakes : s.takesAlternative
  · have hrun := congrArg (fun m => m >>= fun r =>
      (fun item => (some item, r.2)) <$> finishSibling env s r.1) (takeAlternative_eq htakes index)
    simp only [map_eq_pure_bind, bind_assoc, pure_bind] at hrun
    simp only [htakes, if_true, map_eq_pure_bind, bind_assoc, pure_bind]
    exact hrun
  · simp [Sibling.alternatives_eq_nil (by simpa using htakes), htakes, finishBranches]
termination_by (siblings.length - index, 1)

theorem takeAlternative_eq {s : Sibling} (htakes : s.takesAlternative) (index : Nat) :
    (fun r => (r.1, r.2.val)) <$> takeAlternative env siblings index =
      (fun item => (item, index + (s.alternatives (siblings.drop index)).length)) <$>
        finishBranches env (s.alternatives (siblings.drop index)) := by
  rw [takeAlternative]
  split
  · rename_i h
    rw [List.drop_eq_getElem_cons h, Sibling.alternatives, Sibling.continues, htakes, Bool.true_and]
    dsimp only
    split
    · have ih := takeSibling_eq siblings[index] (index + 1)
      simp only [map_eq_pure_bind, bind_assoc, pure_bind] at ih ⊢
      rw [ih, List.length_cons]
      simp only [Nat.add_assoc, Nat.add_comm 1]
    · simp [finishBranches]
  · rename_i h
    rw [List.drop_eq_nil_of_le (Nat.not_lt.1 h)]
    simp [Sibling.alternatives, finishBranches]
termination_by (siblings.length - index, 0)

end

theorem finishChain_spliced {s : Sibling} {items : List Item} (hs : s.isAlternative = false)
    (hform : s.form = .spliced items) (rest : List Sibling) :
    finishChain env (s :: rest) = pure (items.map fun i => i.inSlot s.item.slot) := by
  rw [finishChain, if_neg (by simp [hs]), hform]

theorem finishChain_branches {s : Sibling} (hs : s.isAlternative = false)
    (hform : ∀ items, s.form ≠ .spliced items) (rest : List Sibling) :
    finishChain env (s :: rest) = Option.toList <$> finishBranches env (s :: rest) := by
  rw [finishChain, if_neg (by simp [hs])]
  split
  · exact absurd ‹_› (hform _)
  · simp

/-- To take siblings one after another is to finish them by their chains. -/
theorem takeSiblings_eq (index : Nat) :
    takeSiblings env siblings index = finishSiblings env (siblings.drop index) := by
  rw [takeSiblings]
  split
  · rename_i h
    rw [List.drop_eq_getElem_cons h, finishSiblings, Sibling.chains_cons, finishChains]
    dsimp only
    split
    · rename_i halternative
      rw [finishChain, if_pos halternative]
      rfl
    · rename_i hhead
      rw [Bool.not_eq_true] at hhead
      split
      · rename_i items hform
        have htakes : siblings[index].takesAlternative = false := by
          rw [Sibling.takesAlternative, hform]
        rw [takeSiblings_eq (index + 1), Sibling.alternatives_eq_nil htakes, List.length_nil,
          List.drop_zero, finishChain_spliced env hhead hform, pure_bind]
        rfl
      · rename_i hform
        have hrun := congrArg (fun m => m >>= fun r => do
            let more ← finishSiblings env (siblings.drop r.2)
            return r.1.toList ++ more) (takeSibling_eq env siblings siblings[index] (index + 1))
        have hmore : ∀ r : Item × { next : Nat // index + 1 ≤ next },
            takeSiblings env siblings r.2 = finishSiblings env (siblings.drop r.2) :=
          fun r => takeSiblings_eq r.2
        rw [finishChain_branches env hhead hform]
        simp only [map_eq_pure_bind, bind_assoc, pure_bind, Option.toList_some,
          List.singleton_append] at hrun ⊢
        simp only [hmore, hrun, List.drop_drop]
        rfl
  · rename_i h
    rw [List.drop_eq_nil_of_le (Nat.not_lt.1 h)]
    rfl
termination_by siblings.length - index
decreasing_by
  · omega
  · have hnext := r.2.property
    omega

/-! ## What comes of the segments -/

variable {env} {siblings} {c : Context}

theorem exists_yields_finishChain {s : Sibling} (hs : s.isAlternative = false)
    (rest : List Sibling) (hc : c.scope.frames ≠ []) :
    ∃ items c', Yields (finishChain env (s :: rest)) c items c' := by
  have hnot : ∀ e, ¬ Fails (finishChain env (s :: rest)) c e := by
    intro e
    rw [finishChain, if_neg (by simp [hs])]
    split
    · exact not_fails_pure
    · simp [not_fails_finishBranches hc]
  rcases hrun : finishChain env (s :: rest) c with ⟨items, c'⟩ | ⟨e, c'⟩
  · exact ⟨items, c', hrun⟩
  · exact absurd ⟨c', hrun⟩ (hnot e)

/-- Siblings are finished if no alternative is left over, and otherwise the first that is left over
is reported. -/
theorem finishSiblings_run : ∀ {siblings : List Sibling} {segments : List (List Sibling)}
    {strays : List Sibling} {c : Context}, Sibling.Segmented siblings segments strays →
      c.scope.frames ≠ [] →
      (strays = [] → ∃ items c', Yields (finishSiblings env siblings) c items c') ∧
        ∀ s ∈ strays.head?, Fails (finishSiblings env siblings) c (.violation .elseBeforeIf s.pos)
  | [], _, _, c, h, _ => by
    obtain ⟨-, rfl⟩ := h.eq_of_nil
    exact ⟨fun _ => ⟨[], c, rfl⟩, by simp⟩
  | s :: siblings, _, _, c, h, hc => by
    rw [finishSiblings, Sibling.chains_cons, finishChains]
    rcases h.cons_cases with ⟨hs, more, rfl, -⟩ | ⟨hs, more, rfl, hmore⟩
    · refine ⟨by simp, fun s' hs' => fails_bind.2 (.inl ?_)⟩
      obtain rfl := Option.some.inj hs'
      rw [finishChain, if_pos hs, fails_reject]
    · obtain ⟨items, c₁, hitems⟩ := exists_yields_finishChain hs (s.alternatives siblings) hc
      obtain ⟨ds, hadds, -⟩ := finishChain_yields hitems
      obtain ⟨hyields, hfails⟩ := finishSiblings_run hmore (hadds.frames_ne_nil hc)
      refine ⟨fun hnone => ?_, fun s' hs' => ?_⟩
      · obtain ⟨later, c', hlater⟩ := hyields hnone
        exact ⟨items ++ later, c', yields_bind.2 ⟨items, c₁, hitems, yields_bind.2
          ⟨later, c', hlater, yields_pure.2 ⟨rfl, rfl⟩⟩⟩⟩
      · exact fails_bind.2 (.inr ⟨items, c₁, hitems, fails_bind.2 (.inl (hfails s' hs'))⟩)
termination_by siblings => siblings.length

end CompileM

open CompileM in
/-- Siblings fall into segments in one way. Where a frame is open, they are finished segment by
segment if no alternative is left over, each sibling once and in its place, and otherwise the first
that is left over is reported. To go through them by an index comes to the same. -/
theorem segments_finished (env : Env) (siblings : List Sibling) :
    takeSiblings env siblings 0 = finishSiblings env siblings ∧
    ∃ segments strays, Sibling.Segmented siblings segments strays ∧
      (∀ segments' strays', Sibling.Segmented siblings segments' strays' →
        segments' = segments ∧ strays' = strays) ∧
      ∀ c : Context, c.scope.frames ≠ [] →
        (strays = [] → segments.flatten = siblings ∧
          ∃ items c' ds, Yields (finishSiblings env siblings) c items c' ∧ Adds env c c' ds ∧
            FinishesChains env.config segments items ds c.numbering c'.numbering) ∧
        ∀ s ∈ strays.head?,
          Fails (finishSiblings env siblings) c (.violation .elseBeforeIf s.pos) := by
  obtain ⟨segments, strays, h⟩ := Sibling.Segmented.exists_segments siblings
  refine ⟨takeSiblings_eq env siblings 0, segments, strays, h, fun _ _ h' => h.unique h',
    fun c hc => ?_⟩
  obtain ⟨hyields, hfails⟩ := @finishSiblings_run env _ _ _ c h hc
  refine ⟨fun hnone => ?_, hfails⟩
  subst hnone
  obtain ⟨items, c', hitems⟩ := hyields rfl
  obtain ⟨ds, hadds, hfinishes⟩ := finishChains_yields hitems
  have hsegments := h.chains_eq
  rw [hsegments] at hfinishes
  refine ⟨?_, items, c', ds, hitems, hadds, hfinishes⟩
  rw [← hsegments, Sibling.chains, List.flatten_splitBy]

/-- A sibling with a condition, its alternative, and one beside them. -/
def conditionalSiblings : List Sibling :=
  [⟨⟨.text "if", false, false, none⟩, ⟨none, none⟩, false, .guarded (.ref "a")⟩,
    ⟨⟨.text "else", false, false, none⟩, ⟨none, none⟩, true, .fixed⟩,
    ⟨⟨.text "beside", false, false, none⟩, ⟨none, none⟩, false, .fixed⟩]

theorem segments_finished_conditional :
    Sibling.Segmented conditionalSiblings
        [conditionalSiblings.take 2, conditionalSiblings.drop 2] [] ∧
      ∃ items c', CompileM.Yields (CompileM.finishSiblings .default conditionalSiblings)
        { Context.initial with scope := Scope.empty.enter [] } items c' := by
  have hbeside : Sibling.Segmented (conditionalSiblings.drop 2) [conditionalSiblings.drop 2] [] :=
    @Sibling.Segmented.segment _ [] [] _ _ rfl (List.isChain_singleton _) (by simp) .nil
  have hsegmented : Sibling.Segmented conditionalSiblings
      [conditionalSiblings.take 2, conditionalSiblings.drop 2] [] := by
    refine @Sibling.Segmented.segment _ [_] _ _ _ rfl ?_ ?_ hbeside
    · simp [Sibling.continues, Sibling.takesAlternative]
    · simp [Sibling.continues]
  obtain ⟨-, _, _, -, hunique, hfinished⟩ := segments_finished .default conditionalSiblings
  obtain ⟨rfl, rfl⟩ := hunique _ _ hsegmented
  obtain ⟨-, items, c', _, hyields, -⟩ :=
    (hfinished { Context.initial with scope := Scope.empty.enter [] } (by simp [Scope.enter])).1 rfl
  exact ⟨hsegmented, items, c', hyields⟩

end TemplateCompiler
