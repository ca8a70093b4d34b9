import TemplateCompiler.Loop.Statement
import TemplateCompiler.Proofs.Gaps
import TemplateCompiler.Proofs.Identifiers

/-!
# How a for statement is taken apart

A text is split where a separator begins (`splitSeparator_eq_some`), and nowhere behind the first
that there is (`exists_splitSeparator`). It is read if what stands before the separator names
parameters that may be bound, all different, and something stands behind it (`parse_eq_ok_iff`).
-/

namespace TemplateCompiler

namespace IsWord

variable {s : String}

theorem isFlush (h : IsWord s) (more : List Char) : IsFlush (s.toList ++ more) := by
  rw [Text.isFlush_append h.1]
  exact fun c hc => h.2 c (List.mem_of_mem_head? hc)

theorem isFlush_reverse (h : IsWord s) : IsFlush s.toList.reverse := fun c hc =>
  h.2 c (List.mem_reverse.1 (List.mem_of_mem_head? hc))

end IsWord

namespace ForStatement

/-! ## Separators -/

theorem afterSeparator_cons (c : Char) (rest : List Char) : afterSeparator (c :: rest) =
    if isBlank c then afterWord (rest.dropWhile isBlank) else none := rfl

theorem afterSeparator_of_not_isBlank {c : Char} (h : isBlank c = false) (rest : List Char) :
    afterSeparator (c :: rest) = none := by
  rw [afterSeparator_cons, if_neg (by rw [h]; exact Bool.false_ne_true)]

theorem splitSeparator_cons (c : Char) (rest : List Char) : splitSeparator (c :: rest) =
    ((afterSeparator (c :: rest)).map fun tail => ([], tail)).or
      ((splitSeparator rest).map fun found => (c :: found.1, found.2)) := by
  conv => lhs; unfold splitSeparator
  cases afterSeparator (c :: rest) <;> rfl

/-- The words that separate a target from what is iterated over. -/
def separators : List String := ["in", "of"]

theorem afterWord_eq_some {s tail : List Char} (h : afterWord s = some tail) :
    ∃ word ∈ separators, ∃ c rest, s = word.toList ++ c :: rest ∧ isBlank c ∧
      tail = rest.dropWhile isBlank := by
  unfold afterWord at h
  split at h
  · split at h
    · rename_i c rest hc
      exact ⟨"in", by simp [separators], c, rest, rfl, hc, (Option.some.inj h).symm⟩
    · simp at h
  · split at h
    · rename_i c rest hc
      exact ⟨"of", by simp [separators], c, rest, rfl, hc, (Option.some.inj h).symm⟩
    · simp at h
  · simp at h

theorem afterWord_append {word : String} (hword : word ∈ separators) {c : Char} (hc : isBlank c)
    (rest : List Char) : afterWord (word.toList ++ c :: rest) = some (rest.dropWhile isBlank) := by
  simp only [separators, List.mem_cons, List.not_mem_nil, or_false] at hword
  rcases hword with rfl | rfl <;> exact if_pos hc

theorem isFlush_separator {word : String} (hword : word ∈ separators) (rest : List Char) :
    IsFlush (word.toList ++ rest) := by
  simp only [separators, List.mem_cons, List.not_mem_nil, or_false] at hword
  rcases hword with rfl | rfl
  · exact Text.isFlush_cons (c := 'i') (by decide) ('n' :: rest)
  · exact Text.isFlush_cons (c := 'o') (by decide) ('f' :: rest)

theorem afterSeparator_gap {gap s : List Char} (hgap : IsGap gap) (hne : gap ≠ [])
    (hs : IsFlush s) : afterSeparator (gap ++ s) = afterWord s := by
  obtain ⟨c, rest, rfl⟩ := List.exists_cons_of_ne_nil hne
  have hrest : IsGap rest := fun d hd => hgap d (List.mem_cons_of_mem _ hd)
  rw [List.cons_append, afterSeparator_cons, if_pos (hgap c List.mem_cons_self),
    Text.dropWhile_gap hrest hs]

theorem afterSeparator_word {gap : List Char} (hgap : IsGap gap) (hne : gap ≠ []) {word : String}
    (hword : word ∈ separators) {c : Char} (hc : isBlank c) (rest : List Char) :
    afterSeparator (gap ++ (word.toList ++ c :: rest)) = some (rest.dropWhile isBlank) := by
  rw [afterSeparator_gap hgap hne (isFlush_separator hword _), afterWord_append hword hc]

theorem afterSeparator_eq_some {s tail : List Char} (h : afterSeparator s = some tail) :
    ∃ left word right, s = left ++ (word.toList ++ (right ++ tail)) ∧ left ≠ [] ∧ IsGap left ∧
      word ∈ separators ∧ right ≠ [] ∧ IsGap right ∧ IsFlush tail := by
  rcases s with _ | ⟨c, rest⟩
  · simp [afterSeparator] at h
  rw [afterSeparator_cons] at h
  split at h
  · rename_i hc
    obtain ⟨word, hword, d, more, hrest, hd, rfl⟩ := afterWord_eq_some h
    refine ⟨c :: rest.takeWhile isBlank, word, d :: more.takeWhile isBlank, ?_, by simp,
      List.forall_mem_cons.2 ⟨hc, Text.isGap_takeWhile rest⟩, hword, by simp,
      List.forall_mem_cons.2 ⟨hd, Text.isGap_takeWhile more⟩, Text.isFlush_dropWhile more⟩
    rw [List.cons_append, List.cons_append, List.takeWhile_append_dropWhile, ← hrest,
      List.takeWhile_append_dropWhile]
  · simp at h

/-- A text is split where a separator begins. -/
theorem splitSeparator_eq_some {s head tail : List Char}
    (h : splitSeparator s = some (head, tail)) :
    ∃ rest, s = head ++ rest ∧ afterSeparator rest = some tail := by
  induction s generalizing head with
  | nil => cases h
  | cons c rest ih =>
    rw [splitSeparator_cons] at h
    rcases hafter : afterSeparator (c :: rest) with _ | after
    · rw [hafter, Option.map_none, Option.none_or, Option.map_eq_some_iff] at h
      obtain ⟨⟨head', tail'⟩, hrest, heq⟩ := h
      rw [Prod.mk.injEq] at heq
      obtain ⟨rfl, rfl⟩ := heq
      obtain ⟨more, hmore, htail⟩ := ih hrest
      exact ⟨more, by rw [hmore, List.cons_append], htail⟩
    · rw [hafter, Option.map_some, Option.some_or, Option.some.injEq, Prod.mk.injEq] at h
      obtain ⟨rfl, rfl⟩ := h
      exact ⟨c :: rest, rfl, hafter⟩

/-- Where a separator begins, the text is split there or before. -/
theorem exists_splitSeparator {rest : List Char} (h : (afterSeparator rest).isSome) :
    ∀ before : List Char, ∃ head tail, splitSeparator (before ++ rest) = some (head, tail) ∧
      head <+: before
  | [] => by
    rcases rest with _ | ⟨c, rest⟩
    · simp [afterSeparator] at h
    · obtain ⟨tail, htail⟩ := Option.isSome_iff_exists.1 h
      exact ⟨[], tail, by rw [List.nil_append, splitSeparator_cons, htail]; rfl, List.prefix_rfl⟩
  | c :: before => by
    obtain ⟨head, tail, hsplit, hstart⟩ := exists_splitSeparator h before
    rw [List.cons_append, splitSeparator_cons, hsplit]
    rcases afterSeparator (c :: (before ++ rest)) with _ | tail'
    · exact ⟨c :: head, tail, rfl, List.cons_prefix_cons.2 ⟨rfl, hstart⟩⟩
    · exact ⟨[], tail', rfl, List.nil_prefix⟩

/-! ## Targets -/

/-- The characters that a target is put together with are in no identifier. -/
theorem groupMembers?_bracketed (inner : List Char) :
    groupMembers? ('(' :: (inner ++ [')'])) =
      let parts := Text.pieces ',' inner
      if (parts.length == 2 || parts.length == 3) && parts.all (fun part => !part.isEmpty) &&
          !inner.contains '(' && !inner.contains ')' then
        some (parts.map groupMember)
      else none := by
  simp only [groupMembers?, List.getLast?_concat, List.dropLast_concat, if_true]

theorem groupMembers?_eq_some {target : List Char} {members : List (List Char)}
    (h : groupMembers? target = some members) :
    ∃ parts : List (List Char), (parts.length = 2 ∨ parts.length = 3) ∧
      target = '(' :: ([','].intercalate parts ++ [')']) ∧ members = parts.map groupMember := by
  unfold groupMembers? at h
  split at h
  · rename_i rest
    split at h
    · rename_i hlast
      dsimp only at h
      split at h
      · rename_i hparts
        simp only [Bool.and_eq_true, Bool.or_eq_true, beq_iff_eq] at hparts
        refine ⟨Text.pieces ',' rest.dropLast, hparts.1.1.1, ?_, (Option.some.inj h).symm⟩
        rw [Text.intercalate_pieces, List.dropLast_append_getLast? ')' hlast]
      · simp at h
    · simp at h
  · simp at h

theorem groupMembers?_of_isIdentifier {a : String} (ha : isIdentifier a) :
    groupMembers? a.toList = none := by
  rcases hgroup : groupMembers? a.toList with _ | members
  · rfl
  · obtain ⟨parts, -, htarget, -⟩ := groupMembers?_eq_some hgroup
    have hopen : '(' ∉ a.toList := notMem_of_isIdentifier ha (by decide)
    exact absurd (htarget ▸ List.mem_cons_self) hopen

theorem length_targetParameters (target : List Char) :
    1 ≤ (targetParameters target).length ∧ (targetParameters target).length ≤ 3 := by
  unfold targetParameters
  rcases hgroup : groupMembers? target with _ | members
  · simp
  · obtain ⟨parts, hlength, -, rfl⟩ := groupMembers?_eq_some hgroup
    rw [Option.getD_some, List.length_map, List.length_map]
    omega

/-! ## Statements -/

section

variable {text : String}

/-- A text that is split into names and an iterable is read if the names differ. -/
theorem parse_of_splitSeparator {iterable : String} {target rest : List Char}
    (hsplit : splitSeparator (Text.trimLeft isBlank text.toList) = some (target, rest))
    (htrim : Text.trimRight isBlank rest = iterable.toList) (hne : iterable.toList ≠ [])
    (hidentifiers : ∀ p ∈ targetParameters target, isIdentifier p) :
    parse text =
      if (targetParameters target).Nodup then .ok ⟨iterable, targetParameters target⟩
      else .error (.sameParameters text) := by
  have hnone : (targetParameters target).find? (fun p => !isIdentifier p) = none := by
    simpa using hidentifiers
  rw [parse, hsplit]
  dsimp only
  rw [htrim, if_neg (by simpa using hne), hnone, String.ofList_toList]

theorem parse_eq_ok_iff {s : ForStatement} : parse text = .ok s ↔
    ∃ target rest, splitSeparator (Text.trimLeft isBlank text.toList) = some (target, rest) ∧
      Text.trimRight isBlank rest = s.iterable.toList ∧ s.iterable.toList ≠ [] ∧
      targetParameters target = s.parameters ∧ (∀ p ∈ s.parameters, isIdentifier p) ∧
      s.parameters.Nodup := by
  constructor
  · intro h
    unfold parse at h
    split at h
    · simp at h
    rename_i target rest hsplit
    dsimp only at h
    split at h
    · simp at h
    rename_i hne
    rw [List.isEmpty_iff] at hne
    split at h
    · simp at h
    rename_i hnone
    split at h
    · rename_i hnodup
      obtain rfl := Except.ok.inj h
      exact ⟨target, rest, hsplit, String.toList_ofList.symm, by rwa [String.toList_ofList], rfl,
        by simpa using hnone, hnodup⟩
    · simp at h
  · rintro ⟨target, rest, hsplit, htrim, hne, hparameters, hidentifiers, hnodup⟩
    rw [parse_of_splitSeparator hsplit htrim hne (hparameters ▸ hidentifiers), hparameters,
      if_pos hnodup]

end

end ForStatement

end TemplateCompiler
