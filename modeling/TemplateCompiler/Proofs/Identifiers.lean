import TemplateCompiler.Binding

/-!
# The characters of names

An identifier has characters that continue one, and so has each segment of a path and each part of
a dashed name. None of them is white space (`not_isBlank_of_isContinue`), so no text of that kind
has any.
-/

namespace TemplateCompiler

/-- The code points of white space. -/
def blankCodes : List Nat :=
  [9, 10, 11, 12, 13, 28, 29, 30, 31, 32, 0x85, 0xA0, 0x1680, 0x2000, 0x2001, 0x2002, 0x2003,
   0x2004, 0x2005, 0x2006, 0x2007, 0x2008, 0x2009, 0x200A, 0x2028, 0x2029, 0x202F, 0x205F, 0x3000]

theorem mem_blankCodes {c : Char} (h : isBlank c) : c.toNat ∈ blankCodes := by
  simp only [isBlank, Bool.or_eq_true, Bool.and_eq_true, decide_eq_true_eq, beq_iff_eq] at h
  simp only [blankCodes, List.mem_cons, List.not_mem_nil, or_false]
  omega

theorem not_isBlank_of_isContinue {c : Char} (h : Identifier.isContinue c) : isBlank c = false := by
  have hcodes : ∀ n ∈ blankCodes, Identifier.isContinue (Char.ofNat n) = false := by
    decide +kernel
  refine Bool.eq_false_iff.2 fun hblank => ?_
  have := hcodes _ (mem_blankCodes hblank)
  rw [Char.ofNat_toNat, h] at this
  exact Bool.noConfusion this

/-! ## Identifiers -/

theorem Identifier.isContinue_of_mem {s : String} (h : Identifier.hasShape s) {c : Char}
    (hc : c ∈ s.toList) : Identifier.isContinue c := by
  unfold Identifier.hasShape at h
  rcases hs : s.toList with _ | ⟨first, rest⟩
  · simp [hs] at hc
  · simp only [hs, Bool.and_eq_true, List.all_eq_true] at h
    rw [hs] at hc
    rcases List.mem_cons.1 hc with rfl | hc
    · exact Identifier.isContinue_of_isStart h.1
    · exact h.2 c hc

theorem Identifier.notMem_of_hasShape {s : String} (h : hasShape s) {c : Char}
    (hc : isContinue c = false) : c ∉ s.toList := fun hmem =>
  Bool.eq_false_iff.1 hc (isContinue_of_mem h hmem)

theorem Identifier.toList_ne_nil {s : String} (h : Identifier.hasShape s) : s.toList ≠ [] := by
  intro hs
  simp [Identifier.hasShape, hs] at h

theorem hasShape_of_isIdentifier {s : String} (h : isIdentifier s) : Identifier.hasShape s := by
  rw [isIdentifier, Bool.and_eq_true] at h
  exact h.1

theorem notMem_of_isIdentifier {s : String} (h : isIdentifier s) {c : Char}
    (hc : Identifier.isContinue c = false) : c ∉ s.toList :=
  Identifier.notMem_of_hasShape (hasShape_of_isIdentifier h) hc

/-! ## Texts without white space -/

namespace Text

theorem dropWhile_isBlank {s : List Char} (hne : s ≠ []) (h : ∀ c ∈ s, isBlank c = false)
    (rest : List Char) : (s ++ rest).dropWhile isBlank = s ++ rest := by
  obtain ⟨c, more, rfl⟩ := List.exists_cons_of_ne_nil hne
  rw [List.cons_append, List.dropWhile_cons_of_neg (by simp [h c List.mem_cons_self])]

theorem strip_of_not_isBlank {s : List Char} (hne : s ≠ []) (h : ∀ c ∈ s, isBlank c = false) :
    strip s = s := by
  have hleft := dropWhile_isBlank hne h []
  have hright := dropWhile_isBlank (List.reverse_ne_nil_iff.2 hne)
    (fun c hc => h c (List.mem_reverse.1 hc)) []
  rw [List.append_nil] at hleft hright
  rw [strip, trimLeft, hleft, trimRight, hright, List.reverse_reverse]

end Text

/-- A text of at least one character, none of them white space. -/
def IsWord (s : String) : Prop :=
  s.toList ≠ [] ∧ ∀ c ∈ s.toList, isBlank c = false

theorem IsWord.stripped {s : String} (h : IsWord s) : Text.stripped s = s := by
  rw [Text.stripped, Text.strip_of_not_isBlank h.1 h.2, String.ofList_toList]

theorem isWord_of_isIdentifier {s : String} (h : isIdentifier s) : IsWord s :=
  ⟨Identifier.toList_ne_nil (hasShape_of_isIdentifier h), fun _ hc =>
    not_isBlank_of_isContinue (Identifier.isContinue_of_mem (hasShape_of_isIdentifier h) hc)⟩

/-- A text without white space between its separators has none. -/
theorem not_isBlank_of_pieces {separator : Char} (hseparator : isBlank separator = false)
    {s : String} (h : ∀ piece ∈ Text.split separator s, ∀ c ∈ piece.toList, isBlank c = false) :
    ∀ c ∈ s.toList, isBlank c = false := by
  intro c hc
  by_cases hne : c = separator
  · rw [hne, hseparator]
  · obtain ⟨piece, hp, hmem⟩ := Text.exists_piece_of_mem hc hne
    exact h _ (List.mem_map_of_mem hp) c (by rwa [String.toList_ofList])

theorem isWord_of_identifierPath? {s : String} (h : (identifierPath? s).isSome) : IsWord s := by
  have hsegments : ∀ segment ∈ Text.split '.' s, isIdentifier segment := by
    unfold identifierPath? at h
    dsimp only at h
    split at h
    · rename_i hall
      exact List.all_eq_true.1 hall
    · simp at h
  refine ⟨fun hnil => ?_, not_isBlank_of_pieces (by decide) fun segment hs =>
    (isWord_of_isIdentifier (hsegments segment hs)).2⟩
  have := hsegments "" (by simp [Text.split, hnil, Text.pieces])
  exact absurd this (by decide)

theorem isWord_of_isDashed {s : String} (h : Binding.isDashed s) : IsWord s := by
  simp only [Binding.isDashed, Bool.and_eq_true, List.all_eq_true, Bool.or_eq_true] at h
  have hdash : isBlank '-' = false := by decide
  refine ⟨fun hnil => by simp [hnil] at h, not_isBlank_of_pieces hdash fun part hp c hc => ?_⟩
  rcases h.2 part hp with hempty | hshape
  · rw [String.isEmpty_iff] at hempty
    simp [hempty] at hc
  · exact not_isBlank_of_isContinue (Identifier.isContinue_of_mem hshape hc)

end TemplateCompiler
