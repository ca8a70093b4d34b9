import Mathlib.Data.List.Basic
import Mathlib.Data.List.TakeWhile
import TemplateCompiler.Text.Blank

/-!
# White space around a text

A text that neither begins nor ends with white space is what is left of it when white space is put
around it and stripped (`strip_gaps`).
-/

namespace TemplateCompiler

/-- White space, if anything. -/
def IsGap (s : List Char) : Prop :=
  ∀ c ∈ s, isBlank c

instance (s : List Char) : Decidable (IsGap s) :=
  List.decidableBAll _ s

theorem isGap_nil : IsGap [] := by decide

theorem isGap_space : IsGap [' '] := by decide

/-- A text that does not begin with white space. -/
def IsFlush (s : List Char) : Prop :=
  ∀ c ∈ s.head?, isBlank c = false

instance (s : List Char) : Decidable (IsFlush s) :=
  Option.decidableForallMem s.head?

namespace Text

theorem isGap_takeWhile (s : List Char) : IsGap (s.takeWhile isBlank) := fun _ =>
  List.mem_takeWhile_imp

theorem isFlush_cons {c : Char} (h : isBlank c = false) (rest : List Char) : IsFlush (c :: rest) :=
  fun _ hd => Option.mem_some.1 hd ▸ h

theorem isFlush_dropWhile (s : List Char) : IsFlush (s.dropWhile isBlank) := by
  intro c hc
  have hhead := List.head?_dropWhile_not isBlank s
  rwa [Option.mem_def.1 hc] at hhead

theorem dropWhile_of_isFlush {s : List Char} (h : IsFlush s) : s.dropWhile isBlank = s := by
  rcases s with _ | ⟨c, rest⟩
  · rfl
  · rw [List.dropWhile_cons_of_neg (by simp [h c rfl])]

theorem dropWhile_gap {gap s : List Char} (hgap : IsGap gap) (hs : IsFlush s) :
    (gap ++ s).dropWhile isBlank = s := by
  rw [List.dropWhile_append_of_pos hgap, dropWhile_of_isFlush hs]

theorem isFlush_append {s : List Char} (hne : s ≠ []) (more : List Char) :
    IsFlush (s ++ more) ↔ IsFlush s := by
  obtain ⟨c, rest, rfl⟩ := List.exists_cons_of_ne_nil hne
  rfl

/-- White space reaches no further than to a text that does not begin with any. -/
theorem length_gap_le {gap s more t : List Char} (hgap : IsGap gap) (ht : IsFlush t)
    (h : gap ++ s = more ++ t) : gap.length ≤ more.length := by
  obtain ⟨rest, rfl, -⟩ | ⟨rest, rfl, rfl⟩ := List.append_eq_append_iff.1 h
  · rw [List.length_append]
    omega
  · rcases rest with _ | ⟨c, rest⟩
    · rw [List.append_nil]
    · have hc := hgap c (by simp)
      exact absurd hc (by simp [ht c rfl])

theorem trimRight_gap {s gap : List Char} (hgap : IsGap gap) (hs : IsFlush s.reverse) :
    trimRight isBlank (s ++ gap) = s := by
  rw [trimRight, List.reverse_append, dropWhile_gap (fun c hc => hgap c (List.mem_reverse.1 hc)) hs,
    List.reverse_reverse]

/-- The white space around a text is stripped from it, and nothing else. -/
theorem strip_gaps {left s right : List Char} (hleft : IsGap left) (hright : IsGap right)
    (hs : IsFlush s) (hs' : IsFlush s.reverse) : strip (left ++ (s ++ right)) = s := by
  rcases eq_or_ne s [] with rfl | hne
  · have hblank : ∀ c ∈ left ++ right, isBlank c :=
      List.forall_mem_append.2 ⟨hleft, hright⟩
    rw [List.nil_append, strip, trimLeft, List.dropWhile_eq_nil_iff.2 hblank]
    rfl
  · rw [strip, trimLeft, dropWhile_gap hleft ((isFlush_append hne right).2 hs),
      trimRight_gap hright hs']

/-- White space at the end of a text is cut off, and all else is kept. -/
theorem exists_trimRight (s : List Char) : ∃ gap, s = trimRight isBlank s ++ gap ∧ IsGap gap ∧
    IsFlush (trimRight isBlank s).reverse := by
  refine ⟨(s.reverse.takeWhile isBlank).reverse, ?_, fun c hc => ?_, ?_⟩
  · rw [trimRight, ← List.reverse_append, List.takeWhile_append_dropWhile, List.reverse_reverse]
  · exact isGap_takeWhile _ c (List.mem_reverse.1 hc)
  · rw [trimRight, List.reverse_reverse]
    exact isFlush_dropWhile _

end Text

end TemplateCompiler
