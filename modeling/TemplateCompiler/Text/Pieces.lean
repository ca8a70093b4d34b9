/-!
# Pieces of a text

A text is cut at every occurrence of a separator, so there is always one piece more than there are
separators; `cut` is the same at the first occurrence only.
-/

namespace TemplateCompiler.Text

def pieces (separator : Char) : List Char → List (List Char)
  | [] => [[]]
  | c :: rest =>
    if c = separator then [] :: pieces separator rest
    else match pieces separator rest with
      | [] => [[c]]
      | piece :: more => (c :: piece) :: more

/-- The pieces of a text, as texts. -/
def split (separator : Char) (s : String) : List String :=
  (pieces separator s.toList).map String.ofList

/-- What stands before and after the first separator; nothing stands after a missing one. -/
def cut (separator : Char) : List Char → List Char × Option (List Char)
  | [] => ([], none)
  | c :: rest =>
    if c = separator then ([], some rest)
    else ((c :: (cut separator rest).1), (cut separator rest).2)

theorem pieces_ne_nil (separator : Char) (s : List Char) : pieces separator s ≠ [] := by
  cases s with
  | nil => simp [pieces]
  | cons c rest =>
    rw [pieces]
    split
    · simp
    · split <;> simp

theorem length_pieces (separator : Char) (s : List Char) :
    (pieces separator s).length = s.count separator + 1 := by
  induction s with
  | nil => rfl
  | cons c rest ih =>
    rw [pieces]
    split
    · rename_i h
      subst h
      simp [ih]
    · rename_i h
      rw [List.count_cons_of_ne h]
      split
      · rename_i hp
        exact absurd hp (pieces_ne_nil separator rest)
      · rename_i hp
        rw [hp] at ih
        simpa using ih

theorem pieces_eq_singleton {separator : Char} {s : List Char} (h : separator ∉ s) :
    pieces separator s = [s] := by
  induction s with
  | nil => rfl
  | cons c rest ih =>
    rw [List.mem_cons, not_or] at h
    rw [pieces, if_neg (Ne.symm h.1), ih h.2]

/-- A separator is where the pieces before it end and those after it begin. -/
theorem pieces_append_separator (separator : Char) (s rest : List Char) :
    pieces separator (s ++ separator :: rest) = pieces separator s ++ pieces separator rest := by
  induction s with
  | nil => simp [pieces]
  | cons c more ih =>
    rw [List.cons_append, pieces, ih, pieces]
    split
    · rfl
    · rcases hmore : pieces separator more with _ | ⟨piece, pieces⟩
      · exact absurd hmore (pieces_ne_nil separator more)
      · rfl

/-- What stands before the first separator is the first piece. -/
theorem pieces_append {separator : Char} {s : List Char} (h : separator ∉ s) (rest : List Char) :
    pieces separator (s ++ separator :: rest) = s :: pieces separator rest := by
  rw [pieces_append_separator, pieces_eq_singleton h, List.singleton_append]

theorem intercalate_pieces (separator : Char) (s : List Char) :
    [separator].intercalate (pieces separator s) = s := by
  induction s with
  | nil => rfl
  | cons c rest ih =>
    rw [pieces]
    split
    · rename_i h
      rw [List.intercalate_cons_of_ne_nil (pieces_ne_nil separator rest), ih, h]
      rfl
    · split
      · rename_i hp
        exact absurd hp (pieces_ne_nil separator rest)
      · rename_i hp
        rw [hp] at ih
        rw [List.intercalate_cons_cons_left, ih]

/-- Parts without the separator are what the text of all of them is cut into. -/
theorem pieces_intercalate {separator : Char} {parts : List (List Char)} (hne : parts ≠ [])
    (h : ∀ part ∈ parts, separator ∉ part) :
    pieces separator ([separator].intercalate parts) = parts := by
  induction parts with
  | nil => exact absurd rfl hne
  | cons part rest ih =>
    rw [List.forall_mem_cons] at h
    rcases rest with _ | ⟨next, rest⟩
    · simpa using pieces_eq_singleton h.1
    · rw [List.intercalate_cons_cons, List.append_assoc, List.singleton_append,
        pieces_append h.1, ih (List.cons_ne_nil next rest) h.2]

theorem exists_piece_of_mem {separator c : Char} :
    ∀ {s : List Char}, c ∈ s → c ≠ separator → ∃ piece ∈ pieces separator s, c ∈ piece
  | x :: rest, hc, hne => by
    rw [pieces]
    by_cases hx : x = separator
    · obtain ⟨piece, hp, hmem⟩ := exists_piece_of_mem ((List.mem_cons.1 hc).resolve_left
        (hx ▸ hne)) hne
      exact ⟨piece, by simp [hx, hp], hmem⟩
    · rw [if_neg hx]
      rcases hrest : pieces separator rest with _ | ⟨head, more⟩
      · exact absurd hrest (pieces_ne_nil separator rest)
      · rcases List.mem_cons.1 hc with rfl | hc
        · exact ⟨_, List.mem_cons_self, List.mem_cons_self⟩
        · obtain ⟨piece, hp, hmem⟩ := exists_piece_of_mem hc hne
          rw [hrest] at hp
          rcases List.mem_cons.1 hp with rfl | hp
          · exact ⟨_, List.mem_cons_self, List.mem_cons_of_mem _ hmem⟩
          · exact ⟨piece, List.mem_cons_of_mem _ hp, hmem⟩

theorem mem_of_mem_pieces {separator c : Char} :
    ∀ {s piece : List Char}, piece ∈ pieces separator s → c ∈ piece → c ∈ s ∧ c ≠ separator
  | [], piece, hp, hc => by
    rw [pieces, List.mem_singleton] at hp
    simp [hp] at hc
  | x :: rest, piece, hp, hc => by
    rw [pieces] at hp
    split at hp
    · rcases List.mem_cons.1 hp with rfl | hp
      · simp at hc
      · exact (mem_of_mem_pieces hp hc).imp_left (List.mem_cons_of_mem _)
    · rename_i hx
      rcases hrest : pieces separator rest with _ | ⟨head, more⟩
      · exact absurd hrest (pieces_ne_nil _ _)
      · have hrec : ∀ {piece}, piece ∈ head :: more → c ∈ piece → c ∈ rest ∧ c ≠ separator :=
          fun hp hc => mem_of_mem_pieces (hrest ▸ hp) hc
        rw [hrest] at hp
        rcases List.mem_cons.1 hp with rfl | hp
        · rcases List.mem_cons.1 hc with rfl | hc
          · exact ⟨List.mem_cons_self, hx⟩
          · exact (hrec List.mem_cons_self hc).imp_left (List.mem_cons_of_mem _)
        · exact (hrec (List.mem_cons_of_mem _ hp) hc).imp_left (List.mem_cons_of_mem _)

end TemplateCompiler.Text
