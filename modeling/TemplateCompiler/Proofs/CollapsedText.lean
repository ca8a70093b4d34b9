import Mathlib.Data.List.Forall2
import Mathlib.Data.List.TakeWhile
import TemplateCompiler.Text.Collapse

/-!
# What collapsed text is

Text collapses to its lines that stay, with one space between any two of them: each line with its
tabs as spaces and trimmed where it meets another, unless nothing is left of it
(`collapseLines_eq`). So what is no white space stays, in its order, nothing comes in but the spaces
between lines, and a text that is collapsed collapses to itself (`collapse_joined`). A text of
spaces, tabs, carriage returns and line feeds collapses to nothing where it breaks a line, and
otherwise only if it is empty (`collapse_isEmpty_iff`).
-/

namespace TemplateCompiler

namespace Text

/-! ## Lines that stay -/

/-- A text with its tabs as spaces. -/
def spaced (s : List Char) : List Char :=
  s.map fun c => if c = '\t' then ' ' else c

/-- The lines behind the first, trimmed on the left, and on the right where another one follows. -/
def trimmedRest : List (List Char) → List (List Char)
  | [] => []
  | [last] => [trimLeft isEdge (spaced last)]
  | line :: next :: rest =>
    trimRight isEdge (trimLeft isEdge (spaced line)) :: trimmedRest (next :: rest)

/-- All lines, trimmed where they meet another. -/
def trimmed : List (List Char) → List (List Char)
  | [] => []
  | [only] => [spaced only]
  | first :: next :: rest => trimRight isEdge (spaced first) :: trimmedRest (next :: rest)

def keptLines (s : List Char) : List (List Char) :=
  (trimmed (pieces '\n' s)).filter fun line => !line.isEmpty

/-- A line with its index, trimmed as one of so many. -/
def trimAt (count : Nat) (line : List Char × Nat) : List Char :=
  trimLine (line.2 == 0) (line.2 + 1 == count) line.1

theorem trimmedRest_eq {count : Nat} : ∀ {lines : List (List Char)} {k : Nat}, 0 < k →
    k + lines.length = count → trimmedRest lines = (lines.zipIdx k).map (trimAt count)
  | [], _, _, _ => rfl
  | [last], k, hk, hcount => by
    have hfirst : (k == 0) = false := beq_eq_false_iff_ne.2 hk.ne'
    have hlast : (k + 1 == count) = true := beq_iff_eq.2 hcount
    rw [trimmedRest, List.zipIdx_cons, List.map_cons, trimAt, hfirst, hlast]
    rfl
  | line :: next :: rest, k, hk, hcount => by
    have hfirst : (k == 0) = false := beq_eq_false_iff_ne.2 hk.ne'
    have hrest : k + 1 + (next :: rest).length = count := by
      rw [← hcount, List.length_cons (a := line)]
      omega
    have hlast : (k + 1 == count) = false := by
      rw [List.length_cons] at hrest
      exact beq_eq_false_iff_ne.2 (by omega)
    have hline : trimAt count (line, k) = trimRight isEdge (trimLeft isEdge (spaced line)) := by
      rw [trimAt, hfirst, hlast]
      rfl
    rw [trimmedRest, trimmedRest_eq k.succ_pos hrest, List.zipIdx_cons (a := line), List.map_cons,
      hline]

theorem trimmed_eq : ∀ lines : List (List Char),
    trimmed lines = lines.zipIdx.map (trimAt lines.length)
  | [] => rfl
  | [_] => rfl
  | first :: next :: rest => by
    have hrest : 1 + (next :: rest).length = (first :: next :: rest).length := by
      rw [List.length_cons (a := first), Nat.add_comm]
    have hline : trimAt (first :: next :: rest).length (first, 0) =
        trimRight isEdge (spaced first) := by
      have hlast : (0 + 1 == (first :: next :: rest).length) = false := by simp
      rw [trimAt, hlast]
      rfl
    rw [trimmed, trimmedRest_eq Nat.one_pos hrest, List.zipIdx_cons (a := first), List.map_cons,
      hline]

/-- What a text may be laid out with. -/
def isLayout (c : Char) : Bool :=
  c = ' ' || c = '\t' || c = '\r' || c = '\n'

theorem trimLeft_eq_nil {p : Char → Bool} {s : List Char} (h : ∀ c ∈ s, p c) : trimLeft p s = [] :=
  List.dropWhile_eq_nil_iff.2 h

theorem trimRight_eq_nil {p : Char → Bool} {s : List Char} (h : ∀ c ∈ s, p c) :
    trimRight p s = [] := by
  rw [trimRight, List.dropWhile_eq_nil_iff.2 (by simpa using h), List.reverse_nil]

/-- A line trimmed on its left, unless it is the first one. -/
def trimmedStart (first : Bool) (line : List Char) : List Char :=
  if first then spaced line else trimLeft isEdge (spaced line)

theorem trimLine_eq (first last : Bool) (line : List Char) : trimLine first last line =
    if last then trimmedStart first line else trimRight isEdge (trimmedStart first line) := rfl

/-- A line of blanks that meets another line is trimmed away. -/
theorem trimLine_eq_nil {first last : Bool} {line : List Char} (h : ∀ c ∈ line, isInk c = false)
    (hedge : first = false ∨ last = false) : trimLine first last line = [] := by
  have hspaced : ∀ c ∈ spaced line, isEdge c := by
    intro c hc
    obtain ⟨x, hx, rfl⟩ := List.mem_map.1 hc
    have := h x hx
    simp only [isInk, Bool.not_eq_false', Bool.or_eq_true, decide_eq_true_eq] at this
    rcases this with (rfl | rfl) | rfl <;> rfl
  rw [trimLine_eq]
  rcases first with _ | _
  · simp [trimmedStart, trimLeft_eq_nil hspaced, trimRight]
  · obtain rfl := hedge.resolve_left (by simp)
    simp [trimmedStart, trimRight_eq_nil hspaced]

theorem isInk_eq_false_of_isLayout {c : Char} (h : isLayout c) (hc : c ≠ '\n') :
    isInk c = false := by
  simp only [isLayout, Bool.or_eq_true, decide_eq_true_eq] at h
  rcases h with ((rfl | rfl) | rfl) | rfl
  · rfl
  · rfl
  · rfl
  · exact absurd rfl hc

/-- A line on its own keeps all of its characters. -/
theorem collapseLines_singleton (line : List Char) :
    collapseLines [line] = spaced line := by
  have hlast : lastInked [line] = 0 := by
    by_cases hink : line.any isInk <;> simp [lastInked, hink]
  simp [collapseLines, hlast, trimLine, spaced]

/-! ## What trimming keeps -/

section

variable {p : Char → Bool}

theorem filter_spaced (hspace : p ' ' = false) (htab : p '\t' = false) (s : List Char) :
    (spaced s).filter p = s.filter p := by
  induction s with
  | nil => rfl
  | cons c rest ih =>
    rw [spaced, List.map_cons]
    split
    · rename_i hc
      rw [List.filter_cons_of_neg (by simp [hspace]), hc,
        List.filter_cons_of_neg (by simp [htab])]
      exact ih
    · rw [List.filter_cons, List.filter_cons (x := c)]
      exact if_congr Iff.rfl (congrArg _ ih) ih

theorem filter_trimLeft {edge : Char → Bool} (h : ∀ c, edge c → p c = false) (s : List Char) :
    (trimLeft edge s).filter p = s.filter p := by
  have hnone : (s.takeWhile edge).filter p = [] := by
    rw [List.filter_eq_nil_iff]
    exact fun c hc => by simp [h c (List.mem_takeWhile_imp hc)]
  calc (s.dropWhile edge).filter p
    _ = (s.takeWhile edge ++ s.dropWhile edge).filter p := by
      rw [List.filter_append, hnone, List.nil_append]
    _ = s.filter p := by rw [List.takeWhile_append_dropWhile]

theorem filter_trimRight {edge : Char → Bool} (h : ∀ c, edge c → p c = false) (s : List Char) :
    (trimRight edge s).filter p = s.filter p := by
  have hleft := filter_trimLeft h s.reverse
  rw [trimLeft] at hleft
  rw [trimRight, List.filter_reverse, hleft, List.filter_reverse, List.reverse_reverse]

/-- What is no layout stays of a line. -/
theorem filter_trimLine (hspace : p ' ' = false) (htab : p '\t' = false) (hreturn : p '\r' = false)
    (first last : Bool) (line : List Char) :
    (trimLine first last line).filter p = line.filter p := by
  have hedge : ∀ c, isEdge c → p c = false := by
    intro c hc
    simp only [isEdge, Bool.or_eq_true, decide_eq_true_eq] at hc
    rcases hc with rfl | rfl
    · exact hspace
    · exact hreturn
  have hstart : (trimmedStart first line).filter p = line.filter p := by
    rw [trimmedStart]
    split
    · exact filter_spaced hspace htab line
    · rw [filter_trimLeft hedge, filter_spaced hspace htab]
  rw [trimLine_eq]
  split
  · exact hstart
  · rw [filter_trimRight hedge]
    exact hstart

end

theorem trimLine_ne_nil {line : List Char} (h : line.any isInk) (first last : Bool) :
    trimLine first last line ≠ [] := by
  intro hnil
  have hfilter := filter_trimLine (p := isInk) rfl rfl rfl first last line
  rw [hnil, List.filter_nil, eq_comm, List.filter_eq_nil_iff] at hfilter
  obtain ⟨c, hc, hink⟩ := List.any_eq_true.1 h
  exact hfilter c hc hink

/-! ## Lines are joined -/

section

variable {count : Nat} {line : List Char} {lines init tail : List (List Char)}

theorem trimAt_eq_nil {i : Nat} (h : line.any isInk = false) (hedge : i ≠ 0 ∨ i + 1 ≠ count) :
    trimAt count (line, i) = [] := by
  refine trimLine_eq_nil (fun c hc => ?_) (hedge.imp beq_eq_false_iff_ne.2 beq_eq_false_iff_ne.2)
  simpa using List.any_eq_false.1 h c hc

/-- The lines behind the last inked one are trimmed away. -/
theorem trimAt_tail (htail : ∀ line ∈ tail, line.any isInk = false) {k : Nat} (hk : 0 < k) :
    ∀ line ∈ tail.zipIdx k, trimAt count line = [] := by
  rintro ⟨line, i⟩ hi
  have hmem := htail line (List.fst_mem_of_mem_zipIdx hi)
  exact trimAt_eq_nil hmem (.inl (by have := List.mem_zipIdx hi; omega))

theorem exists_last_inked (h : ∃ line ∈ lines, line.any isInk) :
    ∃ init line tail, lines = init ++ line :: tail ∧ line.any isInk ∧
      ∀ line ∈ tail, line.any isInk = false := by
  obtain ⟨line, hline⟩ := Option.isSome_iff_exists.1
    (List.find?_isSome.2 (by simpa using h) : (lines.reverse.find? fun l => l.any isInk).isSome)
  obtain ⟨hink, tail, init, heq, htail⟩ := List.find?_eq_some_iff_append.1 hline
  refine ⟨init.reverse, line, tail.reverse, ?_, hink, fun l hl => ?_⟩
  · rw [← List.reverse_inj, heq]
    simp
  · simpa using htail l (List.mem_reverse.1 hl)

theorem lastInked_append (hline : line.any isInk) (htail : ∀ line ∈ tail, line.any isInk = false) :
    lastInked (init ++ line :: tail) = init.length := by
  have hnone : (tail.zipIdx (init.length + 1)).filter (fun l => l.1.any isInk) = [] := by
    rw [List.filter_eq_nil_iff]
    exact fun l hl => by simp [htail l.1 (List.fst_mem_of_mem_zipIdx hl)]
  rw [lastInked, List.zipIdx_append, List.zipIdx_cons, Nat.zero_add, List.filter_append,
    List.filter_cons_of_pos (by exact hline), hnone, List.getLast?_append]
  rfl

/-- Every part but the last brings the space behind it along. -/
theorem intercalate_append {last : List Char} (hlast : last ≠ []) :
    [' '].intercalate ((init ++ [last]).filter fun line => !line.isEmpty) =
      (init.flatMap fun line => if line.isEmpty then [] else line ++ [' ']) ++ last := by
  induction init with
  | nil => simp [hlast]
  | cons line rest ih =>
    rw [List.cons_append, List.flatMap_cons]
    cases hline : line.isEmpty
    · have hne : (rest ++ [last]).filter (fun line => !line.isEmpty) ≠ [] := by simp [hlast]
      rw [List.filter_cons_of_pos (by simp [hline]), List.intercalate_cons_of_ne_nil hne, ih]
      simp
    · rw [List.filter_cons_of_neg (by simp [hline]), ih]
      rfl

/-- A line as it is put out, with the space that follows it. -/
def glued (count last : Nat) (line : List Char × Nat) : List Char :=
  if (trimAt count line).isEmpty || line.2 == last then trimAt count line
  else trimAt count line ++ [' ']

theorem collapseLines_eq_flatMap (lines : List (List Char)) :
    collapseLines lines = lines.zipIdx.flatMap (glued lines.length (lastInked lines)) := rfl

theorem glued_eq_nil {last : Nat} {line : List Char × Nat} (h : trimAt count line = []) :
    glued count last line = [] := by
  rw [glued, h]
  rfl

theorem glued_last (last : Nat) : glued count last (line, last) = trimAt count (line, last) :=
  if_pos (by simp)

theorem glued_of_ne {last : Nat} {line : List Char × Nat} (h : line.2 ≠ last) :
    glued count last line =
      if (trimAt count line).isEmpty then [] else trimAt count line ++ [' '] := by
  rw [glued, beq_eq_false_iff_ne.2 h, Bool.or_false]
  exact ite_congr rfl List.isEmpty_iff.1 fun _ => rfl

theorem collapseLines_eq_nil (hlength : 2 ≤ lines.length)
    (h : ∀ line ∈ lines, line.any isInk = false) : collapseLines lines = [] := by
  rw [collapseLines_eq_flatMap, List.flatMap_eq_nil_iff]
  rintro ⟨line, i⟩ hi
  have hline := h line (List.fst_mem_of_mem_zipIdx hi)
  exact glued_eq_nil (trimAt_eq_nil hline (by omega))

/-- Lines of which one holds more than layout are joined by single spaces. -/
theorem collapseLines_append (hline : line.any isInk)
    (htail : ∀ line ∈ tail, line.any isInk = false) :
    collapseLines (init ++ line :: tail) =
      [' '].intercalate ((trimmed (init ++ line :: tail)).filter fun line => !line.isEmpty) := by
  rw [collapseLines_eq_flatMap, trimmed_eq, lastInked_append hline htail, List.zipIdx_append,
    List.zipIdx_cons, Nat.zero_add]
  generalize (init ++ line :: tail).length = count
  have hnil : ∀ l ∈ tail.zipIdx (init.length + 1), trimAt count l = [] :=
    trimAt_tail htail init.length.succ_pos
  have hlast : trimAt count (line, init.length) ≠ [] := trimLine_ne_nil hline _ _
  have hkept : ((tail.zipIdx (init.length + 1)).map (trimAt count)).filter
      (fun line => !line.isEmpty) = [] := by
    rw [List.filter_eq_nil_iff, List.forall_mem_map]
    exact fun l hl => by simp [hnil l hl]
  have hbefore : init.zipIdx.flatMap (glued count init.length) =
      (init.zipIdx.map (trimAt count)).flatMap fun line =>
        if line.isEmpty then [] else line ++ [' '] := by
    rw [List.flatMap_map]
    exact List.flatMap_congr fun l hl => glued_of_ne (List.snd_lt_of_mem_zipIdx hl).ne
  calc (init.zipIdx ++ (line, init.length) :: tail.zipIdx (init.length + 1)).flatMap
        (glued count init.length)
    _ = init.zipIdx.flatMap (glued count init.length) ++ trimAt count (line, init.length) := by
      rw [List.flatMap_append, List.flatMap_cons, glued_last,
        List.flatMap_eq_nil_iff.2 fun l hl => glued_eq_nil (hnil l hl), List.append_nil]
    _ = [' '].intercalate ((init.zipIdx.map (trimAt count) ++
          [trimAt count (line, init.length)]).filter fun line => !line.isEmpty) := by
      rw [hbefore, intercalate_append hlast]
    _ = [' '].intercalate (((init.zipIdx ++
          (line, init.length) :: tail.zipIdx (init.length + 1)).map (trimAt count)).filter
            fun line => !line.isEmpty) := by
      simp only [List.map_append, List.map_cons, List.filter_append, List.filter_cons, hkept,
        List.filter_nil]

end

/-- Lines collapse to those that stay, with single spaces between them. -/
theorem collapseLines_eq {lines : List (List Char)} (hne : lines ≠ []) : collapseLines lines =
    [' '].intercalate ((trimmed lines).filter fun line => !line.isEmpty) := by
  by_cases hink : ∃ line ∈ lines, line.any isInk
  · obtain ⟨init, line, tail, rfl, hline, htail⟩ := exists_last_inked hink
    exact collapseLines_append hline htail
  · have hblank : ∀ line ∈ lines, line.any isInk = false := by simpa using hink
    rcases lines with _ | ⟨first, _ | ⟨next, rest⟩⟩
    · exact absurd rfl hne
    · rw [collapseLines_singleton, trimmed]
      cases h : spaced first <;> simp
    · have hlength : 2 ≤ (first :: next :: rest).length := by simp
      have hnil : (trimmed (first :: next :: rest)).filter (fun line => !line.isEmpty) = [] := by
        rw [trimmed_eq, List.filter_eq_nil_iff, List.forall_mem_map]
        rintro ⟨line, i⟩ hi
        rw [trimAt_eq_nil (hblank line (List.fst_mem_of_mem_zipIdx hi)) (by omega)]
        simp
      rw [collapseLines_eq_nil hlength hblank, hnil]
      rfl

/-! ## What a collapsed text has -/

section

variable {p : Char → Bool}

theorem flatten_pieces (separator : Char) (s : List Char) :
    (pieces separator s).flatten = s.filter fun c => c ≠ separator := by
  induction s with
  | nil => rfl
  | cons c rest ih =>
    rw [pieces]
    split
    · rename_i hc
      rw [List.filter_cons_of_neg (by simp [hc]), ← ih, List.flatten_cons, List.nil_append]
    · rename_i hc
      rw [List.filter_cons_of_pos (by simp [hc]), ← ih]
      rcases pieces separator rest with _ | ⟨piece, more⟩ <;> rfl

theorem filter_intercalate {separator : List Char} (h : separator.filter p = [])
    (parts : List (List Char)) :
    (separator.intercalate parts).filter p = parts.flatten.filter p := by
  induction parts with
  | nil => rfl
  | cons part rest ih =>
    rcases rest with _ | ⟨next, rest⟩
    · simp
    · rw [List.intercalate_cons_cons, List.filter_append, List.filter_append, h, ih,
        List.append_nil, ← List.filter_append]
      rfl

theorem trimRight_sublist (edge : Char → Bool) (s : List Char) : (trimRight edge s).Sublist s := by
  have h := (List.dropWhile_sublist edge (l := s.reverse)).reverse
  rwa [List.reverse_reverse] at h

theorem trimLine_sublist (first last : Bool) (line : List Char) :
    (trimLine first last line).Sublist (spaced line) := by
  have hstart : (trimmedStart first line).Sublist (spaced line) := by
    rw [trimmedStart]
    split
    · exact .refl _
    · exact List.dropWhile_sublist _
  rw [trimLine_eq]
  split
  · exact hstart
  · exact (trimRight_sublist _ _).trans hstart

/-- Each line is trimmed in its place. -/
theorem forall₂_trimmed (lines : List (List Char)) : List.Forall₂
    (fun line kept => ∃ first last, kept = trimLine first last line) lines (trimmed lines) := by
  have hindex : ∀ (count : Nat) (lines : List (List Char)) (k : Nat), List.Forall₂
      (fun line kept => ∃ first last, kept = trimLine first last line) lines
        ((lines.zipIdx k).map (trimAt count)) := by
    intro count lines
    induction lines with
    | nil => exact fun _ => .nil
    | cons line rest ih => exact fun k => .cons ⟨_, _, rfl⟩ (ih (k + 1))
  exact trimmed_eq lines ▸ hindex _ lines 0

theorem flatten_trimmed_sublist (lines : List (List Char)) :
    (trimmed lines).flatten.Sublist (spaced lines.flatten) := by
  have h := forall₂_trimmed lines
  generalize trimmed lines = kept at h ⊢
  induction h with
  | nil => exact .refl _
  | cons hline _ ih =>
    obtain ⟨first, last, rfl⟩ := hline
    rw [List.flatten_cons, List.flatten_cons, spaced, List.map_append]
    exact (trimLine_sublist first last _).append ih

theorem filter_flatten_trimmed (hspace : p ' ' = false) (htab : p '\t' = false)
    (hreturn : p '\r' = false) (lines : List (List Char)) :
    (trimmed lines).flatten.filter p = lines.flatten.filter p := by
  have h := forall₂_trimmed lines
  generalize trimmed lines = kept at h ⊢
  induction h with
  | nil => rfl
  | cons hline _ ih =>
    obtain ⟨first, last, rfl⟩ := hline
    rw [List.flatten_cons, List.flatten_cons, List.filter_append, List.filter_append,
      filter_trimLine hspace htab hreturn, ih]

end

theorem toList_collapse (s : String) :
    (collapse s).toList = [' '].intercalate (keptLines s.toList) := by
  rw [collapse, String.toList_ofList, collapseLines_eq (pieces_ne_nil '\n' s.toList), keptLines]

/-- Nothing of a text stays but what is in its lines. -/
theorem flatten_keptLines_sublist (s : List Char) :
    (keptLines s).flatten.Sublist (spaced (s.filter fun c => c ≠ '\n')) := by
  rw [keptLines, List.flatten_filter_not_isEmpty, ← flatten_pieces]
  exact flatten_trimmed_sublist _

/-- What is no layout stays, in its order. -/
theorem filter_collapse {p : Char → Bool} (h : ∀ c, isLayout c → p c = false) (s : String) :
    (collapse s).toList.filter p = s.toList.filter p := by
  have hspace : [' '].filter p = [] := by simp [h ' ' (by decide)]
  have hkept : ∀ c, (p c && decide (c ≠ '\n')) = p c := by
    intro c
    by_cases hc : c = '\n'
    · simp [hc, h '\n' (by decide)]
    · simp [hc]
  rw [toList_collapse, filter_intercalate hspace, keptLines, List.flatten_filter_not_isEmpty,
    filter_flatten_trimmed (h _ (by decide)) (h _ (by decide)) (h _ (by decide)), flatten_pieces,
    List.filter_filter]
  simp only [hkept]

theorem notMem_collapse {c : Char} (h : c = '\t' ∨ c = '\n') (s : String) :
    c ∉ (collapse s).toList := by
  intro hc
  have hspace : [' '].filter (fun d => d == c) = [] := by rcases h with rfl | rfl <;> rfl
  have hfilter : c ∈ (collapse s).toList.filter fun d => d == c := List.mem_filter.2 ⟨hc, by simp⟩
  rw [toList_collapse, filter_intercalate hspace] at hfilter
  have hkept := (flatten_keptLines_sublist s.toList).subset (List.mem_filter.1 hfilter).1
  obtain ⟨d, hd, hspaced⟩ := List.mem_map.1 hkept
  have hne : d ≠ '\n' := by simpa using (List.mem_filter.1 hd).2
  split at hspaced
  · rcases h with rfl | rfl <;> exact absurd hspaced (by decide)
  · rename_i htab
    rcases h with rfl | rfl
    · exact htab hspaced
    · exact hne hspaced

theorem spaced_eq_self {s : List Char} (h : '\t' ∉ s) : spaced s = s := by
  have hself : ∀ c ∈ s, (if c = '\t' then ' ' else c) = c := fun c hc =>
    if_neg fun htab : c = '\t' => h (htab ▸ hc)
  rw [spaced, List.map_congr_left hself, List.map_id']

theorem collapse_collapse (s : String) : collapse (collapse s) = collapse s := by
  have hbreak : '\n' ∉ (collapse s).toList := notMem_collapse (.inr rfl) s
  have htab : '\t' ∉ (collapse s).toList := notMem_collapse (.inl rfl) s
  rw [collapse, pieces_eq_singleton hbreak, collapseLines_singleton, spaced_eq_self htab,
    String.ofList_toList]

theorem isBlank_of_isLayout {c : Char} (h : isLayout c) : isBlank c := by
  simp only [isLayout, Bool.or_eq_true, decide_eq_true_eq] at h
  rcases h with ((rfl | rfl) | rfl) | rfl <;> rfl

/-- A text collapses to the lines of it that stay, with single spaces between them: a text without
tabs and line feeds that collapses to itself, where all that is no white space stands as it did, and
nothing else but spaces between lines and what is left of the lines. -/
theorem collapse_joined (s : String) :
    (collapse s).toList = [' '].intercalate (keptLines s.toList) ∧
    '\t' ∉ (collapse s).toList ∧ '\n' ∉ (collapse s).toList ∧
    collapse (collapse s) = collapse s ∧
    (collapse s).toList.filter (fun c => !isBlank c) = s.toList.filter (fun c => !isBlank c) ∧
    (keptLines s.toList).flatten.Sublist (spaced (s.toList.filter fun c => c ≠ '\n')) :=
  ⟨toList_collapse s, notMem_collapse (.inl rfl) s, notMem_collapse (.inr rfl) s,
    collapse_collapse s, filter_collapse (fun c hc => by simp [isBlank_of_isLayout hc]) s,
    flatten_keptLines_sublist s.toList⟩

/-- Blanks collapse to nothing if they break a line or are none. -/
theorem collapse_isEmpty_iff {w : String} (h : ∀ c ∈ w.toList, isLayout c) :
    (collapse w).isEmpty ↔ w = "" ∨ '\n' ∈ w.toList := by
  have hcollapse : (collapse w).isEmpty ↔ collapseLines (pieces '\n' w.toList) = [] := by
    simp [collapse, String.isEmpty_iff]
  rw [hcollapse]
  by_cases hbreak : '\n' ∈ w.toList
  · refine iff_of_true (collapseLines_eq_nil ?_ fun line hline => ?_) (.inr hbreak)
    · rw [length_pieces]
      have := List.count_pos_iff.2 hbreak
      omega
    · refine List.any_eq_false.2 fun c hc => ?_
      obtain ⟨hmem, hne⟩ := mem_of_mem_pieces hline hc
      simp [isInk_eq_false_of_isLayout (h c hmem) hne]
  · rw [pieces_eq_singleton hbreak, collapseLines_singleton, spaced, List.map_eq_nil_iff,
      String.toList_eq_nil_iff, or_iff_left hbreak]

end Text

end TemplateCompiler
