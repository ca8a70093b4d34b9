import Mathlib.Data.List.Forall2
import TemplateCompiler.Diagnostic.Report

/-!
# Colours only decorate

A control sequence is stripped up to its last character and no further, whatever stands after it. So
a text put together from coloured and plain pieces, none of them with an escape of its own, is
stripped to the same text without colours (`Color.Decorates`), and this is how a report is put
together (`Report.strip_text`).
-/

namespace TemplateCompiler

namespace Color

/-! ## Control sequences -/

theorem stripFrom_eq_drop : ∀ (skip : Nat) (s : List Char),
    stripFrom skip s = stripFrom 0 (s.drop skip)
  | 0, _ => rfl
  | _ + 1, [] => rfl
  | skip + 1, _ :: rest => stripFrom_eq_drop skip rest

theorem stripFrom_append {s : List Char} (h : escape ∉ s) (rest : List Char) :
    stripFrom 0 (s ++ rest) = s ++ stripFrom 0 rest := by
  induction s with
  | nil => rfl
  | cons c s ih =>
    rw [List.mem_cons, not_or] at h
    rw [List.cons_append, stripFrom, if_neg (Ne.symm h.1), ih h.2, List.cons_append]

theorem takeWhile_append_cons {p : Char → Bool} {s : List Char} {c : Char}
    (h : ∀ x ∈ s, p x) (hc : p c = false) (rest : List Char) :
    (s ++ c :: rest).takeWhile p = s := by
  rw [List.takeWhile_append_of_pos h, List.takeWhile_cons_of_neg (by simp [hc]), List.append_nil]

/-- A final character is none that may stand before it in a control sequence. -/
theorem not_between_of_final {c : Char} (h : between 0x40 0x7E c) :
    between 0x30 0x3F c = false ∧ between 0x20 0x2F c = false := by
  simp only [between, Bool.and_eq_true, decide_eq_true_eq, Bool.and_eq_false_iff,
    decide_eq_false_iff_not] at h ⊢
  omega

/-- The parameters of a control sequence go on to its final character, and there it ends. -/
theorem sequenceLength?_parameters {parameters : List Char} {final : Char}
    (hparameters : ∀ c ∈ parameters, between 0x30 0x3F c) (hfinal : between 0x40 0x7E final)
    (rest : List Char) :
    sequenceLength? ('[' :: (parameters ++ final :: rest)) = some (parameters.length + 2) := by
  obtain ⟨hno, hno'⟩ := not_between_of_final hfinal
  have hmore : (parameters ++ final :: rest).drop parameters.length = final :: rest :=
    List.drop_left
  have hnone : (final :: rest).takeWhile (between 0x20 0x2F) = [] :=
    List.takeWhile_cons_of_neg (by simp [hno'])
  simp only [sequenceLength?, if_true, takeWhile_append_cons hparameters hno, hmore, hnone,
    List.length_nil, List.drop_zero, hfinal, Nat.add_zero]

theorem stripFrom_sequence {parameters : List Char} {final : Char}
    (hparameters : ∀ c ∈ parameters, between 0x30 0x3F c) (hfinal : between 0x40 0x7E final)
    (rest : List Char) :
    stripFrom 0 (escape :: '[' :: (parameters ++ final :: rest)) = stripFrom 0 rest := by
  have hdrop : ('[' :: (parameters ++ final :: rest)).drop (parameters.length + 2) = rest := by
    rw [List.drop_succ_cons, List.append_cons]
    exact List.drop_left' (by simp)
  rw [stripFrom, if_pos rfl, sequenceLength?_parameters hparameters hfinal rest]
  exact (stripFrom_eq_drop _ _).trans (congrArg (stripFrom 0) hdrop)

/-! ## Decorated texts -/

/-- A text without the character that begins a control sequence. -/
def IsPlain (s : String) : Prop :=
  escape ∉ s.toList

instance (s : String) : Decidable (IsPlain s) :=
  inferInstanceAs (Decidable (escape ∉ s.toList))

/-- A text that is stripped to a plain one, whatever stands after it. -/
def Decorates (colored plain : String) : Prop :=
  ∀ rest, stripFrom 0 (colored.toList ++ rest) = plain.toList ++ stripFrom 0 rest

theorem IsPlain.decorates {s : String} (h : IsPlain s) : Decorates s s :=
  stripFrom_append h

theorem Decorates.strip_eq {colored plain : String} (h : Decorates colored plain) :
    strip colored = plain := by
  have hall := h []
  simp only [List.append_nil, stripFrom] at hall
  rw [strip, hall, String.ofList_toList]

theorem Decorates.append {colored plain colored' plain' : String} (h : Decorates colored plain)
    (h' : Decorates colored' plain') : Decorates (colored ++ colored') (plain ++ plain') := by
  intro rest
  rw [String.toList_append, String.toList_append, List.append_assoc, h, h', List.append_assoc]

theorem Decorates.intercalate {separator : String} (hseparator : IsPlain separator)
    {colored plain : List String} (h : List.Forall₂ Decorates colored plain) :
    Decorates (separator.intercalate colored) (separator.intercalate plain) := by
  induction h with
  | nil => exact fun _ => rfl
  | @cons c p cs ps hhead htail ih =>
    cases htail with
    | nil => simpa using hhead
    | cons _ _ =>
      rw [String.intercalate_cons_cons, String.intercalate_cons_cons]
      exact (hhead.append hseparator.decorates).append ih

theorem between_parameter (c : Color) : ∀ x ∈ c.parameter.toList, between 0x30 0x3F x := by
  have hall : c.parameter.toList.all (between 0x30 0x3F) = true := by
    cases c <;> decide +kernel
  exact List.all_eq_true.1 hall

theorem decorates_sequence (c : Color) : Decorates c.sequence "" := by
  intro rest
  have hlist : c.sequence.toList = escape :: '[' :: (c.parameter.toList ++ ['m']) := by
    simp [sequence]
  rw [hlist, List.cons_append, List.cons_append, List.append_assoc]
  exact stripFrom_sequence (between_parameter c) (by decide) rest

theorem decorates_sequences (colors : List Color) :
    Decorates (String.join (colors.map sequence)) "" := by
  induction colors with
  | nil => exact fun _ => rfl
  | cons c colors ih =>
    rw [List.map_cons, String.join_cons]
    exact (decorates_sequence c).append ih

theorem decorates_paint (on : Bool) (colors : List Color) {s : String} (h : IsPlain s) :
    Decorates (paint on colors s) s := by
  unfold paint
  split
  · have := ((decorates_sequences colors).append h.decorates).append (decorates_sequence reset)
    simpa using this
  · exact h.decorates

/-! ## Plain texts -/

theorem IsPlain.append {s t : String} (hs : IsPlain s) (ht : IsPlain t) : IsPlain (s ++ t) := by
  rw [IsPlain, String.toList_append, List.mem_append, not_or]
  exact ⟨hs, ht⟩

theorem isPlain_toString (n : Int) : IsPlain (toString n) := by
  intro h
  rcases mem_toString h with h | h <;> revert h <;> decide

theorem isPlain_padNumber (n : Int) : IsPlain (padNumber n) := by
  intro h
  rcases mem_padNumber h with h | h | h <;> revert h <;> decide

theorem isPlain_caret (column : Int) : IsPlain (caret column) := by
  intro h
  rcases mem_caret h with h | h <;> revert h <;> decide

theorem isPlain_line {source line : String} (h : IsPlain source)
    (hline : line ∈ Text.lines source) : IsPlain line :=
  fun hc => h (Text.mem_of_mem_lines hline hc).1

end Color

/-! ## Reports -/

open Color

theorem sourceLine_decorates (number : Int) {content : String} (h : IsPlain content)
    (isError : Bool) :
    Decorates (sourceLine true number content isError)
      (sourceLine false number content isError) := by
  have hmark : IsPlain (if isError then ">" else " ") := by
    cases isError <;> decide +kernel
  have hgutter := hmark.append (isPlain_padNumber number)
  have hbar : IsPlain " | " := by decide +kernel
  exact ((decorates_paint true [.yellow] hgutter).append hbar.decorates).append
    (decorates_paint true _ h)

namespace Snippet

theorem formatLine_decorates (s : Snippet) {line : Int × String} (h : IsPlain line.2) :
    List.Forall₂ Decorates (s.formatLine true line) (s.formatLine false line) := by
  have hshown := sourceLine_decorates line.1 h (line.1 == s.errorLine)
  rcases hcolumn : s.column with _ | column
  · simp only [formatLine, hcolumn]
    exact .cons hshown .nil
  · simp only [formatLine, hcolumn]
    split
    · have hbar : IsPlain "     |" := by decide +kernel
      have hblank : IsPlain " " := by decide +kernel
      have hcaret := ((decorates_paint true [.dim] hbar).append hblank.decorates).append
        (decorates_paint true [.brightRed] (isPlain_caret column))
      exact .cons hshown (.cons hcaret .nil)
    · exact .cons hshown .nil

theorem format_decorates (s : Snippet) (h : ∀ line ∈ s.lines, IsPlain line.2) :
    Decorates (s.format true) (s.format false) := by
  have hedge : Decorates (paint true [.dim] "   |") (paint false [.dim] "   |") :=
    decorates_paint true [.dim] (by decide +kernel)
  have hbreak : IsPlain "\n" := by decide +kernel
  have hlines : List.Forall₂ Decorates (s.lines.flatMap (s.formatLine true))
      (s.lines.flatMap (s.formatLine false)) := by
    generalize s.lines = lines at h
    induction lines with
    | nil => exact .nil
    | cons line rest ih =>
      rw [List.forall_mem_cons] at h
      rw [List.flatMap_cons, List.flatMap_cons]
      exact List.rel_append (s.formatLine_decorates h.1) (ih h.2)
  exact Decorates.intercalate hbreak
    (List.rel_append (.cons hedge hlines) (.cons hedge .nil))

theorem isPlain_ofSource {source : String} (h : IsPlain source) (errorLine context : Int)
    (column : Option Int) :
    ∀ line ∈ (ofSource source errorLine context column).lines, IsPlain line.2 := by
  intro line hline
  obtain ⟨hmem, -⟩ := List.mem_filter.1 hline
  obtain ⟨⟨content, i⟩, hi, rfl⟩ := List.mem_map.1 hmem
  exact isPlain_line h (List.fst_mem_of_mem_zipIdx hi)

end Snippet

namespace Report

variable {r : Report}

theorem isPlain_location (hname : ∀ s ∈ r.name, IsPlain s)
    (hfilename : ∀ s ∈ r.filename, IsPlain s) : IsPlain r.location := by
  have hunit : IsPlain (((Text.given r.filename).or (Text.given r.name)).getD "<template>") := by
    rcases hf : Text.given r.filename with _ | filename
    · rcases hn : Text.given r.name with _ | name
      · decide +kernel
      · exact hname name (Text.mem_of_mem_given hn)
    · exact hfilename filename (Text.mem_of_mem_given hf)
  have hcolon : IsPlain ":" := by decide +kernel
  unfold location
  split
  · exact hunit
  · exact (hunit.append hcolon).append (isPlain_toString _)
  · exact (((hunit.append hcolon).append (isPlain_toString _)).append hcolon).append
      (isPlain_toString _)

/-- The text of a report in colours, stripped of them, is its text without colours. -/
theorem strip_text (hmessage : IsPlain r.message) (hname : ∀ s ∈ r.name, IsPlain s)
    (hfilename : ∀ s ∈ r.filename, IsPlain s) (hsource : ∀ s ∈ r.source, IsPlain s) :
    Color.strip (r.text true) = r.text false := by
  have hstart : IsPlain "Syntax Error: " := by decide +kernel
  have harrow : IsPlain "\n  --> " := by decide +kernel
  have hbreak : IsPlain "\n" := by decide +kernel
  have hheader := ((hstart.append hmessage).append harrow).decorates.append
    (decorates_paint true [.cyan] (isPlain_location hname hfilename))
  refine Decorates.strip_eq ?_
  unfold text
  split
  · exact hheader
  · rename_i source line hline
    obtain ⟨hgiven, -⟩ := sourceLine?_eq_some.1 hline
    have hplain : IsPlain source := hsource source (Text.mem_of_mem_given hgiven)
    have hlines := Snippet.isPlain_ofSource hplain line 1 r.pos.column
    dsimp only
    split
    · exact hheader
    · exact (hheader.append hbreak.decorates).append (Snippet.format_decorates _ hlines)

/-- Each text of the report could go on with a control sequence that stands right before it. -/
theorem strip_text_greedy :
    let r : Report :=
      { message := "[0m", code := some .invalidBinding, pos := ⟨some 1, some 2⟩
        name := some "1;3", filename := some "8;5m", source := some "31m\n;1 K" }
    (IsPlain r.message ∧ IsPlain "1;3" ∧ IsPlain "8;5m" ∧ IsPlain "31m\n;1 K") ∧
      r.text true ≠ r.text false ∧ Color.strip (r.text true) = r.text false := by
  intro r
  have hplain : IsPlain r.message ∧ IsPlain "1;3" ∧ IsPlain "8;5m" ∧ IsPlain "31m\n;1 K" := by
    decide +kernel
  refine ⟨hplain, by decide +kernel, strip_text hplain.1 ?_ ?_ ?_⟩
  · rintro s ⟨⟩
    exact hplain.2.1
  · rintro s ⟨⟩
    exact hplain.2.2.1
  · rintro s ⟨⟩
    exact hplain.2.2.2

end Report

end TemplateCompiler
