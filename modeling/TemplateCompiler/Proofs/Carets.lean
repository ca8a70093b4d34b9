import Mathlib.Data.List.Basic
import TemplateCompiler.Diagnostic.Report
import TemplateCompiler.Text.Pieces

/-!
# Where the caret stands

A report shows the offending line of the source behind a gutter, and a caret in the row below. The
gutter of the row below does not grow with the number of the line, and in the compact form it is one
character short, so the caret points at the column in the text at length alone, and there at lines
of three digits at most (`Report.caret_points_iff`).
-/

namespace TemplateCompiler

namespace Text

def rows (text : String) : List String :=
  split '\n' text

/-- In a row of a text stands a source line behind its gutter, and in the row below it a caret, so
many characters to the right of where the line begins. -/
def PointsAt (text : String) (row : Nat) (gutter content : String) (offset : Int) : Prop :=
  (rows text)[row]? = some (gutter ++ content) ∧
    ∃ edge, (rows text)[row + 1]? = some (edge ++ "^") ∧ '^' ∉ edge.toList ∧
      (edge.length : Int) = gutter.length + offset

/-! ## Rows -/

theorem rows_append (s t : String) : rows (s ++ "\n" ++ t) = rows s ++ rows t := by
  have hlist : (s ++ "\n" ++ t).toList = s.toList ++ '\n' :: t.toList := by simp
  rw [rows, split, hlist, pieces_append_separator, List.map_append]
  rfl

theorem rows_intercalate {parts : List String} (hne : parts ≠ [])
    (h : ∀ part ∈ parts, '\n' ∉ part.toList) : rows ("\n".intercalate parts) = parts := by
  have hlist : ("\n".intercalate parts).toList = ['\n'].intercalate (parts.map String.toList) := by
    rw [String.toList_intercalate]
    rfl
  have hparts : ∀ part ∈ parts.map String.toList, '\n' ∉ part := by
    simpa using h
  rw [rows, split, hlist, pieces_intercalate (by simpa using hne) hparts, List.map_map]
  simp [Function.comp_def]

theorem newline_not_mem_line {source line : String} (h : line ∈ lines source) :
    '\n' ∉ line.toList := by
  intro hc
  have := (mem_of_mem_lines h hc).2
  revert this
  decide

/-- Where the rows are known, so is where the caret stands. -/
theorem pointsAt_iff {text gutter content edge : String} {above below : List String}
    (h : rows text = above ++ (gutter ++ content) :: (edge ++ "^") :: below)
    (hedge : '^' ∉ edge.toList) (offset : Int) :
    PointsAt text above.length gutter content offset ↔
      (edge.length : Int) = gutter.length + offset := by
  have hrow : (rows text)[above.length]? = some (gutter ++ content) := by
    simp [h]
  have hnext : (rows text)[above.length + 1]? = some (edge ++ "^") := by
    simp [h]
  constructor
  · rintro ⟨-, other, hother, -, hlength⟩
    rw [hnext, Option.some.injEq, String.append_left_inj] at hother
    rwa [hother]
  · intro hlength
    exact ⟨hrow, edge, hnext, hedge, hlength⟩

end Text

/-! ## Gutters -/

/-- By how much a number is longer than the place that there is for it. -/
def overhang (n : Int) : Nat :=
  (toString n).length - 3

theorem length_padNumber (n : Int) : (padNumber n).length = 3 + overhang n := by
  rw [padNumber, String.length_append, overhang]
  simp only [String.length_ofList, List.length_replicate]
  omega

theorem overhang_eq_zero_iff {n : Int} (h : 0 ≤ n) : overhang n = 0 ↔ n < 1000 := by
  obtain ⟨m, rfl⟩ := Int.eq_ofNat_of_zero_le h
  have hrepr : toString (m : Int) = m.repr := rfl
  have hlength : m.repr.length ≤ 3 ↔ m < 10 ^ 3 := Nat.length_repr_le_iff (by decide)
  rw [overhang, hrepr]
  omega

/-- What stands before the caret in its row. -/
def caretEdge (bar : String) (column : Int) : String :=
  bar ++ String.ofList (List.replicate column.toNat ' ')

theorem append_caret (bar : String) (column : Int) :
    bar ++ caret column = caretEdge bar column ++ "^" := by
  rw [← String.toList_inj]
  simp [caret, caretEdge]

theorem length_caretEdge (bar : String) {column : Int} (h : 0 ≤ column) :
    ((caretEdge bar column).length : Int) = bar.length + column := by
  rw [caretEdge, String.length_append, String.length_ofList, List.length_replicate]
  omega

theorem caret_not_mem_caretEdge {bar : String} (h : '^' ∉ bar.toList) (column : Int) :
    '^' ∉ (caretEdge bar column).toList := by
  simp [caretEdge, h]

/-! ## Rows of a snippet -/

theorem newline_not_mem_padNumber (n : Int) : '\n' ∉ (padNumber n).toList := by
  intro h
  rcases mem_padNumber h with h | h | h <;> revert h <;> decide

theorem newline_not_mem_caret (column : Int) : '\n' ∉ (caret column).toList := by
  intro h
  rcases mem_caret h with h | h <;> revert h <;> decide

theorem sourceLine_plain (number : Int) (content : String) (isError : Bool) :
    sourceLine false number content isError =
      (if isError then ">" else " ") ++ padNumber number ++ " | " ++ content := rfl

theorem newline_not_mem_sourceLine (number : Int) {content : String} (h : '\n' ∉ content.toList)
    (isError : Bool) : '\n' ∉ (sourceLine false number content isError).toList := by
  have hmark : '\n' ∉ (if isError then ">" else " ").toList := by
    cases isError <;> decide +kernel
  have hbar : '\n' ∉ " | ".toList := by decide +kernel
  simp only [sourceLine_plain, String.toList_append, List.mem_append, not_or]
  exact ⟨⟨⟨hmark, newline_not_mem_padNumber number⟩, hbar⟩, h⟩

namespace Snippet

/-- Lines with their numbers in a source, of which so many lines stand before. -/
def numbered (lines : List String) (n : Nat) : List (Int × String) :=
  (lines.zipIdx n).map fun line => ((line.2 : Int) + 1, line.1)

theorem numbered_append (lines more : List String) (n : Nat) :
    numbered (lines ++ more) n = numbered lines n ++ numbered more (n + lines.length) := by
  rw [numbered, List.zipIdx_append, List.map_append]
  rfl

theorem le_of_mem_numbered {lines : List String} {l : Int × String} (h : l ∈ numbered lines 0) :
    l.1 ≤ lines.length := by
  obtain ⟨⟨content, i⟩, hi, rfl⟩ := List.mem_map.1 h
  have := List.snd_lt_of_mem_zipIdx hi
  dsimp only
  omega

def isShown (first last : Int) (l : Int × String) : Bool :=
  first < l.1 && l.1 ≤ last

theorem isShown_iff {first last : Int} {l : Int × String} :
    isShown first last l ↔ first < l.1 ∧ l.1 ≤ last := by
  simp [isShown]

/-- Of the lines above the offending one, the last is shown and no other. -/
theorem length_shown_above (above : List String) {line last : Int}
    (hline : (above.length : Int) + 1 = line) (hlast : line ≤ last) :
    ((numbered above 0).filter (isShown (max 0 (line - 1 - 1)) last)).length =
      if line = 1 then 0 else 1 := by
  rcases List.eq_nil_or_concat above with rfl | ⟨further, next, rfl⟩
  · rw [if_pos (by simpa using hline.symm)]
    rfl
  · rw [List.concat_eq_append, List.length_append, List.length_singleton] at hline
    have hfurther : (numbered further 0).filter (isShown (max 0 (line - 1 - 1)) last) = [] := by
      refine List.filter_eq_nil_iff.2 fun l hl => ?_
      have := le_of_mem_numbered hl
      rw [isShown_iff]
      omega
    have hnext : isShown (max 0 (line - 1 - 1)) last
        (((0 + further.length : Nat) : Int) + 1, next) := by
      rw [isShown_iff]
      dsimp only
      omega
    rw [if_neg (by omega), List.concat_eq_append, numbered_append, List.filter_append, hfurther,
      List.nil_append, numbered, List.zipIdx_singleton, List.map_singleton,
      List.filter_cons_of_pos hnext]
    rfl

variable {source content : String} {line : Int}

/-- The offending line among those that are shown: at most one is shown before it. -/
theorem lines_ofSource (hline : 0 < line)
    (hcontent : (Text.lines source)[line.toNat - 1]? = some content) (column : Option Int) :
    ∃ before after, (ofSource source line 1 column).lines = before ++ (line, content) :: after ∧
      before.length = (if line = 1 then 0 else 1) ∧ ∀ l ∈ before, l.1 ≠ line := by
  obtain ⟨hlt, rfl⟩ := List.getElem?_eq_some_iff.1 hcontent
  have hlines : (ofSource source line 1 column).lines = (numbered (Text.lines source) 0).filter
      (isShown (max 0 (line - 1 - 1)) (min ((Text.lines source).length : Int) (line + 1))) := rfl
  rw [hlines]
  have hsplit := List.take_append_drop (line.toNat - 1) (Text.lines source)
  rw [List.drop_eq_getElem_cons hlt, ← List.singleton_append] at hsplit
  have hlength : ((Text.lines source).take (line.toNat - 1)).length = line.toNat - 1 := by
    rw [List.length_take]
    omega
  have hlast : line ≤ min ((Text.lines source).length : Int) (line + 1) := by omega
  generalize min ((Text.lines source).length : Int) (line + 1) = last at hlast ⊢
  generalize (Text.lines source).take (line.toNat - 1) = above at hsplit hlength
  generalize (Text.lines source)[line.toNat - 1] = content at hsplit ⊢
  have hnumber : (above.length : Int) + 1 = line := by omega
  have hself : (numbered [content] (0 + above.length)).filter
      (isShown (max 0 (line - 1 - 1)) last) = [(line, content)] := by
    have hshown : isShown (max 0 (line - 1 - 1)) last (line, content) := by
      rw [isShown_iff]
      dsimp only
      omega
    rw [numbered, List.zipIdx_singleton, List.map_singleton, Nat.zero_add, hnumber,
      List.filter_cons_of_pos hshown]
    rfl
  rw [← hsplit, numbered_append, numbered_append, List.filter_append, List.filter_append, hself]
  refine ⟨_, _, rfl, length_shown_above above hnumber hlast, fun l hl => ?_⟩
  have := le_of_mem_numbered (List.mem_filter.1 hl).1
  omega

/-! ### The rows of a line -/

variable {s : Snippet} {l : Int × String} {column : Int}

theorem formatLine_of_ne (h : l.1 ≠ s.errorLine) :
    s.formatLine false l = [sourceLine false l.1 l.2 false] := by
  have hfalse : (l.1 == s.errorLine) = false := by simpa using h
  rw [formatLine, hfalse]
  cases s.column <;> rfl

theorem formatLine_error (hcolumn : s.column = some column) (content : String) :
    s.formatLine false (s.errorLine, content) =
      [sourceLine false s.errorLine content true, "     |" ++ " " ++ caret column] := by
  simp only [formatLine, hcolumn, beq_self_eq_true, if_true]
  rfl

theorem newline_not_mem_formatLine (s : Snippet) (h : '\n' ∉ l.2.toList) :
    ∀ row ∈ s.formatLine false l, '\n' ∉ row.toList := by
  obtain ⟨number, content⟩ := l
  by_cases herror : number = s.errorLine
  · subst herror
    rcases hcolumn : s.column with _ | column
    · simp only [formatLine, hcolumn, List.forall_mem_singleton]
      exact newline_not_mem_sourceLine _ h _
    · have hbar : '\n' ∉ ("     |" ++ " ").toList := by decide +kernel
      rw [formatLine_error hcolumn, List.forall_mem_cons, List.forall_mem_singleton,
        String.toList_append, List.mem_append, not_or]
      exact ⟨newline_not_mem_sourceLine _ h _, hbar, newline_not_mem_caret column⟩
  · rw [formatLine_of_ne herror, List.forall_mem_singleton]
    exact newline_not_mem_sourceLine _ h _

theorem rows_format (h : ∀ l ∈ s.lines, '\n' ∉ l.2.toList) :
    Text.rows (s.format false) = "   |" :: s.lines.flatMap (s.formatLine false) ++ ["   |"] := by
  have hedge : '\n' ∉ "   |".toList := by decide +kernel
  refine Text.rows_intercalate (List.cons_ne_nil _ _) fun row hrow => ?_
  rcases List.mem_append.1 hrow with hrow | hrow
  · rcases List.mem_cons.1 hrow with rfl | hrow
    · exact hedge
    · obtain ⟨l, hl, hrow⟩ := List.mem_flatMap.1 hrow
      exact s.newline_not_mem_formatLine (h l hl) row hrow
  · rw [List.mem_singleton.1 hrow]
    exact hedge

/-- The rows around the offending line: above it the edge and the line before, if there is one, and
below it the caret. -/
theorem rows_ofSource (hline : 0 < line)
    (hcontent : (Text.lines source)[line.toNat - 1]? = some content) (column : Int) :
    ∃ above below, Text.rows ((ofSource source line 1 (some column)).format false) =
        above ++ sourceLine false line content true :: ("     |" ++ " " ++ caret column) :: below ∧
      above.length = if line = 1 then 1 else 2 := by
  obtain ⟨before, after, hlines, hlength, hbefore⟩ :=
    lines_ofSource hline hcontent (some column)
  have hrows : before.flatMap ((ofSource source line 1 (some column)).formatLine false) =
      before.map fun l => sourceLine false l.1 l.2 false := by
    rw [List.flatMap_congr fun l hl => formatLine_of_ne (hbefore l hl), List.map_eq_flatMap]
  have hplain : ∀ l ∈ (ofSource source line 1 (some column)).lines, '\n' ∉ l.2.toList := by
    intro l hl
    obtain ⟨⟨content, i⟩, hi, rfl⟩ := List.mem_map.1 (List.mem_filter.1 hl).1
    exact Text.newline_not_mem_line (List.fst_mem_of_mem_zipIdx hi)
  refine ⟨"   |" :: before.flatMap ((ofSource source line 1 (some column)).formatLine false),
    after.flatMap ((ofSource source line 1 (some column)).formatLine false) ++ ["   |"], ?_, ?_⟩
  · rw [rows_format hplain, hlines, List.flatMap_append, List.flatMap_cons]
    have herror : (ofSource source line 1 (some column)).formatLine false (line, content) =
        [sourceLine false line content true, "     |" ++ " " ++ caret column] :=
      formatLine_error rfl content
    rw [herror]
    simp
  · rw [List.length_cons, hrows, List.length_map, hlength]
    split <;> rfl

end Snippet

/-! ## Reports -/

namespace Report

variable {r : Report} {source content : String} {line column : Int}

/-- What stands above the source in the text at length. -/
def heading (r : Report) : String :=
  "Syntax Error: " ++ r.message ++ "\n  --> " ++ r.location

/-- What stands above the source in the compact text. -/
def compactHeading (r : Report) : String :=
  (match r.code with
    | some code => code.value ++ ": " ++ r.message
    | none => r.message) ++ "\n" ++ ("  --> " ++ r.location)

/-- The row of the offending line in the text at length: above it are the heading, the edge and the
line before, if there is one. -/
def errorRow (r : Report) (line : Int) : Nat :=
  (Text.rows r.heading).length + if line = 1 then 1 else 2

/-- The row of the offending line in the compact text: above it are the heading and the edge. -/
def compactErrorRow (r : Report) : Nat :=
  (Text.rows r.compactHeading).length + 1

theorem sourceLine?_eq (hsource : r.source = some source) (hline : r.pos.line = some line)
    (hpos : 0 < line) (hcontent : (Text.lines source)[line.toNat - 1]? = some content) :
    r.sourceLine? = some (source, line) := by
  refine sourceLine?_eq_some.2 ⟨?_, ?_⟩
  · have hne : source.isEmpty = false := by
      rw [Bool.eq_false_iff]
      intro hempty
      obtain rfl : source = "" := by simpa using hempty
      simp [Text.lines, Text.boundedLines] at hcontent
    rw [Text.given, hsource, Option.filter_some_pos (by simp [hne])]
  · rw [line?, hline, Option.filter_some_pos (by simpa using Int.ne_of_gt hpos)]

section

variable (hsource : r.source = some source) (hline : r.pos.line = some line)
  (hcolumn : r.pos.column = some column) (hpos : 0 < line)
  (hcontent : (Text.lines source)[line.toNat - 1]? = some content)
include hsource hline hcolumn hpos hcontent

theorem text_eq : r.text false =
    r.heading ++ "\n" ++ (Snippet.ofSource source line 1 (some column)).format false := by
  obtain ⟨before, after, hlines, -⟩ := Snippet.lines_ofSource hpos hcontent (some column)
  have hempty : (Snippet.ofSource source line 1 (some column)).lines.isEmpty = false := by
    rw [hlines]
    cases before <;> rfl
  simp only [text, sourceLine?_eq hsource hline hpos hcontent, hcolumn, hempty]
  rfl

theorem compact_eq : r.compact = r.compactHeading ++ "\n" ++ "\n".intercalate ["   |",
    padNumber line ++ " | " ++ content, "   | " ++ caret column, "   |"] := by
  have hshown : compactLine source line (some column) =
      ["   |", padNumber line ++ " | " ++ content, "   | " ++ caret column, "   |"] := by
    rw [compactLine, if_pos hpos, hcontent]
    rfl
  simp only [compact, sourceLine?_eq hsource hline hpos hcontent, hcolumn, hshown]
  rw [String.intercalate_cons_cons, String.intercalate_cons_cons, ← String.append_assoc,
    ← String.append_assoc]
  rfl

/-- Where the caret stands in the text at length. -/
theorem text_points_iff (hcol : 0 ≤ column) (offset : Int) :
    Text.PointsAt (r.text false) (r.errorRow line) (">" ++ padNumber line ++ " | ") content offset ↔
      offset = column - overhang line := by
  obtain ⟨above, below, hrows, hlength⟩ := Snippet.rows_ofSource hpos hcontent column
  have hedge : '^' ∉ "     | ".toList := by decide +kernel
  have hbar : "     | ".length = 7 := by decide +kernel
  have hgutter : (">" ++ padNumber line ++ " | ").length = 7 + overhang line := by
    have hends : ">".length = 1 ∧ " | ".length = 3 := by decide +kernel
    rw [String.length_append, String.length_append, length_padNumber, hends.1, hends.2]
    omega
  have hrow : r.errorRow line = (Text.rows r.heading ++ above).length := by
    rw [errorRow, List.length_append, hlength]
  have hall : Text.rows (r.text false) = (Text.rows r.heading ++ above) ++
      (">" ++ padNumber line ++ " | " ++ content) ::
        (caretEdge "     | " column ++ "^") :: below := by
    rw [text_eq hsource hline hcolumn hpos hcontent, Text.rows_append, hrows, List.append_assoc,
      ← append_caret]
    rfl
  rw [hrow, Text.pointsAt_iff hall (caret_not_mem_caretEdge hedge column),
    length_caretEdge _ hcol, hbar, hgutter]
  omega

/-- Where the caret stands in the compact text. -/
theorem compact_points_iff (hcol : 0 ≤ column) (offset : Int) :
    Text.PointsAt r.compact r.compactErrorRow (padNumber line ++ " | ") content offset ↔
      offset = column - 1 - overhang line := by
  have hedge : '^' ∉ "   | ".toList := by decide +kernel
  have hbar : "   | ".length = 5 := by decide +kernel
  have hgutter : (padNumber line ++ " | ").length = 6 + overhang line := by
    have hend : " | ".length = 3 := by decide +kernel
    rw [String.length_append, length_padNumber, hend]
    omega
  have hrow : r.compactErrorRow = (Text.rows r.compactHeading ++ ["   |"]).length := by
    rw [compactErrorRow, List.length_append, List.length_singleton]
  have hplain : ∀ row ∈ ["   |", padNumber line ++ " | " ++ content, "   | " ++ caret column,
      "   |"], '\n' ∉ row.toList := by
    have hbars : '\n' ∉ "   |".toList ∧ '\n' ∉ " | ".toList ∧ '\n' ∉ "   | ".toList := by
      decide +kernel
    have hcontent' := Text.newline_not_mem_line (List.mem_of_getElem? hcontent)
    simp only [List.forall_mem_cons, String.toList_append, List.mem_append, not_or]
    exact ⟨hbars.1, ⟨⟨newline_not_mem_padNumber line, hbars.2.1⟩, hcontent'⟩,
      ⟨hbars.2.2, newline_not_mem_caret column⟩, hbars.1, by simp⟩
  have hall : Text.rows r.compact = (Text.rows r.compactHeading ++ ["   |"]) ++
      (padNumber line ++ " | " ++ content) :: (caretEdge "   | " column ++ "^") :: ["   |"] := by
    rw [compact_eq hsource hline hcolumn hpos hcontent, Text.rows_append,
      Text.rows_intercalate (List.cons_ne_nil _ _) hplain, List.append_assoc, ← append_caret]
    rfl
  rw [hrow, Text.pointsAt_iff hall (caret_not_mem_caretEdge hedge column),
    length_caretEdge _ hcol, hbar, hgutter]
  omega

end

/-- In the text at length the caret stands below its column exactly at lines of three digits at
most; with every further digit it falls behind by one. In the compact text it falls behind by one
more, so it never stands below its column. -/
theorem caret_points_iff (hsource : r.source = some source) (hline : r.pos.line = some line)
    (hcolumn : r.pos.column = some column) (hpos : 0 < line)
    (hcontent : (Text.lines source)[line.toNat - 1]? = some content) (hcol : 0 ≤ column) :
    (Text.PointsAt (r.text false) (r.errorRow line) (">" ++ padNumber line ++ " | ") content
        column ↔ line < 1000) ∧
      Text.PointsAt (r.text false) (r.errorRow line) (">" ++ padNumber line ++ " | ") content
        (column - overhang line) ∧
      ¬ Text.PointsAt r.compact r.compactErrorRow (padNumber line ++ " | ") content column ∧
      Text.PointsAt r.compact r.compactErrorRow (padNumber line ++ " | ") content
        (column - 1 - overhang line) := by
  have htext := text_points_iff hsource hline hcolumn hpos hcontent hcol
  have hcompact := compact_points_iff hsource hline hcolumn hpos hcontent hcol
  have hdigits := overhang_eq_zero_iff (Int.le_of_lt hpos)
  refine ⟨?_, (htext _).2 rfl, ?_, (hcompact _).2 rfl⟩
  · rw [htext, ← hdigits]
    omega
  · rw [hcompact]
    omega

/-- A report of the attribute on the second line of a template. -/
theorem caret_points_iff_second :
    let r : Report :=
      { message := "Unknown attribute", code := some .unknownNamespace, pos := ⟨some 2, some 5⟩
        name := none, filename := some "card.html", source := some "<template>\n  <p title>\n" }
    Text.PointsAt (r.text false) 4 ">  2 | " "  <p title>" 5 ∧
      ¬ Text.PointsAt r.compact 3 "  2 | " "  <p title>" 5 := by
  intro r
  have hcontent : (Text.lines "<template>\n  <p title>\n")[(2 : Int).toNat - 1]? =
      some "  <p title>" := by decide +kernel
  have hrow : r.errorRow 2 = 4 := by decide +kernel
  have hcompactRow : r.compactErrorRow = 3 := by decide +kernel
  have hgutter : ">" ++ padNumber 2 ++ " | " = ">  2 | " := by decide +kernel
  have hcompactGutter : padNumber 2 ++ " | " = "  2 | " := by decide +kernel
  obtain ⟨htext, -, hcompact, -⟩ :=
    caret_points_iff (r := r) rfl rfl rfl (by decide) hcontent (by decide)
  rw [hrow, hgutter] at htext
  rw [hcompactRow, hcompactGutter] at hcompact
  exact ⟨htext.2 (by decide), hcompact⟩

/-- The caret of a compact text stands below the character before the one at its column. -/
theorem compact_caret_is_left :
    let r : Report := { message := "m", code := none, pos := ⟨some 1, some 1⟩, name := none
                        filename := none, source := some "abc" }
    Text.rows r.compact = ["m", "  --> <template>:1:1", "   |", "  1 | abc", "   |  ^", "   |"] ∧
      ¬ Text.PointsAt r.compact 3 "  1 | " "abc" 1 := by
  intro r
  have hrows : Text.rows r.compact =
      ["m", "  --> <template>:1:1", "   |", "  1 | abc", "   |  ^", "   |"] := by decide +kernel
  refine ⟨hrows, ?_⟩
  rintro ⟨-, edge, hedge, -, hlength⟩
  rw [hrows] at hedge
  have hsame : "   |  ^" = edge ++ "^" := Option.some.inj hedge
  have hlengths : "   |  ^".length = 7 ∧ "^".length = 1 ∧ "  1 | ".length = 6 := by decide +kernel
  have := congrArg String.length hsame
  rw [String.length_append] at this
  omega

end Report

end TemplateCompiler
