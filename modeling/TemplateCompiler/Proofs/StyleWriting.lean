import TemplateCompiler.Proofs.CamelCase
import TemplateCompiler.Proofs.Gaps

/-!
# Inline styles as they are written

A style is written as pieces between semicolons: an entry is its property in kebab case, a colon and
its value, with white space around each, and a piece without a colon is idle. If no two properties
are the same, what is written is what is read (`inlineStyle_text`).
-/

namespace TemplateCompiler

namespace Text

variable {s : List Char}

/-! ## Kebab case at the edges -/

theorem not_isBlank_of_isSmall {c : Char} (h : isSmall c) : isBlank c = false :=
  of_codes c h (by decide)

theorem mem_kebabList {x : Char} (h : x ∈ kebabList s) : x ∈ s ∨ x = '-' ∨ isSmall x := by
  obtain ⟨c, hc, hx⟩ := List.mem_flatMap.1 h
  split at hx
  · rename_i hcapital
    simp only [List.mem_cons, List.not_mem_nil, or_false] at hx
    rcases hx with rfl | rfl
    · exact .inr (.inl rfl)
    · exact .inr (.inr (toLower_of_isCapital hcapital).1)
  · exact .inl (List.mem_singleton.1 hx ▸ hc)

theorem isFlush_kebabList (h : IsFlush s) : IsFlush (kebabList s) := by
  intro x hx
  rcases head?_kebabList hx with hx | rfl
  · exact h x hx
  · decide

theorem isFlush_reverse_kebabList (h : IsFlush s.reverse) : IsFlush (kebabList s).reverse := by
  rcases List.eq_nil_or_concat s with rfl | ⟨init, c, rfl⟩
  · exact h
  · have hc : isBlank c = false := h c (by simp)
    simp only [List.concat_eq_append, kebabList, List.flatMap_append, List.flatMap_cons,
      List.flatMap_nil, List.append_nil, List.reverse_append]
    split
    · rename_i hcapital
      exact isFlush_cons (not_isBlank_of_isSmall (toLower_of_isCapital hcapital).1) _
    · exact isFlush_cons hc _

theorem kebabList_ne_nil (h : s ≠ []) : kebabList s ≠ [] := by
  obtain ⟨c, rest, rfl⟩ := List.exists_cons_of_ne_nil h
  rw [kebabList_cons]
  split <;> simp

/-! ## Texts that are cut -/

theorem cut_append {separator : Char} (h : separator ∉ s) (rest : List Char) :
    cut separator (s ++ separator :: rest) = (s, some rest) := by
  induction s with
  | nil => rw [List.nil_append, cut, if_pos rfl]
  | cons c more ih =>
    rw [List.mem_cons, not_or] at h
    rw [List.cons_append, cut, if_neg (Ne.symm h.1), ih h.2]

theorem cut_eq_none {separator : Char} (h : separator ∉ s) : cut separator s = (s, none) := by
  induction s with
  | nil => rfl
  | cons c more ih =>
    rw [List.mem_cons, not_or] at h
    rw [cut, if_neg (Ne.symm h.1), ih h.2]

/-! ## Entries that differ -/

theorem putEntry_new {entries : List (String × String)} {entry : String × String}
    (h : entry.1 ∉ entries.map Prod.fst) : putEntry entries entry = entries ++ [entry] := by
  refine if_neg fun hany => ?_
  simp only [List.any_eq_true, beq_iff_eq] at hany
  exact h (List.mem_map.2 hany)

theorem foldl_putEntry {entries more : List (String × String)}
    (h : ((entries ++ more).map Prod.fst).Nodup) :
    more.foldl putEntry entries = entries ++ more := by
  induction more generalizing entries with
  | nil => rw [List.foldl_nil, List.append_nil]
  | cons entry more ih =>
    have hnew : entry.1 ∉ entries.map Prod.fst := by
      rw [List.map_append, List.nodup_append] at h
      exact fun hmem => h.2.2 _ hmem _ List.mem_cons_self rfl
    rw [List.append_cons] at h
    rw [List.foldl_cons, putEntry_new hnew, ih h, ← List.append_cons]

end Text

namespace InlineStyle

/-- An entry of a style as it is written: its property in kebab case, a colon and its value, with
white space around each of them. -/
structure Written where
  before : List Char
  property : String
  left : List Char
  right : List Char
  value : String
  after : List Char
  before_blank : IsGap before
  property_ne_nil : property.toList ≠ []
  property_camel : Text.IsCamel property.toList
  property_plain : ':' ∉ property.toList ∧ ';' ∉ property.toList
  property_flush : IsFlush property.toList
  property_flush' : IsFlush property.toList.reverse
  left_blank : IsGap left
  right_blank : IsGap right
  value_plain : ';' ∉ value.toList
  value_flush : IsFlush value.toList
  value_flush' : IsFlush value.toList.reverse
  after_blank : IsGap after

/-- What stands between two semicolons of a style. -/
inductive Piece where
  | entry (w : Written)
  | idle (chars : List Char) (plain : ':' ∉ chars ∧ ';' ∉ chars)

def Written.chars (w : Written) : List Char :=
  (w.before ++ (Text.kebabList w.property.toList ++ w.left)) ++
    ':' :: (w.right ++ (w.value.toList ++ w.after))

namespace Piece

def chars : Piece → List Char
  | entry w => w.chars
  | idle chars _ => chars

def entry? : Piece → Option (String × String)
  | entry w => some (w.property, w.value)
  | idle .. => none

end Piece

def text (pieces : List Piece) : String :=
  String.ofList ([';'].intercalate (pieces.map Piece.chars))

def entries (pieces : List Piece) : List (String × String) :=
  pieces.filterMap Piece.entry?

theorem notMem_gap {gap : List Char} (h : IsGap gap) {c : Char} (hc : isBlank c = false) :
    c ∉ gap := fun hmem => by simp [h c hmem] at hc

namespace Written

variable (w : Written)

theorem notMem_head {c : Char} (hc : c = ':' ∨ c = ';') :
    c ∉ w.before ++ (Text.kebabList w.property.toList ++ w.left) := by
  have hblank : isBlank c = false := by rcases hc with rfl | rfl <;> decide
  have hkebab : c ∉ Text.kebabList w.property.toList := by
    intro hmem
    rcases Text.mem_kebabList hmem with hmem | rfl | hsmall
    · rcases hc with rfl | rfl
      · exact w.property_plain.1 hmem
      · exact w.property_plain.2 hmem
    · revert hc
      decide
    · revert hsmall
      rcases hc with rfl | rfl <;> decide
  simp [hkebab, notMem_gap w.before_blank hblank, notMem_gap w.left_blank hblank]

theorem semicolon_notMem_chars : ';' ∉ w.chars := by
  have hblank : isBlank ';' = false := by decide
  have htail : ';' ∉ w.right ++ (w.value.toList ++ w.after) := by
    simp [notMem_gap w.right_blank hblank, notMem_gap w.after_blank hblank, w.value_plain]
  rw [chars, List.mem_append, List.mem_cons]
  rintro (h | h | h)
  · exact w.notMem_head (.inr rfl) h
  · exact absurd h (by decide)
  · exact htail h

theorem styleEntry?_chars : Text.styleEntry? w.chars = some (w.property, w.value) := by
  have hproperty : Text.strip (w.before ++ (Text.kebabList w.property.toList ++ w.left)) =
      Text.kebabList w.property.toList :=
    Text.strip_gaps w.before_blank w.left_blank (Text.isFlush_kebabList w.property_flush)
      (Text.isFlush_reverse_kebabList w.property_flush')
  have hvalue : Text.strip (w.right ++ (w.value.toList ++ w.after)) = w.value.toList :=
    Text.strip_gaps w.right_blank w.after_blank w.value_flush w.value_flush'
  have hne : (Text.kebabList w.property.toList).isEmpty = false :=
    List.isEmpty_eq_false_iff.2 (Text.kebabList_ne_nil w.property_ne_nil)
  rw [Text.styleEntry?, chars, Text.cut_append (w.notMem_head (.inl rfl))]
  simp only [hproperty, hvalue, hne, Text.camelList_kebabList w.property_camel,
    String.ofList_toList, Bool.false_eq_true, if_false]

end Written

namespace Piece

theorem semicolon_notMem_chars (p : Piece) : ';' ∉ p.chars := by
  cases p with
  | entry w => exact w.semicolon_notMem_chars
  | idle chars plain => exact plain.2

theorem styleEntry?_chars (p : Piece) : Text.styleEntry? p.chars = p.entry? := by
  cases p with
  | entry w => exact w.styleEntry?_chars
  | idle chars plain =>
    rw [Text.styleEntry?, Piece.chars, Text.cut_eq_none plain.1]
    rfl

end Piece

/-- A style is read as it is written: its entries in their order, whatever white space and whatever
idle pieces stand between them. -/
theorem inlineStyle_text (pieces : List Piece) (h : ((entries pieces).map Prod.fst).Nodup) :
    Text.inlineStyle (text pieces) = entries pieces := by
  have hread : (Text.pieces ';' (text pieces).toList).filterMap Text.styleEntry? =
      entries pieces := by
    rw [text, String.toList_ofList]
    rcases eq_or_ne pieces [] with rfl | hne
    · rfl
    · have hpieces : Text.pieces ';' ([';'].intercalate (pieces.map Piece.chars)) =
          pieces.map Piece.chars := by
        refine Text.pieces_intercalate (by simpa using hne) fun part hpart => ?_
        obtain ⟨p, -, rfl⟩ := List.mem_map.1 hpart
        exact p.semicolon_notMem_chars
      rw [hpieces, List.filterMap_map]
      exact List.filterMap_congr fun p _ => p.styleEntry?_chars
  rw [Text.inlineStyle, hread]
  exact @Text.foldl_putEntry [] (entries pieces) h

/-- A colon in a value, a value that is empty, a property that begins with a dash, and pieces that
are idle. -/
def mixed : List Piece :=
  [.idle [' '] (by decide),
   .entry
    { before := ['\n'], property := "fontSize", left := ['\t'], right := [' '], value := "a: b"
      after := []
      before_blank := by decide, property_ne_nil := by decide, property_camel := by decide
      property_plain := by decide, property_flush := by decide, property_flush' := by decide
      left_blank := by decide, right_blank := isGap_space, value_plain := by decide
      value_flush := by decide, value_flush' := by decide, after_blank := isGap_nil },
   .idle "none".toList (by decide),
   .entry
    { before := [], property := "-XMax", left := [], right := [], value := ""
      after := [' ']
      before_blank := isGap_nil, property_ne_nil := by decide, property_camel := by decide
      property_plain := by decide, property_flush := by decide, property_flush' := by decide
      left_blank := isGap_nil, right_blank := isGap_nil, value_plain := by decide
      value_flush := by decide, value_flush' := by decide, after_blank := isGap_space }]

theorem inlineStyle_text_mixed : ((entries mixed).map Prod.fst).Nodup ∧
    text mixed = " ;\nfont-size\t: a: b;none;--x-max: " ∧
    Text.inlineStyle (text mixed) = [("fontSize", "a: b"), ("-XMax", "")] := by
  have hnodup : ((entries mixed).map Prod.fst).Nodup := by decide +kernel
  exact ⟨hnodup, by decide +kernel, inlineStyle_text mixed hnodup⟩

end InlineStyle

end TemplateCompiler
