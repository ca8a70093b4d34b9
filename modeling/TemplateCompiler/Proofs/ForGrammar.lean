import Mathlib.Order.Bounds.Defs
import TemplateCompiler.Proofs.ForStatements

/-!
# The grammar of for statements

A for statement is written as white space, a target, a separator between white space, what is
iterated over, and white space again (`ForStatement.Written`). Whatever text is read, it was written
so, and is read as what it was written for; and no separator stands in it before the one that it is
split at (`ForStatement.parse_sound`).
-/

namespace TemplateCompiler.ForStatement

/-! ## Statements as they are written -/

/-- A parameter between brackets, with the white space around it. -/
structure Member where
  left : List Char
  name : String
  right : List Char
  left_blank : IsGap left
  right_blank : IsGap right

def Member.chars (m : Member) : List Char :=
  m.left ++ (m.name.toList ++ m.right)

/-- What stands before a separator: a parameter, or several of them in brackets. -/
inductive Target where
  | bare (name : String)
  | group (members : List Member) (two_or_three : members.length = 2 ∨ members.length = 3)

namespace Target

def names : Target → List String
  | bare name => [name]
  | group members _ => members.map Member.name

def chars : Target → List Char
  | bare name => name.toList
  | group members _ => '(' :: ([','].intercalate (members.map Member.chars) ++ [')'])

/-- A target begins with a parameter or a bracket. -/
theorem exists_cons {t : Target} (h : ∀ name ∈ t.names, isIdentifier name) :
    ∃ c rest, t.chars = c :: rest ∧ isBlank c = false := by
  cases t with
  | bare name =>
    obtain ⟨hne, hblank⟩ := isWord_of_isIdentifier (h name List.mem_cons_self)
    obtain ⟨c, rest, hc⟩ := List.exists_cons_of_ne_nil hne
    exact ⟨c, rest, hc, hblank c (hc ▸ List.mem_cons_self)⟩
  | group members => exact ⟨'(', _, rfl, by decide⟩

end Target

/-- A for statement as it is written, with all its white space. -/
structure Written where
  before : List Char
  target : Target
  left : List Char
  word : String
  right : List Char
  iterable : String
  after : List Char
  before_blank : IsGap before
  identifiers : ∀ name ∈ target.names, isIdentifier name
  left_blank : IsGap left
  left_ne_nil : left ≠ []
  word_mem : word ∈ separators
  right_blank : IsGap right
  right_ne_nil : right ≠ []
  iterable_ne_nil : iterable.toList ≠ []
  iterable_flush : IsFlush iterable.toList
  iterable_flush' : IsFlush iterable.toList.reverse
  after_blank : IsGap after

namespace Written

/-- The separator and what stands behind it. -/
def tail (w : Written) : List Char :=
  w.left ++ (w.word.toList ++ (w.right ++ (w.iterable.toList ++ w.after)))

def chars (w : Written) : List Char :=
  w.before ++ (w.target.chars ++ w.tail)

def text (w : Written) : String :=
  String.ofList w.chars

def statement (w : Written) : ForStatement :=
  ⟨w.iterable, w.target.names⟩

/-- Where its separator stands. -/
def position (w : Written) : Nat :=
  w.before.length + w.target.chars.length + w.left.length

end Written

/-- Whether one of the words in and of stands at a position, between white space and with more than
that before it. -/
def SeparatesAt (s : List Char) (n : Nat) : Prop :=
  ∃ before x word y after, s = before ++ x :: (word.toList ++ y :: after) ∧
    n = before.length + 1 ∧ (∃ c ∈ before, isBlank c = false) ∧ isBlank x ∧ word ∈ separators ∧
    isBlank y

/-! ## What is read was written -/

/-- A member that is an identifier has nothing but white space around it. -/
theorem exists_member {part : List Char} (h : isIdentifier (String.ofList (groupMember part))) :
    ∃ m : Member, m.chars = part ∧ m.name = String.ofList (groupMember part) := by
  obtain ⟨hne, hblank⟩ := isWord_of_isIdentifier h
  rw [String.toList_ofList] at hne hblank
  by_cases hall : part.all isBlank
  · rw [groupMember, if_pos hall] at hne hblank
    obtain ⟨c, hc⟩ := List.exists_mem_of_ne_nil _ hne
    have hpart := List.all_eq_true.1 hall c (List.mem_of_mem_drop hc)
    exact absurd hpart (by simp [hblank c hc])
  · obtain ⟨gap, hgap, hgap_blank, -⟩ := Text.exists_trimRight (part.dropWhile isBlank)
    refine ⟨⟨part.takeWhile isBlank, String.ofList (groupMember part), gap,
      Text.isGap_takeWhile part, hgap_blank⟩, ?_, rfl⟩
    rw [Member.chars, String.toList_ofList, groupMember, if_neg hall, Text.strip, Text.trimLeft,
      ← hgap, List.takeWhile_append_dropWhile]

theorem exists_members : ∀ {parts : List (List Char)},
    (∀ part ∈ parts, isIdentifier (String.ofList (groupMember part))) →
      ∃ members : List Member, members.map Member.chars = parts ∧
        members.map Member.name = parts.map fun part => String.ofList (groupMember part)
  | [], _ => ⟨[], rfl, rfl⟩
  | part :: parts, h => by
    rw [List.forall_mem_cons] at h
    obtain ⟨m, hchars, hname⟩ := exists_member h.1
    obtain ⟨members, hmembers, hnames⟩ := exists_members h.2
    exact ⟨m :: members, by rw [List.map_cons, hchars, hmembers],
      by rw [List.map_cons, hname, hnames, List.map_cons]⟩

theorem exists_target {target : List Char} (h : ∀ p ∈ targetParameters target, isIdentifier p) :
    ∃ t : Target, t.chars = target ∧ t.names = targetParameters target := by
  unfold targetParameters at h ⊢
  rcases hgroup : groupMembers? target with _ | members
  · exact ⟨.bare (String.ofList target), String.toList_ofList, rfl⟩
  · obtain ⟨parts, hlength, rfl, rfl⟩ := groupMembers?_eq_some hgroup
    rw [hgroup, Option.getD_some, List.map_map] at h
    obtain ⟨members, hchars, hnames⟩ := exists_members fun part hpart =>
      h _ (List.mem_map_of_mem hpart)
    rw [← hchars, List.length_map] at hlength
    refine ⟨.group members hlength, by rw [Target.chars, hchars], ?_⟩
    rw [Target.names, hnames, Option.getD_some, List.map_map]
    rfl

/-! ## The leftmost separator -/

section

variable {before target left right tail : List Char} {word : String}

theorem separatesAt (hmem : ∃ c ∈ target, isBlank c = false) (hleft : IsGap left)
    (hne : left ≠ []) (hword : word ∈ separators) (hright : IsGap right) (hne' : right ≠ []) :
    SeparatesAt (before ++ (target ++ (left ++ (word.toList ++ (right ++ tail)))))
      (before.length + target.length + left.length) := by
  obtain ⟨init, x, rfl⟩ := (List.eq_nil_or_concat left).resolve_left hne
  obtain ⟨y, more, rfl⟩ := List.exists_cons_of_ne_nil hne'
  obtain ⟨c, hc, hblank⟩ := hmem
  refine ⟨before ++ (target ++ init), x, word, y, more ++ tail, by simp, ?_, ⟨c, ?_, hblank⟩,
    hleft x (by simp), hword, hright y List.mem_cons_self⟩
  · simp only [List.concat_eq_append, List.length_append, List.length_singleton]
    omega
  · exact List.mem_append_right _ (List.mem_append_left _ hc)

/-- No separator is further left than where a text is split. -/
theorem le_of_separatesAt (hbefore : IsGap before) (hleft : IsGap left)
    (hsplit : splitSeparator (target ++ (left ++ (word.toList ++ (right ++ tail)))) =
      some (target, tail)) {n : Nat}
    (h : SeparatesAt (before ++ (target ++ (left ++ (word.toList ++ (right ++ tail))))) n) :
    before.length + target.length + left.length ≤ n := by
  obtain ⟨start, x, word', y, rest, heq, rfl, ⟨c, hc, hblank⟩, hx, hword', hy⟩ := h
  obtain ⟨between, rfl, hrest⟩ | ⟨more, rfl, -⟩ := List.append_eq_append_iff.1 heq
  · have hgap : IsGap [x] := List.forall_mem_singleton.2 hx
    have hafter : (afterSeparator ([x] ++ (word'.toList ++ y :: rest))).isSome := by
      rw [afterSeparator_word hgap (List.cons_ne_nil x []) hword' hy, Option.isSome_some]
    -- the text is split at this separator or before it, and it is split behind the target
    obtain ⟨head, tail', hsplit', hstart⟩ := exists_splitSeparator hafter between
    rw [List.singleton_append, ← hrest, hsplit, Option.some.injEq, Prod.mk.injEq] at hsplit'
    obtain ⟨rfl, -⟩ := hsplit'
    obtain ⟨further, rfl⟩ := hstart
    have hwords : left ++ (word.toList ++ (right ++ tail)) =
        (further ++ [x]) ++ (word'.toList ++ y :: rest) := by
      simpa using hrest
    have hlength := Text.length_gap_le hleft (isFlush_separator hword' _) hwords
    simp only [List.length_append, List.length_singleton] at hlength ⊢
    omega
  · exact absurd (hbefore c (List.mem_append_left _ hc)) (by simp [hblank])

end

/-- A text that is read is a for statement as it is written, with the leftmost separator that there
is in it. -/
theorem parse_sound {text : String} {s : ForStatement} (h : parse text = .ok s) :
    ∃ w : Written, w.text = text ∧ w.statement = s ∧ s.parameters.Nodup ∧
      IsLeast {n | SeparatesAt text.toList n} w.position := by
  obtain ⟨target, rest, hsplit, htrim, hne, hparameters, hidentifiers, hnodup⟩ :=
    parse_eq_ok_iff.1 h
  obtain ⟨t, rfl, hnames⟩ := exists_target (hparameters ▸ hidentifiers)
  obtain ⟨found, hfound, hafter⟩ := splitSeparator_eq_some hsplit
  obtain ⟨left, word, right, rfl, hleft, hleft', hword, hright, hright', hflush⟩ :=
    afterSeparator_eq_some hafter
  obtain ⟨gap, hrest, hgap, hend⟩ := Text.exists_trimRight rest
  rw [htrim] at hrest hend
  let w : Written :=
    { before := text.toList.takeWhile isBlank, target := t, left, word, right
      iterable := s.iterable, after := gap
      before_blank := Text.isGap_takeWhile _
      identifiers := hnames.trans hparameters ▸ hidentifiers
      left_blank := hleft', left_ne_nil := hleft, word_mem := hword, right_blank := hright'
      right_ne_nil := hright, iterable_ne_nil := hne
      iterable_flush := (Text.isFlush_append hne gap).1 (hrest ▸ hflush)
      iterable_flush' := hend, after_blank := hgap }
  have hchars : w.chars = text.toList := by
    rw [Written.chars, Written.tail, ← hrest, ← hfound, Text.trimLeft,
      List.takeWhile_append_dropWhile]
  refine ⟨w, ?_, ?_, hnodup, ?_⟩
  · rw [Written.text, hchars, String.ofList_toList]
  · rw [Written.statement, hnames, hparameters]
  · obtain ⟨c, _, hc, hblank⟩ := Target.exists_cons w.identifiers
    have hmem : ∃ c ∈ t.chars, isBlank c = false := ⟨c, hc ▸ List.mem_cons_self, hblank⟩
    rw [← hchars, Written.chars, Written.tail, ← hrest]
    refine ⟨separatesAt hmem hleft' hleft hword hright' hright, fun n hn => ?_⟩
    exact le_of_separatesAt w.before_blank hleft' (hfound ▸ hsplit) hn

/-- Separators over several lines, in what is iterated over as well. -/
theorem parse_sound_lines :
    parse "\n ( v ,\tof) \n of\n in x in y of z " = .ok ⟨"in x in y of z", ["v", "of"]⟩ ∧
    ∃ w : Written, w.text = "\n ( v ,\tof) \n of\n in x in y of z " ∧
      w.statement = ⟨"in x in y of z", ["v", "of"]⟩ ∧ ["v", "of"].Nodup ∧
      IsLeast {n | SeparatesAt "\n ( v ,\tof) \n of\n in x in y of z ".toList n} w.position := by
  have h : parse "\n ( v ,\tof) \n of\n in x in y of z " = .ok ⟨"in x in y of z", ["v", "of"]⟩ := by
    decide +kernel
  exact ⟨h, parse_sound h⟩

end TemplateCompiler.ForStatement
