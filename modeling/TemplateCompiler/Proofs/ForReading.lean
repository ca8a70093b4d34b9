import Mathlib.Data.List.Nodup
import TemplateCompiler.Proofs.ForGrammar

/-!
# Which for statements are read

A for statement whose parameters differ is read as it is written, but for one case: a parameter
between brackets that is called of and has white space on both sides is taken for the separator, and
the statement is refused (`ForStatement.parse_written_iff`). In any other target no separator begins
(`ForStatement.Target.skips`): the word in is no identifier, and a longer identifier does not end
where such a word does.
-/

namespace TemplateCompiler.ForStatement

/-- A parameter that looks like a separator. -/
def Member.Misleads (m : Member) : Prop :=
  m.name = "of" ∧ m.left ≠ [] ∧ m.right ≠ []

def Target.Misleads : Target → Prop
  | bare _ => False
  | group members _ => ∃ m ∈ members, m.Misleads

/-! ## Passing by -/

/-- No separator begins in a text, with another behind it. -/
def Skips (s rest : List Char) : Prop :=
  splitSeparator (s ++ rest) = (splitSeparator rest).map fun found => (s ++ found.1, found.2)

namespace Skips

variable {s rest : List Char}

theorem nil (rest : List Char) : Skips [] rest := by
  simp [Skips]

theorem cons {c : Char} (hafter : afterSeparator (c :: (s ++ rest)) = none)
    (h : Skips s rest) : Skips (c :: s) rest := by
  unfold Skips at h ⊢
  rw [List.cons_append, splitSeparator_cons, hafter, h, Option.map_map]
  rfl

theorem singleton {c : Char} (h : isBlank c = false) (rest : List Char) : Skips [c] rest :=
  cons (afterSeparator_of_not_isBlank h rest) (nil rest)

theorem append {more : List Char} (h : Skips s (more ++ rest)) (h' : Skips more rest) :
    Skips (s ++ more) rest := by
  unfold Skips at h h' ⊢
  rw [List.append_assoc, h, h', Option.map_map]
  simp [Function.comp_def]

end Skips

theorem skips_of_not_isBlank {s : List Char} (h : ∀ c ∈ s, isBlank c = false) (rest : List Char) :
    Skips s rest := by
  induction s with
  | nil => exact .nil rest
  | cons c s ih =>
    rw [List.forall_mem_cons] at h
    exact .cons (afterSeparator_of_not_isBlank h.1 _) (ih h.2)

/-- White space is passed by if no separator's word follows it. -/
theorem skips_gap {gap rest : List Char} (hgap : IsGap gap) (hrest : IsFlush rest)
    (h : gap ≠ [] → afterWord rest = none) : Skips gap rest := by
  induction gap with
  | nil => exact .nil rest
  | cons c gap ih =>
    have hnone := h (List.cons_ne_nil c gap)
    refine .cons ?_ (ih (fun d hd => hgap d (List.mem_cons_of_mem _ hd)) fun _ => hnone)
    rw [← List.cons_append, afterSeparator_gap hgap (List.cons_ne_nil c gap) hrest, hnone]

/-- A name ends before the first character that is in no name. -/
theorem takeWhile_isContinue {s : List Char} (h : ∀ c ∈ s, Identifier.isContinue c) {d : Char}
    (hd : Identifier.isContinue d = false) (rest : List Char) :
    (s ++ d :: rest).takeWhile Identifier.isContinue = s := by
  rw [List.takeWhile_append_of_pos h, List.takeWhile_cons_of_neg (by simp [hd]), List.append_nil]

theorem isContinue_of_isBlank {c : Char} (h : isBlank c) : Identifier.isContinue c = false :=
  Bool.eq_false_iff.2 fun hcontinue => by simp [not_isBlank_of_isContinue hcontinue] at h

theorem isContinue_of_mem_separator {word : String} (hword : word ∈ separators) :
    ∀ c ∈ word.toList, Identifier.isContinue c := by
  have hall : ∀ word ∈ separators, word.toList.all Identifier.isContinue := by decide
  exact List.all_eq_true.1 (hall word hword)

theorem afterWord_of_not_isContinue {d : Char} (hd : Identifier.isContinue d = false)
    (rest : List Char) : afterWord (d :: rest) = none := by
  refine Option.not_isSome_iff_eq_none.1 fun hsome => ?_
  obtain ⟨tail, htail⟩ := Option.isSome_iff_exists.1 hsome
  obtain ⟨word, hword, c, more, heq, -, -⟩ := afterWord_eq_some htail
  have hne : ∀ word ∈ separators, word.toList ≠ [] := by decide
  obtain ⟨x, letters, hx⟩ := List.exists_cons_of_ne_nil (hne word hword)
  rw [hx, List.cons_append, List.cons.injEq] at heq
  have hletter := isContinue_of_mem_separator hword d (by rw [hx, heq.1]; exact List.mem_cons_self)
  simp [hd] at hletter

/-- A name stands for a separator only if it is of and white space follows. -/
theorem eq_of_afterWord {name : String} (hname : isIdentifier name) {d : Char}
    (hd : Identifier.isContinue d = false) {rest : List Char}
    (h : (afterWord (name.toList ++ d :: rest)).isSome) : name = "of" ∧ isBlank d := by
  obtain ⟨tail, htail⟩ := Option.isSome_iff_exists.1 h
  obtain ⟨word, hword, c, more, heq, hc, -⟩ := afterWord_eq_some htail
  have hnames : name.toList = word.toList := by
    rw [← takeWhile_isContinue (fun c => Identifier.isContinue_of_mem
      (hasShape_of_isIdentifier hname)) hd rest, heq,
      takeWhile_isContinue (isContinue_of_mem_separator hword) (isContinue_of_isBlank hc)]
  rw [hnames, List.append_cancel_left_eq, List.cons.injEq] at heq
  obtain rfl := String.toList_inj.1 hnames
  refine ⟨?_, heq.1 ▸ hc⟩
  simp only [separators, List.mem_cons, List.not_mem_nil, or_false] at hword
  rcases hword with rfl | rfl
  · exact absurd hname (by decide)
  · rfl

/-! ## Targets -/

namespace Member

variable {m : Member}

theorem notMem_chars (hname : isIdentifier m.name) {c : Char} (hblank : isBlank c = false)
    (hcontinue : Identifier.isContinue c = false) : c ∉ m.chars := by
  intro hc
  rcases List.mem_append.1 hc with hc | hc
  · simp [m.left_blank c hc] at hblank
  rcases List.mem_append.1 hc with hc | hc
  · exact notMem_of_isIdentifier hname hcontinue hc
  · simp [m.right_blank c hc] at hblank

theorem chars_ne_nil (hname : isIdentifier m.name) : m.chars ≠ [] :=
  List.append_ne_nil_of_right_ne_nil _
    (List.append_ne_nil_of_left_ne_nil (isWord_of_isIdentifier hname).1 _)

theorem groupMember_chars (hname : isIdentifier m.name) : groupMember m.chars = m.name.toList := by
  obtain ⟨hne, hblank⟩ := isWord_of_isIdentifier hname
  have hall : ¬ m.chars.all isBlank := by
    obtain ⟨c, hc⟩ := List.exists_mem_of_ne_nil _ hne
    refine fun hall => absurd (List.all_eq_true.1 hall c ?_) (by simp [hblank c hc])
    exact List.mem_append_right _ (List.mem_append_left _ hc)
  have hword := isWord_of_isIdentifier hname
  rw [groupMember, if_neg hall, Text.strip, Text.trimLeft, chars,
    Text.dropWhile_gap m.left_blank (hword.isFlush _),
    Text.trimRight_gap m.right_blank hword.isFlush_reverse]

/-- No separator begins in a member of a group that does not look like one. -/
theorem skips (hname : isIdentifier m.name) (h : ¬ m.Misleads) {d : Char}
    (hblank : isBlank d = false) (hd : Identifier.isContinue d = false) (rest : List Char) :
    Skips m.chars (d :: rest) := by
  have hright : Skips m.right (d :: rest) :=
    skips_gap m.right_blank (Text.isFlush_cons hblank rest) fun _ =>
      afterWord_of_not_isContinue hd rest
  have hnone : m.left ≠ [] → afterWord (m.name.toList ++ (m.right ++ d :: rest)) = none := by
    intro hne
    refine Option.not_isSome_iff_eq_none.1 fun hsome => ?_
    rcases hrightChars : m.right with _ | ⟨c, more⟩
    · rw [hrightChars, List.nil_append] at hsome
      simp [(eq_of_afterWord hname hd hsome).2] at hblank
    · have hc : isBlank c := m.right_blank c (hrightChars ▸ List.mem_cons_self)
      rw [hrightChars, List.cons_append] at hsome
      have hof := (eq_of_afterWord hname (isContinue_of_isBlank hc) hsome).1
      exact h ⟨hof, hne, hrightChars ▸ List.cons_ne_nil c more⟩
  have hleft : Skips m.left (m.name.toList ++ m.right ++ d :: rest) := by
    rw [List.append_assoc]
    exact skips_gap m.left_blank ((isWord_of_isIdentifier hname).isFlush _) hnone
  exact hleft.append ((skips_of_not_isBlank (isWord_of_isIdentifier hname).2 _).append hright)

end Member

/-- The members of a group, with a comma between any two of them. -/
def groupChars (members : List Member) : List Char :=
  [','].intercalate (members.map Member.chars)

theorem groupChars_cons_cons (m m' : Member) (members : List Member) :
    groupChars (m :: m' :: members) = m.chars ++ ([','] ++ groupChars (m' :: members)) := by
  simp [groupChars, List.intercalate_cons_cons]

theorem notMem_groupChars {members : List Member} (hnames : ∀ m ∈ members, isIdentifier m.name)
    {c : Char} (hblank : isBlank c = false) (hcontinue : Identifier.isContinue c = false)
    (hcomma : c ≠ ',') : c ∉ groupChars members := by
  induction members with
  | nil => simp [groupChars]
  | cons m members ih =>
    rw [List.forall_mem_cons] at hnames
    have hm := Member.notMem_chars hnames.1 hblank hcontinue
    rcases members with _ | ⟨m', members⟩
    · simpa [groupChars] using hm
    · have hrest := ih hnames.2
      rw [groupChars_cons_cons]
      simp [hm, hcomma, hrest]

theorem skips_groupChars {members : List Member} (hnames : ∀ m ∈ members, isIdentifier m.name)
    (h : ∀ m ∈ members, ¬ m.Misleads) (rest : List Char) :
    Skips (groupChars members) (')' :: rest) := by
  induction members with
  | nil => exact .nil _
  | cons m members ih =>
    rw [List.forall_mem_cons] at hnames h
    rcases members with _ | ⟨m', members⟩
    · simpa [groupChars] using m.skips hnames.1 h.1 (by decide) (by decide) rest
    · have hcomma : Skips [','] (groupChars (m' :: members) ++ ')' :: rest) :=
        .singleton (by decide) _
      have hm : Skips m.chars ([','] ++ groupChars (m' :: members) ++ ')' :: rest) :=
        m.skips hnames.1 h.1 (by decide) (by decide) _
      rw [groupChars_cons_cons]
      exact hm.append (hcomma.append (ih hnames.2 h.2))

theorem pieces_groupChars {members : List Member} (hnames : ∀ m ∈ members, isIdentifier m.name)
    (hne : members ≠ []) : Text.pieces ',' (groupChars members) = members.map Member.chars := by
  refine Text.pieces_intercalate (by simpa using hne) fun part hpart => ?_
  obtain ⟨m, hm, rfl⟩ := List.mem_map.1 hpart
  exact Member.notMem_chars (hnames m hm) (by decide) (by decide)

namespace Target

variable {t : Target}

/-- No separator begins in a target without a member that looks like one. -/
theorem skips (h : ∀ name ∈ t.names, isIdentifier name) (hnot : ¬ t.Misleads) (rest : List Char) :
    Skips t.chars rest := by
  cases t with
  | bare name =>
    exact skips_of_not_isBlank (isWord_of_isIdentifier (h name List.mem_cons_self)).2 _
  | group members hlength =>
    have hnames : ∀ m ∈ members, isIdentifier m.name := fun m hm =>
      h m.name (List.mem_map_of_mem hm)
    have hmembers : ∀ m ∈ members, ¬ m.Misleads := fun m hm hmisleads => hnot ⟨m, hm, hmisleads⟩
    have hopen : Skips ['('] (groupChars members ++ [')'] ++ rest) := .singleton (by decide) _
    have hclose : Skips [')'] rest := .singleton (by decide) rest
    exact hopen.append ((skips_groupChars hnames hmembers rest).append hclose)

theorem targetParameters_chars (h : ∀ name ∈ t.names, isIdentifier name) :
    targetParameters t.chars = t.names := by
  cases t with
  | bare name =>
    have hname := h name List.mem_cons_self
    simp [targetParameters, chars, names, groupMembers?_of_isIdentifier hname]
  | group members hlength =>
    have hnames : ∀ m ∈ members, isIdentifier m.name := fun m hm =>
      h m.name (List.mem_map_of_mem hm)
    have hpieces : Text.pieces ',' (groupChars members) = members.map Member.chars :=
      pieces_groupChars hnames (by rintro rfl; simp at hlength)
    have hopen : '(' ∉ groupChars members :=
      notMem_groupChars hnames (by decide) (by decide) (by decide)
    have hclose : ')' ∉ groupChars members :=
      notMem_groupChars hnames (by decide) (by decide) (by decide)
    have hne : ∀ m ∈ members, m.chars ≠ [] := fun m hm => Member.chars_ne_nil (hnames m hm)
    have hgroup : groupMembers? ('(' :: (groupChars members ++ [')'])) =
        some ((members.map Member.chars).map groupMember) := by
      rw [groupMembers?_bracketed, hpieces]
      simpa [hlength, hopen, hclose] using hne
    have hmembers : ∀ m ∈ members, String.ofList (groupMember m.chars) = m.name := fun m hm => by
      rw [Member.groupMember_chars (hnames m hm), String.ofList_toList]
    calc targetParameters ('(' :: (groupChars members ++ [')']))
      _ = ((members.map Member.chars).map groupMember).map String.ofList := by
        rw [targetParameters, hgroup, Option.getD_some]
      _ = members.map Member.name := by
        rw [List.map_map, List.map_map]
        exact List.map_congr_left hmembers

end Target

/-! ## What is written is read -/

theorem splitSeparator_separates {left right tail : List Char} {word : String}
    (hleft : IsGap left) (hne : left ≠ []) (hword : word ∈ separators) (hright : IsGap right)
    (hne' : right ≠ []) (htail : IsFlush tail) :
    splitSeparator (left ++ (word.toList ++ (right ++ tail))) = some ([], tail) := by
  obtain ⟨y, more, rfl⟩ := List.exists_cons_of_ne_nil hne'
  have hmore : IsGap more := fun c hc => hright c (List.mem_cons_of_mem _ hc)
  have hafter : afterSeparator (left ++ (word.toList ++ (y :: more ++ tail))) = some tail := by
    rw [List.cons_append, afterSeparator_word hleft hne hword (hright y List.mem_cons_self),
      Text.dropWhile_gap hmore htail]
  obtain ⟨x, init, rfl⟩ := List.exists_cons_of_ne_nil hne
  rw [List.cons_append] at hafter ⊢
  rw [splitSeparator_cons, hafter]
  rfl

theorem Written.trimLeft_text (w : Written) :
    Text.trimLeft isBlank w.text.toList = w.target.chars ++ w.tail := by
  obtain ⟨c, rest, hc, hblank⟩ := Target.exists_cons w.identifiers
  have hflush : IsFlush (w.target.chars ++ w.tail) := hc ▸ Text.isFlush_cons hblank _
  rw [text, String.toList_ofList, chars, Text.trimLeft, Text.dropWhile_gap w.before_blank hflush]

/-- A statement in which no parameter looks like a separator is read as it is written, if its
parameters differ. -/
theorem parse_written (w : Written) (hnot : ¬ w.target.Misleads) :
    parse w.text =
      if w.target.names.Nodup then .ok w.statement else .error (.sameParameters w.text) := by
  have htail : IsFlush (w.iterable.toList ++ w.after) :=
    (Text.isFlush_append w.iterable_ne_nil _).2 w.iterable_flush
  have hsplit : splitSeparator (w.target.chars ++ w.tail) =
      some (w.target.chars, w.iterable.toList ++ w.after) := by
    have hskips : Skips w.target.chars w.tail := Target.skips w.identifiers hnot w.tail
    rw [Skips] at hskips
    rw [hskips, Written.tail, splitSeparator_separates w.left_blank w.left_ne_nil w.word_mem
      w.right_blank w.right_ne_nil htail, Option.map_some, List.append_nil]
  have hnames := Target.targetParameters_chars w.identifiers
  rw [parse_of_splitSeparator (by rw [w.trimLeft_text, hsplit])
    (Text.trimRight_gap w.after_blank w.iterable_flush') w.iterable_ne_nil
    (hnames ▸ w.identifiers), hnames, Written.statement]

section

variable {word iterable : String}

/-- A statement with one blank on both sides of its separator, and none around it. -/
def Written.plain (target : Target) (identifiers : ∀ name ∈ target.names, isIdentifier name)
    (hword : word ∈ separators) (hiterable : IsWord iterable) : Written where
  before := []
  target := target
  left := [' ']
  word := word
  right := [' ']
  iterable := iterable
  after := []
  before_blank := by decide
  identifiers := identifiers
  left_blank := by decide
  left_ne_nil := by decide
  word_mem := hword
  right_blank := by decide
  right_ne_nil := by decide
  iterable_ne_nil := hiterable.1
  iterable_flush := by simpa using hiterable.isFlush []
  iterable_flush' := hiterable.isFlush_reverse
  after_blank := by decide

theorem parse_plain (target : Target) (hidentifiers : ∀ name ∈ target.names, isIdentifier name)
    (hnot : ¬ target.Misleads) (hword : word ∈ separators) (hiterable : IsWord iterable)
    {text : String}
    (htext : text.toList = target.chars ++ ' ' :: (word.toList ++ ' ' :: iterable.toList)) :
    parse text =
      if target.names.Nodup then .ok ⟨iterable, target.names⟩
      else .error (.sameParameters text) := by
  let w := Written.plain target hidentifiers hword hiterable
  obtain rfl : text = w.text := by
    rw [← String.toList_inj, htext, Written.text, String.toList_ofList]
    simp [w, Written.plain, Written.chars, Written.tail]
  exact parse_written w hnot

variable {a b : String}

theorem parse_one (ha : isIdentifier a) (hword : word ∈ separators) (hiterable : IsWord iterable) :
    parse s!"{a} {word} {iterable}" = .ok ⟨iterable, [a]⟩ := by
  have hnot : ¬ (Target.bare a).Misleads := id
  rw [parse_plain (.bare a) (List.forall_mem_singleton.2 ha) hnot hword hiterable
    (by simp [Target.chars, toString])]
  exact if_pos (List.nodup_singleton a)

/-- Two names are told apart, whatever they are. -/
theorem parse_two (ha : isIdentifier a) (hb : isIdentifier b) (hword : word ∈ separators)
    (hiterable : IsWord iterable) :
    parse s!"({a}, {b}) {word} {iterable}" =
      if a = b then .error (.sameParameters s!"({a}, {b}) {word} {iterable}")
      else .ok ⟨iterable, [a, b]⟩ := by
  let target : Target :=
    .group [⟨[], a, [], by decide, by decide⟩, ⟨[' '], b, [], by decide, by decide⟩] (.inl rfl)
  have hidentifiers : ∀ name ∈ target.names, isIdentifier name :=
    List.forall_mem_cons.2 ⟨ha, List.forall_mem_singleton.2 hb⟩
  have hnot : ¬ target.Misleads := by
    rintro ⟨m, hm, -, -, hright⟩
    simp only [List.mem_cons, List.not_mem_nil, or_false] at hm
    rcases hm with rfl | rfl <;> exact hright rfl
  rw [parse_plain target hidentifiers hnot hword hiterable
    (by simp [target, Target.chars, Member.chars, toString])]
  by_cases hab : a = b <;> simp [target, Target.names, hab]

end

/-! ## What is taken for a separator -/

theorem exists_groupChars {members : List Member} {m : Member} (h : m ∈ members) :
    ∃ start rest, groupChars members = start ++ (m.chars ++ rest) := by
  induction members with
  | nil => simp at h
  | cons first members ih =>
    rcases members with _ | ⟨second, members⟩
    · obtain rfl := List.mem_singleton.1 h
      exact ⟨[], [], by simp [groupChars]⟩
    · rw [groupChars_cons_cons]
      rcases List.mem_cons.1 h with rfl | h
      · exact ⟨[], _, rfl⟩
      · obtain ⟨start, rest, hrest⟩ := ih h
        exact ⟨first.chars ++ ([','] ++ start), rest, by simp [hrest]⟩

/-- A member that looks like a separator is one, inside of the brackets. -/
theorem Target.exists_separator {t : Target}
    (hidentifiers : ∀ name ∈ t.names, isIdentifier name) (h : t.Misleads) :
    ∃ start rest, (∀ more, (afterSeparator (rest ++ more)).isSome) ∧
      t.chars = '(' :: (start ++ rest) ∧ ')' ∉ start := by
  cases t with
  | bare name => exact h.elim
  | group members hlength =>
    obtain ⟨m, hm, hof, hleft, hright⟩ := h
    obtain ⟨start, rest, hchars⟩ := exists_groupChars hm
    have hclose : ')' ∉ groupChars members := notMem_groupChars (fun m hm =>
      hidentifiers m.name (List.mem_map_of_mem hm)) (by decide) (by decide) (by decide)
    refine ⟨start, m.chars ++ (rest ++ [')']), fun more => ?_, ?_, fun hmem => hclose ?_⟩
    · have hword : "of" ∈ separators := by decide
      obtain ⟨y, right, hy⟩ := List.exists_cons_of_ne_nil hright
      rw [Member.chars, hof, hy, List.append_assoc, List.append_assoc, List.append_assoc,
        List.cons_append,
        afterSeparator_word m.left_blank hleft hword (m.right_blank y (hy ▸ List.mem_cons_self)),
        Option.isSome_some]
    · calc '(' :: (groupChars members ++ [')'])
        _ = '(' :: (start ++ (m.chars ++ (rest ++ [')']))) := by
          rw [hchars, List.append_assoc, List.append_assoc]
    · rw [hchars]
      exact List.mem_append_left _ hmem

/-- A target that begins with a bracket has the other one too. -/
theorem Target.close_mem {t : Target} (hidentifiers : ∀ name ∈ t.names, isIdentifier name)
    {start : List Char} (hstart : t.chars <+: '(' :: start) : ')' ∈ start := by
  cases t with
  | bare name =>
    obtain ⟨c, more, hc, -⟩ := exists_cons hidentifiers
    rw [hc, List.cons_prefix_cons] at hstart
    have hopen : '(' ∈ (bare name).chars := by
      rw [hc, hstart.1]
      exact List.mem_cons_self
    have hname := hidentifiers name List.mem_cons_self
    exact absurd hopen (notMem_of_isIdentifier hname (by decide))
  | group members hlength =>
    rw [chars, List.cons_prefix_cons] at hstart
    exact hstart.2.subset (List.mem_append_right _ (List.mem_singleton_self ')'))

/-- Where a parameter looks like a separator, the text is split inside of the brackets. -/
theorem Written.exists_splitSeparator_open (w : Written) (h : w.target.Misleads) :
    ∃ head tail start, splitSeparator (Text.trimLeft isBlank w.text.toList) = some (head, tail) ∧
      head <+: '(' :: start ∧ ')' ∉ start := by
  obtain ⟨start, rest, hseparates, hchars, hclose⟩ := Target.exists_separator w.identifiers h
  obtain ⟨head, tail, hsplit, hstart⟩ := exists_splitSeparator (hseparates w.tail) ('(' :: start)
  have htrim : Text.trimLeft isBlank w.text.toList = '(' :: start ++ (rest ++ w.tail) := by
    rw [w.trimLeft_text, hchars, List.cons_append, List.cons_append, List.append_assoc]
  exact ⟨head, tail, start, by rw [htrim, hsplit], hstart, hclose⟩

/-- What stands before a separator inside of brackets is no target. -/
theorem parse_ne_ok (w : Written) (h : w.target.Misleads) (s : ForStatement) :
    parse w.text ≠ .ok s := by
  intro hparse
  obtain ⟨target, rest, hsplit, -, -, hparameters, hidentifiers, -⟩ := parse_eq_ok_iff.1 hparse
  obtain ⟨head, tail, start, hsplit', hstart, hclose⟩ := w.exists_splitSeparator_open h
  rw [hsplit', Option.some.injEq, Prod.mk.injEq] at hsplit
  obtain ⟨rfl, -⟩ := hsplit
  obtain ⟨t, rfl, hnames⟩ := exists_target (hparameters ▸ hidentifiers)
  exact hclose (Target.close_mem (hnames.trans hparameters ▸ hidentifiers) hstart)

/-- A statement is read, and read as it is written, if and only if its parameters differ and none
of them looks like a separator. -/
theorem parse_written_iff (w : Written) (s : ForStatement) :
    parse w.text = .ok s ↔
      s = w.statement ∧ w.target.names.Nodup ∧ ¬ w.target.Misleads := by
  by_cases h : w.target.Misleads
  · simp [h, parse_ne_ok w h s]
  · rw [parse_written w h]
    by_cases hnodup : w.target.names.Nodup
    · simp [h, hnodup, eq_comm]
    · simp [hnodup]

/-- Two parameters, the first of them called of, with a blank on each side of it. -/
def spacedWritten : Written :=
  @Written.plain "in" "xs"
    (.group [⟨[' '], "of", [' '], by decide, by decide⟩, ⟨[' '], "a", [], by decide, by decide⟩]
      (.inl rfl))
    (by decide +kernel) (by decide) (isWord_of_isIdentifier (by decide))

/-- What is read as the target is the bracket before it. -/
theorem parameter_misleads : spacedWritten.text = "( of , a) in xs" ∧
    spacedWritten.statement = ⟨"xs", ["of", "a"]⟩ ∧
    parse "( of , a) in xs" = .error (.badParameter "(" "( of , a) in xs") := by
  refine ⟨?_, ?_, ?_⟩ <;> decide +kernel

end TemplateCompiler.ForStatement
