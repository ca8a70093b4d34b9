import TemplateCompiler.Proofs.Failing
import TemplateCompiler.Proofs.Meaning
import TemplateCompiler.Proofs.Spelling

/-!
# Texts that are bindings

A text is a binding, but for the white space around it, if it is a dotted path of identifiers that
does not begin with self (`Binding.IsPath`), or a dashed name, whose parts are identifiers or empty
(`Binding.IsDashedName`). A text of dashes only, where all parts are empty, is taken for a dashed
name too (`CompileM.binding_yields_iff`). A binding lists the name it reads, if it is new and not
bound, and a text that is none leaves everything as it was.
-/

namespace TemplateCompiler

/-! ## Parts of a text -/

namespace Text

variable {separator : Char} {joint : String}

theorem split_intercalate (hjoint : joint.toList = [separator]) {parts : List String}
    (hne : parts ≠ []) (h : ∀ part ∈ parts, separator ∉ part.toList) :
    split separator (joint.intercalate parts) = parts := by
  have hpieces : ∀ piece ∈ parts.map String.toList, separator ∉ piece :=
    List.forall_mem_map.2 h
  rw [split, String.toList_intercalate, hjoint,
    pieces_intercalate (by simpa using hne) hpieces, List.map_map]
  simp [Function.comp_def]

theorem intercalate_split (hjoint : joint.toList = [separator]) (s : String) :
    joint.intercalate (split separator s) = s := by
  rw [← String.toList_inj, String.toList_intercalate, hjoint, split, List.map_map]
  simpa [Function.comp_def] using intercalate_pieces separator s.toList

end Text

theorem identifierPath?_eq_some_iff {path : String} {segments : List String} :
    identifierPath? path = some segments ↔
      segments ≠ [] ∧ (∀ s ∈ segments, isIdentifier s) ∧ path = ".".intercalate segments := by
  have hjoint : ".".toList = ['.'] := rfl
  constructor
  · intro h
    obtain ⟨rfl, hall⟩ := isIdentifier_of_identifierPath? h
    exact ⟨by simp [Text.split, Text.pieces_ne_nil], hall, (Text.intercalate_split hjoint _).symm⟩
  · rintro ⟨hne, hall, rfl⟩
    have hdot : ∀ s ∈ segments, '.' ∉ s.toList := fun s hs =>
      notMem_of_isIdentifier (hall s hs) (by decide)
    rw [identifierPath?, Text.split_intercalate hjoint hne hdot]
    exact if_pos (List.all_eq_true.2 hall)

namespace Binding

/-- A dotted path of identifiers that begins with one other than self. -/
def IsPath (first text : String) : Prop :=
  ∃ rest, (∀ s ∈ first :: rest, isIdentifier s) ∧ first ≠ Expr.selfName ∧
    text = ".".intercalate (first :: rest)

/-- A text with a dash and without a dot. Between its dashes there are identifiers, keywords or not,
and empty parts, but not only those. -/
structure IsDashedName (text : String) : Prop where
  dash : '-' ∈ text.toList
  undotted : '.' ∉ text.toList
  parts : ∃ parts : List String, text = "-".intercalate parts ∧
    (∀ part ∈ parts, part ≠ "" → Identifier.hasShape part) ∧ ∃ part ∈ parts, part ≠ ""

/-- A text of dashes only. -/
def IsBare (text : String) : Prop :=
  text ≠ "" ∧ ∀ c ∈ text.toList, c = '-'

/-! ## Dashed names -/

theorem isDashed_iff_forall {text : String} : isDashed text ↔ '-' ∈ text.toList ∧
    '.' ∉ text.toList ∧ ∀ part ∈ Text.split '-' text, part = "" ∨ Identifier.hasShape part := by
  simp [isDashed, and_assoc]

theorem split_intercalate_of_hasShape {parts : List String} (hne : parts ≠ [])
    (h : ∀ part ∈ parts, part ≠ "" → Identifier.hasShape part) :
    Text.split '-' ("-".intercalate parts) = parts := by
  refine Text.split_intercalate rfl hne fun part hpart => ?_
  rcases eq_or_ne part "" with rfl | hne
  · simp
  · exact Identifier.notMem_of_hasShape (h part hpart hne) (by decide)

theorem IsDashedName.isDashed {text : String} (h : IsDashedName text) : isDashed text := by
  obtain ⟨parts, htext, hshapes, part, hpart, -⟩ := h.parts
  have hsplit : Text.split '-' text = parts := by
    rw [htext, split_intercalate_of_hasShape (List.ne_nil_of_mem hpart) hshapes]
  refine isDashed_iff_forall.2 ⟨h.dash, h.undotted, hsplit ▸ fun part hpart => ?_⟩
  exact or_iff_not_imp_left.2 (hshapes part hpart)

theorem IsBare.isDashed {text : String} (h : IsBare text) : isDashed text := by
  obtain ⟨c, hc⟩ := List.exists_mem_of_ne_nil _ (mt String.toList_eq_nil_iff.1 h.1)
  have hdot : '.' ∉ text.toList := fun hmem => absurd (h.2 _ hmem) (by decide)
  refine isDashed_iff_forall.2 ⟨h.2 c hc ▸ hc, hdot, List.forall_mem_map.2 fun piece hpiece => ?_⟩
  have hempty : piece = [] := List.eq_nil_iff_forall_not_mem.2 fun c hc => by
    obtain ⟨hmem, hne⟩ := Text.mem_of_mem_pieces hpiece hc
    exact hne (h.2 c hmem)
  exact .inl (by rw [hempty])

/-- What is taken for a dashed name is one, or has nothing between its dashes. -/
theorem isDashed_iff {text : String} : isDashed text ↔ IsDashedName text ∨ IsBare text := by
  refine ⟨fun h => ?_, fun h => h.elim IsDashedName.isDashed IsBare.isDashed⟩
  obtain ⟨hdash, hdot, hparts⟩ := isDashed_iff_forall.1 h
  by_cases hbare : ∀ c ∈ text.toList, c = '-'
  · exact .inr ⟨fun hempty => by simp [hempty] at hdash, hbare⟩
  · refine .inl ⟨hdash, hdot, Text.split '-' text, (Text.intercalate_split rfl text).symm,
      fun part hpart => (hparts part hpart).resolve_left, ?_⟩
    push Not at hbare
    obtain ⟨c, hc, hne⟩ := hbare
    obtain ⟨piece, hpiece, hmem⟩ := Text.exists_piece_of_mem hc hne
    refine ⟨String.ofList piece, List.mem_map_of_mem hpiece, fun hempty => ?_⟩
    rw [← String.toList_inj, String.toList_ofList] at hempty
    simp [hempty] at hmem

theorem identifierPath?_of_isDashed {text : String} (h : isDashed text) :
    identifierPath? text = none := by
  refine Option.eq_none_iff_forall_ne_some.2 fun segments hsegments => ?_
  obtain ⟨rfl, hall⟩ := isIdentifier_of_identifierPath? hsegments
  have hne : '-' ≠ '.' := by decide
  obtain ⟨piece, hpiece, hmem⟩ := Text.exists_piece_of_mem (isDashed_iff_forall.1 h).1 hne
  have hdash : Identifier.isContinue '-' = false := by decide
  refine notMem_of_isIdentifier (hall _ (List.mem_map_of_mem hpiece)) hdash ?_
  rwa [String.toList_ofList]

/-- Dashes alone are neither a path nor a dashed name. -/
theorem IsBare.not_isPath {text first : String} (h : IsBare text) : ¬ IsPath first text := by
  rintro ⟨rest, hidentifiers, -, htext⟩
  have hpath := identifierPath?_eq_some_iff.2 ⟨List.cons_ne_nil first rest, hidentifiers, htext⟩
  rw [identifierPath?_of_isDashed h.isDashed] at hpath
  simp at hpath

theorem IsBare.not_isDashedName {text : String} (h : IsBare text) : ¬ IsDashedName text := by
  intro hname
  obtain ⟨parts, htext, hshapes, part, hpart, hne⟩ := hname.parts
  have hmem : part ∈ Text.split '-' text := by
    rwa [htext, split_intercalate_of_hasShape (List.ne_nil_of_mem hpart) hshapes]
  obtain ⟨piece, hpiece, rfl⟩ := List.mem_map.1 hmem
  obtain ⟨c, hc⟩ := List.exists_mem_of_ne_nil _ (mt String.toList_eq_nil_iff.1 hne)
  rw [String.toList_ofList] at hc
  obtain ⟨htextc, hdash⟩ := Text.mem_of_mem_pieces hpiece hc
  exact hdash (h.2 c htextc)

/-! ## Forms -/

variable {text first : String}

theorem form_of_isPath (h : IsPath first (Text.stripped text)) :
    ∃ rest, form text = .ok (.path (chain first rest)) := by
  obtain ⟨rest, hidentifiers, hself, htext⟩ := h
  have hpath : identifierPath? (Text.stripped text) = some (first :: rest) :=
    identifierPath?_eq_some_iff.2 ⟨List.cons_ne_nil first rest, hidentifiers, htext⟩
  exact ⟨rest, by simp [form, hpath, hself]⟩

theorem form_of_isDashed (h : isDashed (Text.stripped text)) :
    form text = .ok (.dashed (Text.stripped text)) := by
  simp [form, identifierPath?_of_isDashed h, h]

theorem form_eq_error (hpath : ∀ first, ¬ IsPath first (Text.stripped text))
    (hdashed : ¬ isDashed (Text.stripped text)) : ∃ problem, form text = .error problem := by
  rcases hsegments : identifierPath? (Text.stripped text) with _ | segments
  · exact ⟨.invalidBinding (Text.stripped text), by simp [form, hsegments, hdashed]⟩
  · obtain ⟨hne, hall, htext⟩ := identifierPath?_eq_some_iff.1 hsegments
    obtain ⟨first, rest, rfl⟩ := List.exists_cons_of_ne_nil hne
    have hself : first = Expr.selfName := by
      by_contra hother
      exact hpath first ⟨rest, hall, hother, htext⟩
    exact ⟨.selfReference, by simp [form, hsegments, hself]⟩

end Binding

/-! ## Bindings that are read -/

namespace CompileM

variable {env : Env} {site : Site} {text : String} {pos : Position} {c : Context}

theorem binding_of_path {first : String} {rest : List String}
    (h : Binding.form text = .ok (.path (Binding.chain first rest))) :
    ∃ code, Yields (binding env site text pos) c code { c with
      manifest.usedNames := if c.scope.isBound first then c.manifest.usedNames
        else record c.manifest.usedNames first } := by
  have hnames : (Binding.chain first rest).freeNames c.scope.isBound =
      if c.scope.isBound first then [] else [first] := by
    rw [Expr.freeNames_eq_filter, Binding.names_chain]
    cases hbound : c.scope.isBound first <;> simp [hbound]
  have hused := forM_useName_yields ((Binding.chain first rest).freeNames c.scope.isBound) c
  have hrecord : ((Binding.chain first rest).freeNames c.scope.isBound).foldl record
      c.manifest.usedNames = if c.scope.isBound first then c.manifest.usedNames
        else record c.manifest.usedNames first := by
    rw [hnames]
    split <;> rfl
  rw [hrecord] at hused
  rw [binding, h]
  exact ⟨_, yields_bind.2 ⟨c, c, rfl, yields_bind.2 ⟨(), _, hused, rfl⟩⟩⟩

theorem binding_of_isDashed (h : Binding.isDashed (Text.stripped text)) :
    ∃ code, Yields (binding env site text pos) c code { c with
      manifest.usedNames := record c.manifest.usedNames (Text.stripped text) } := by
  rw [binding, Binding.form_of_isDashed h]
  exact ⟨_, yields_bind.2 ⟨(), _, rfl, rfl⟩⟩

theorem binding_of_error {problem : Problem} (h : Binding.form text = .error problem) :
    binding env site text pos c = .error (.violation problem pos) c := by
  rw [binding, h]
  rfl

theorem eq_of_binding_error {failure : Failure} {c' : Context}
    (h : binding env site text pos c = .error failure c') : c' = c := by
  rcases hform : Binding.form text with problem | form
  · rw [binding_of_error hform, EStateM.Result.error.injEq] at h
    exact h.2.symm
  · have hfails : Fails (binding env site text pos) c failure := ⟨c', h⟩
    cases form <;> simp [binding, hform] at hfails

/-- A text is a binding if it is a path or a dashed name, or of dashes only. The name that a path
begins with is listed, if it is new and not bound, and the text itself if it is no path, if it is
new. If a text is no binding, everything is as it was. -/
theorem binding_yields_iff (env : Env) (site : Site) (text : String) (pos : Position)
    (c : Context) :
    ((∃ code c', Yields (binding env site text pos) c code c') ↔
      (∃ first, Binding.IsPath first (Text.stripped text)) ∨
        Binding.IsDashedName (Text.stripped text) ∨ Binding.IsBare (Text.stripped text)) ∧
    (∀ first, Binding.IsPath first (Text.stripped text) →
      ∃ code, Yields (binding env site text pos) c code { c with
        manifest.usedNames := if c.scope.isBound first then c.manifest.usedNames
          else record c.manifest.usedNames first }) ∧
    (Binding.IsDashedName (Text.stripped text) ∨ Binding.IsBare (Text.stripped text) →
      ∃ code, Yields (binding env site text pos) c code { c with
        manifest.usedNames := record c.manifest.usedNames (Text.stripped text) }) ∧
    ∀ failure c', binding env site text pos c = .error failure c' → c' = c := by
  have hpath : ∀ first, Binding.IsPath first (Text.stripped text) →
      ∃ code, Yields (binding env site text pos) c code { c with
        manifest.usedNames := if c.scope.isBound first then c.manifest.usedNames
          else record c.manifest.usedNames first } := fun first h =>
    (Binding.form_of_isPath h).elim fun _ => binding_of_path
  have hdashed : Binding.IsDashedName (Text.stripped text) ∨ Binding.IsBare (Text.stripped text) →
      ∃ code, Yields (binding env site text pos) c code { c with
        manifest.usedNames := record c.manifest.usedNames (Text.stripped text) } := fun h =>
    binding_of_isDashed (Binding.isDashed_iff.2 h)
  refine ⟨⟨?_, ?_⟩, hpath, hdashed, fun _ _ => eq_of_binding_error⟩
  · rintro ⟨code, c', hyields⟩
    by_contra hnone
    rw [not_or, not_exists, ← Binding.isDashed_iff] at hnone
    obtain ⟨problem, hform⟩ := Binding.form_eq_error hnone.1 hnone.2
    rw [Yields, binding_of_error hform] at hyields
    exact absurd hyields (by simp)
  · rintro (⟨first, h⟩ | h)
    · obtain ⟨code, hyields⟩ := hpath first h
      exact ⟨code, _, hyields⟩
    · obtain ⟨code, hyields⟩ := hdashed h
      exact ⟨code, _, hyields⟩

/-- A dash is taken for a binding, and listed, though it is no name. -/
theorem binding_of_dash : (¬ ∃ first, Binding.IsPath first "-") ∧ ¬ Binding.IsDashedName "-" ∧
    Yields (binding .default ⟨[], false⟩ "-" ⟨some 1, some 0⟩) Context.initial
      (.index none (.ref "cmp") (.text "-"))
      { Context.initial with manifest.usedNames := ["-"] } := by
  have hbare : Binding.IsBare "-" := ⟨by decide, by simp⟩
  refine ⟨fun ⟨_, h⟩ => hbare.not_isPath h, hbare.not_isDashedName, ?_⟩
  rw [binding, Binding.form_of_isDashed (by decide +kernel)]
  rfl

end CompileM

end TemplateCompiler
