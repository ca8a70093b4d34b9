import TemplateCompiler.Proofs.ForStatements
import TemplateCompiler.Proofs.Imports
import TemplateCompiler.Proofs.Inert
import TemplateCompiler.Proofs.Trees

/-!
# The spelling of names

Where a module has its names from, and that each of them is an identifier: numbered names and
aliases by their characters, as no keyword begins with a low line; the names that an iteration binds
because they are read only if they are; the names in a binding likewise. Of the names in an
expression this is what the template brings along (`Expr.Spelled`).
-/

namespace TemplateCompiler

/-! ## Names with a low line in front -/

theorem Identifier.isContinue_of_mem_toDigits {n : Nat} {c : Char} (h : c ∈ Nat.toDigits 10 n) :
    isContinue c := by
  have hdigit : c.isDigit := Nat.isDigit_of_mem_toDigits (by decide) (by decide) h
  simp only [Char.isDigit, Bool.and_eq_true, decide_eq_true_eq] at hdigit
  have hlt : c.toNat < 0x80 :=
    lt_of_le_of_lt (UInt32.le_iff_toNat_le.1 hdigit.2) (by decide)
  rw [isContinue, if_pos hlt]
  simp only [Bool.or_eq_true, Bool.and_eq_true, decide_eq_true_eq]
  exact .inr hdigit

/-- No keyword begins with a low line. -/
theorem isIdentifier_of_lowLine {name : String} {rest : List Char} (h : name.toList = '_' :: rest)
    (hrest : ∀ c ∈ rest, Identifier.isContinue c) : isIdentifier name := by
  have hkeywords : ∀ k ∈ Identifier.keywords, k.toList.head? ≠ some '_' := by decide
  have hstart : Identifier.isStart '_' := by decide
  have hnew : name ∉ Identifier.keywords := fun hmem => hkeywords name hmem (by rw [h]; rfl)
  simpa [isIdentifier, Identifier.hasShape, h, hstart, hnew] using hrest

theorem isIdentifier_numberedName {stem : String} (h : stem.toList.all Identifier.isContinue)
    (n : Nat) :
    isIdentifier (CompileM.numberedName stem n) := by
  refine isIdentifier_of_lowLine (CompileM.toList_numberedName stem n) fun c hc => ?_
  rcases List.mem_append.1 hc with hc | hc
  · exact List.all_eq_true.1 h c hc
  · exact Identifier.isContinue_of_mem_toDigits hc

namespace Numbering

theorem isIdentifier_temporary (n : Numbering) : isIdentifier n.temporary :=
  isIdentifier_numberedName (by decide) _

theorem isIdentifier_loop (n : Numbering) : isIdentifier n.loop :=
  isIdentifier_numberedName (by decide) _

theorem isIdentifier_of_mem_issued {n : Numbering} {name : String} (h : name ∈ n.issued) :
    isIdentifier name := by
  rcases List.mem_append.1 h with h | h
  · obtain ⟨i, -, rfl⟩ := List.mem_map.1 h
    exact isIdentifier_numberedName (by decide) i
  · obtain ⟨i, -, rfl⟩ := List.mem_map.1 h
    exact isIdentifier_numberedName (by decide) i

end Numbering

/-! ## Paths and their aliases -/

theorem isIdentifier_of_identifierPath? {path : String} {segments : List String}
    (h : identifierPath? path = some segments) :
    segments = Text.split '.' path ∧ ∀ s ∈ segments, isIdentifier s := by
  unfold identifierPath? at h
  dsimp only at h
  split at h
  · rename_i hall
    obtain rfl := Option.some.inj h
    exact ⟨rfl, List.all_eq_true.1 hall⟩
  · simp at h

namespace Component

variable {path : String}

theorem isDottedPath_of_isImportable (h : isImportable path) : IsDottedPath path := by
  obtain ⟨segments, hsegments⟩ := Option.isSome_iff_exists.1 h
  obtain ⟨rfl, hall⟩ := isIdentifier_of_identifierPath? hsegments
  refine ⟨_, by simp [Text.split, Text.pieces_ne_nil], hall, ?_⟩
  rw [← String.toList_inj, String.toList_intercalate, Text.split, List.map_map]
  simpa [Function.comp_def] using (Text.intercalate_pieces '.' path.toList).symm

theorem isContinue_of_mem_underscored (h : isImportable path) {c : Char}
    (hc : c ∈ (underscored '.' path).toList) : Identifier.isContinue c := by
  obtain ⟨segments, hsegments⟩ := Option.isSome_iff_exists.1 h
  obtain ⟨rfl, hall⟩ := isIdentifier_of_identifierPath? hsegments
  rw [underscored, String.toList_ofList] at hc
  obtain ⟨x, hx, rfl⟩ := List.mem_map.1 hc
  split
  · decide
  · rename_i hdot
    obtain ⟨piece, hp, hmem⟩ := Text.exists_piece_of_mem hx hdot
    have hpiece := hasShape_of_isIdentifier (hall _ (List.mem_map_of_mem hp))
    exact Identifier.isContinue_of_mem hpiece (by rwa [String.toList_ofList])

theorem isIdentifier_candidate (h : isImportable path) (n : Nat) :
    isIdentifier (candidate (plainAlias path) n) := by
  have hplain : (plainAlias path).toList = '_' :: (underscored '.' path).toList := by
    simp [plainAlias]
  have hchars : ∀ c ∈ (underscored '.' path).toList, Identifier.isContinue c :=
    fun _ => isContinue_of_mem_underscored h
  by_cases hn : n = 0
  · subst hn
    exact isIdentifier_of_lowLine hplain hchars
  · refine isIdentifier_of_lowLine (by rw [toList_candidate _ hn, hplain, List.cons_append]) ?_
    rw [List.forall_mem_append]
    refine ⟨hchars, List.forall_mem_cons.2 ⟨by decide, ?_⟩⟩
    exact fun _ => Identifier.isContinue_of_mem_toDigits

/-- Every alias in a table is a candidate for its path. -/
theorem exists_candidate_of_mem_aliasTable {helper : String} {paths : List String}
    {e : String × String} (h : e ∈ aliasTable helper paths) :
    ∃ n, e.2 = candidate (plainAlias e.1) n := by
  have hstep : ∀ (paths : List String) (table : List (String × String)),
      (∀ e ∈ table, ∃ n, e.2 = candidate (plainAlias e.1) n) →
        ∀ e ∈ paths.foldl (withAlias helper) table, ∃ n, e.2 = candidate (plainAlias e.1) n := by
    intro paths
    induction paths with
    | nil => exact fun _ htable => htable
    | cons path rest ih =>
      refine fun table htable => ih _ ?_
      unfold withAlias
      split
      · exact htable
      · rw [List.forall_mem_append]
        obtain ⟨low, hlow⟩ := toList_plainAlias path
        obtain ⟨-, hn⟩ := freshAlias_free (table.map Prod.snd ++ [helper]) (plainAlias path)
          (by simp [hlow])
        exact ⟨htable, List.forall_mem_singleton.2 hn⟩
  exact hstep paths [] (by simp) e h

end Component

theorem ElementKind.chooses_of_request? {tag : Tag} {written : Option Content} {path : String}
    {kind : ElementKind} (h : kind.request? tag written = some path) : kind.chooses := by
  cases kind <;> simp_all [request?, chooses]

theorem CallsElement.importable {config : Config} {K : Context} {tag : Tag}
    {written : Option Content} {parts : List Part} {items : List Item} {kind : ElementKind}
    {code : Code} {path : String} (h : CallsElement config K tag written parts items kind code)
    (hpath : kind.request? tag written = some path) : Component.isImportable path := by
  cases h with
  | virtual imported | custom imported =>
    exact Option.some.inj hpath ▸ imported.importable
  | named names imported =>
    rw [ElementKind.request?, names] at hpath
    exact Option.some.inj hpath ▸ imported.importable
  | computed names => simp [ElementKind.request?, names] at hpath
  | plain => simp [ElementKind.request?] at hpath

variable {env : Env} {config : Config} {K : Context} {t : Template} {n : Numbering}
  {compiled : Compiled} {sibling : Sibling} {ds : List Declaration}

namespace Compiles

variable (hc : Compiles env t compiled K sibling ds n)

include hc

theorem importable {path : String} (h : path ∈ t.requests env.config) :
    Component.isImportable path := by
  obtain ⟨place, e, he, hrequest⟩ := hc.exists_element_of_mem_requests h
  cases e with
  | element pos tag attributes children =>
    obtain ⟨binders, s, inner, m, m', hl⟩ := hc.exists_lowered place he
    cases hl.lowers with
    | mk reads _ _ _ _ seals =>
      simp only [Node.request?, Node.readings, reads] at hrequest
      obtain ⟨call, chosen, own, calls, -⟩ := seals.call_stands
        (ElementKind.chooses_of_request? hrequest) hl.stands hl.inner
      exact calls.importable hrequest
  | text | placeholder | fragment | literal | attr | template => simp [Node.request?] at hrequest

/-- What is imported has a path and an alias that can be written. -/
theorem spelled_import (h : (compile env t).1 = .ok compiled) {i : Import}
    (hi : i ∈ compiled.module.imports) : IsDottedPath i.path ∧ isIdentifier i.localName := by
  rw [(imports_eq h).2] at hi
  obtain ⟨e, he, rfl⟩ := List.mem_map.1 hi
  have hmem : e.1 ∈ t.requests env.config := by
    rw [← List.mem_eraseDups, ← Component.map_fst_aliasTable env.config.bindHelper]
    exact List.mem_map_of_mem he
  obtain ⟨m, hm⟩ := Component.exists_candidate_of_mem_aliasTable he
  have himportable := hc.importable hmem
  exact ⟨Component.isDottedPath_of_isImportable himportable,
    hm ▸ Component.isIdentifier_candidate himportable m⟩

theorem isIdentifier_of_imported (h : (compile env t).1 = .ok compiled) {path localName : String}
    (himported : Imported K path localName) : isIdentifier localName := by
  have hmem := himported.component
  rw [← hc.paths] at hmem
  obtain ⟨i, hi, rfl⟩ := List.mem_map.1 hmem
  obtain rfl : i.localName = localName :=
    Option.some.inj ((hc.imports i hi).symm.trans himported.known)
  exact (hc.spelled_import h hi).2

end Compiles

/-! ## What an iteration binds -/

namespace ForStatement

theorem areParameters_of_parse {text : String} {s : ForStatement} (h : parse text = .ok s) :
    AreParameters s.parameters := by
  obtain ⟨target, -, -, -, -, hparameters, hidentifiers, hnodup⟩ := parse_eq_ok_iff.1 h
  obtain ⟨hpos, hle⟩ := length_targetParameters target
  exact ⟨hidentifiers, hnodup, hparameters ▸ hpos, hparameters ▸ hle⟩

end ForStatement

def LoopPart.Spelled : LoopPart → Prop
  | statement s => AreParameters s.parameters
  | item name | index name => isIdentifier name
  | each _ | idle => True

/-- What repeats by its parts has a name for the item, and may have one for the index. -/
theorem LoopPart.areParameters {parts : List LoopPart} {content : Content}
    {parameters : List String} (hspelled : ∀ part ∈ parts, part.Spelled)
    (hiterable : iterable? parts = .ok (some content))
    (hparameters : LoopPart.parameters parts = .ok parameters) : AreParameters parameters := by
  unfold LoopPart.parameters at hparameters
  unfold iterable? at hiterable
  rcases hs : statement? parts with _ | s
  · have hitem : ∃ name, item? parts = some name := by
      simp only [hs] at hiterable
      split at hiterable
      · simp at hiterable
      · split at hiterable
        · simp at hiterable
        · split at hiterable
          · rename_i hsome
            exact Option.isSome_iff_exists.1 hsome
          · simp at hiterable
    obtain ⟨name, hname⟩ := hitem
    have hnames : isIdentifier name ∧ ∀ i ∈ index? parts, isIdentifier i := by
      refine ⟨?_, fun i hi => ?_⟩
      · obtain ⟨part, hpart, hfound⟩ := List.exists_of_findSome?_eq_some hname
        cases part <;> simp at hfound
        exact hfound ▸ hspelled _ hpart
      · obtain ⟨part, hpart, hfound⟩ := List.exists_of_findSome?_eq_some hi
        cases part <;> simp at hfound
        exact hfound ▸ hspelled _ hpart
    simp only [hs, hname, Option.toList_some] at hparameters
    split at hparameters
    · rename_i hnodup
      obtain rfl := Except.ok.inj hparameters
      refine ⟨?_, hnodup, by simp, ?_⟩
      · simpa using hnames
      · cases index? parts <;> simp
    · simp at hparameters
  · simp only [hs, Except.ok.injEq] at hparameters
    obtain ⟨part, hpart, hfound⟩ := List.exists_of_findSome?_eq_some hs
    cases part <;> simp at hfound
    exact hparameters ▸ hfound ▸ hspelled _ hpart

namespace Reading

theorem isIdentifier_of_parameterName {m : Modifier} {content : Content} {name : String}
    (h : parameterName config m content = .ok name) : isIdentifier name := by
  unfold parameterName at h
  split at h
  · rename_i text _
    split at h
    · rename_i hidentifier
      rcases hc : checkParameters config [text] with problem | u
      · simp [hc, bind, Except.bind] at h
      · simp only [hc, bind, Except.bind, pure, Except.pure, Except.ok.injEq] at h
        exact h ▸ hidentifier
    · simp at h
  · simp at h

theorem spelled_of_isRead {a : Attribute} {part : LoopPart}
    (h : a.IsRead config (.iteration part)) : part.Spelled := by
  obtain ⟨_, _, -, -, hread⟩ := h
  cases hread with
  | iteration reads =>
    cases reads with
    | statement _ parses => exact ForStatement.areParameters_of_parse parses
    | item names | index names => exact isIdentifier_of_parameterName names
    | each | idle => trivial

theorem spelled_of_mem_loopParts {attributes : List Attribute} {readings : List Reading}
    (reads : ofAttributes config [] attributes = .ok readings) :
    ∀ part ∈ loopParts readings, part.Spelled := by
  intro part hpart
  obtain ⟨reading, hr, hpart⟩ := List.mem_filterMap.1 hpart
  cases reading <;> simp at hpart
  subst hpart
  obtain ⟨a, -, hread⟩ := exists_attribute_of_mem reads hr
  exact spelled_of_isRead hread

end Reading

/-- An element of a unit that compiles repeats for parameters that a function can have. -/
theorem Compiles.areParameters (hc : Compiles env t compiled K sibling ds n) {place : Place}
    {parameters : List String} (h : t.RepeatsFor env.config place parameters) :
    AreParameters parameters := by
  obtain ⟨⟨pos, tag, attributes, children, he, hiterates⟩, rfl⟩ := h
  obtain ⟨binders, s, inner, m, m', hl⟩ := hc.exists_lowered place he
  cases hl.lowers with
  | @mk _ _ _ _ _ _ readings loop _ _ _ _ _ _ _ _ _ _ _ _ reads opens _ _ _ _ =>
    have hloop : loop ≠ none := fun hnone => by
      simp [(opens.eq_none_iff reads).1 hnone] at hiterates
    obtain ⟨l, rfl⟩ := Option.ne_none_iff_exists'.1 hloop
    rw [← congrArg Binder.parameters (opens.binder_eq (Template.readingsAt_element he reads))]
    cases opens with
    | repeated found _ binder =>
      exact LoopPart.areParameters (Reading.spelled_of_mem_loopParts reads) found binder

/-! ## What a template brings along -/

namespace Expr

/-- The names in an expression, those of members included. -/
def identifiers : Expr → List String
  | name _ id => [id]
  | member _ value id => value.identifiers ++ [id]
  | index _ value key => value.identifiers ++ key.identifiers
  | constant .. | foreign .. => []

def Spelled (e : Expr) : Prop :=
  ∀ id ∈ e.identifiers, isIdentifier id

theorem spelled_chain {first : String} {rest : List String}
    (h : ∀ id ∈ first :: rest, isIdentifier id) : (Binding.chain first rest).Spelled := by
  have hfold : ∀ (rest : List String) (e : Expr), e.Spelled → (∀ id ∈ rest, isIdentifier id) →
      (rest.foldl (fun e id => .member none e id) e).Spelled := by
    intro rest
    induction rest with
    | nil => exact fun _ he _ => he
    | cons id rest ih =>
      intro e he hrest
      rw [List.forall_mem_cons] at hrest
      exact ih _ (List.forall_mem_append.2 ⟨he, List.forall_mem_singleton.2 hrest.1⟩) hrest.2
  rw [List.forall_mem_cons] at h
  exact hfold rest _ (List.forall_mem_singleton.2 h.1) h.2

end Expr

def Term.Spelled : Term → Prop
  | expression e => e.Spelled
  | constant _ | dashed _ => True

mutual

/-- The expressions in a node, wherever they stand. -/
def Node.expressions : Node → List Expr
  | .element _ _ attributes children => attributeExpressions attributes ++ expressionsOf children
  | .placeholder _ e => e.toList
  | .fragment _ children | .template _ children => expressionsOf children
  | .attr a => a.expressions
  | .text .. | .literal .. => []

def Attribute.expressions : Attribute → List Expr
  | ⟨_, _, value⟩ => value.expressions

def AttributeValue.expressions : AttributeValue → List Expr
  | .node node => node.expressions
  | .bare | .constant _ => []

def expressionsOf : List Node → List Expr
  | [] => []
  | node :: rest => node.expressions ++ expressionsOf rest

def attributeExpressions : List Attribute → List Expr
  | [] => []
  | a :: rest => a.expressions ++ attributeExpressions rest

end

def Template.expressions (t : Template) : List Expr :=
  expressionsOf t.body

theorem expressionsOf_eq_flatMap : ∀ nodes, expressionsOf nodes = nodes.flatMap Node.expressions :=
  eq_flatMap rfl fun _ _ => rfl

theorem attributeExpressions_eq_flatMap (attributes : List Attribute) :
    attributeExpressions attributes = attributes.flatMap Attribute.expressions := by
  induction attributes with
  | nil => rfl
  | cons a rest ih => rw [attributeExpressions, ih, List.flatMap_cons]

/-- A text that says a binding says identifiers. -/
theorem Content.spelled_constant {c : Constant} {isDirective : Bool} {term : Term}
    (h : (Content.constant c).term? isDirective = some term) : term.Spelled := by
  simp only [Content.term?] at h
  split at h
  · split at h
    · rename_i hform
      obtain rfl := Option.some.inj h
      obtain ⟨first, rest, hpath, -, rfl⟩ := Binding.exists_chain_of_form hform
      exact Expr.spelled_chain (isIdentifier_of_identifierPath? hpath).2
    · obtain rfl := Option.some.inj h
      trivial
    · simp at h
  · obtain rfl := Option.some.inj h
    trivial

theorem Content.mem_expressions {a : Attribute} {e : Expr}
    (h : ofAttribute a = .ok (.expression e)) : e ∈ a.expressions := by
  obtain ⟨pos, tag, value⟩ := a
  unfold ofAttribute at h
  split at h
  · simp at h
  · simp at h
  · simp at h
  · rename_i pos' found hvalue
    obtain rfl : value = _ := hvalue
    rcases hcheck : found.check .value with problem | u
    · simp [hcheck, bind, Except.bind] at h
    · simp only [hcheck, bind, Except.bind, pure, Except.pure, Except.ok.injEq,
        expression.injEq] at h
      simp [Attribute.expressions, AttributeValue.expressions, Node.expressions, h]
  · simp at h
  · simp at h

mutual

/-- If the expressions in a node are spelled right, so is all that is resolved of it. -/
theorem Node.spelled_terms : ∀ {node : Node}, (∀ e ∈ node.expressions, e.Spelled) →
    ∀ term ∈ node.terms config, term.Spelled
  | .element pos tag attributes children, h => by
    rw [Node.expressions, List.forall_mem_append, attributeExpressions_eq_flatMap] at h
    rw [Node.terms, List.forall_mem_append]
    refine ⟨fun term hterm => ?_, spelled_termsOf h.2⟩
    obtain ⟨reading, hreading, hterm⟩ := List.mem_flatMap.1 hterm
    simp only [Node.readings] at hreading
    split at hreading
    · rename_i reads
      obtain ⟨a, ha, hread⟩ := Reading.exists_attribute_of_mem reads hreading
      exact hread.forall_terms Content.spelled_constant (fun he => h.1 _
        (List.mem_flatMap.2 ⟨a, ha, Content.mem_expressions he⟩)) term hterm
    · simp at hreading
  | .placeholder _ none, _ => nofun
  | .placeholder _ (some _), h => List.forall_mem_singleton.2 (h _ List.mem_cons_self)
  | .fragment _ _, h => by
    rw [Node.expressions] at h
    exact spelled_termsOf h
  | .text .., _ | .literal .., _ | .attr _, _ | .template .., _ => nofun

theorem spelled_termsOf : ∀ {nodes : List Node}, (∀ e ∈ expressionsOf nodes, e.Spelled) →
    ∀ term ∈ termsOf config nodes, term.Spelled
  | [], _ => nofun
  | _ :: _, h => by
    rw [expressionsOf, List.forall_mem_append] at h
    exact List.forall_mem_append.2 ⟨Node.spelled_terms h.1, spelled_termsOf h.2⟩

end

theorem Template.spelled_terms (h : ∀ e ∈ t.expressions, e.Spelled) :
    ∀ term ∈ t.terms config, term.Spelled := by
  unfold terms
  rcases hroot : t.root? with _ | root
  · nofun
  · have hmem : root ∈ t.body := List.mem_of_mem_filter (List.mem_of_mem_head? hroot)
    refine Node.spelled_terms fun e he => h e ?_
    rw [expressions, expressionsOf_eq_flatMap]
    exact List.mem_flatMap.2 ⟨root, hmem, he⟩

end TemplateCompiler
