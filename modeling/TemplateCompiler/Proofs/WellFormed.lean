import TemplateCompiler.Proofs.Closed
import TemplateCompiler.Proofs.Spelling
import TemplateCompiler.Proofs.Toplevel

/-!
# Modules are well formed

If the expressions of a template are written with identifiers, the module made of it is a syntax
tree that is well formed (`wellFormed_of_ok`): code that is composed of contents is, form by form
(`Composed.wellFormed`), and so are the statements that it is hoisted into.
-/

namespace TemplateCompiler

/-- The names that a configuration gives, those of the primitives included. -/
def Config.givenNames (config : Config) : List String :=
  config.names ++ config.primitives.names

/-- The names that a module is given can be written. -/
structure Spells (env : Env) (K : Context) (t : Template) : Prop where
  given : ∀ name ∈ env.config.givenNames, isIdentifier name
  imported : ∀ {path localName}, Imported K path localName → isIdentifier localName
  repeated : ∀ {place parameters}, t.RepeatsFor env.config place parameters →
    AreParameters parameters

variable {env : Env} {K : Context} {t : Template} {n : Numbering} {compiled : Compiled}
  {sibling : Sibling} {ds : List Declaration}

namespace Code

/-- A piece of code that is well formed as a tree. -/
def WellFormed (code : Code) : Prop :=
  code.tree.WellFormed

variable {code callee value : Code}

theorem wellFormed_member {span : Option Span} {field : String} (h : value.WellFormed)
    (hfield : isIdentifier field) : (Code.member span value field).WellFormed :=
  .attribute h hfield

theorem wellFormed_call {arguments : List Code} (h : callee.WellFormed)
    (harguments : ∀ a ∈ arguments, a.WellFormed) : (Code.call callee arguments).WellFormed := by
  rw [WellFormed, tree, listTrees_eq_map]
  exact .call h (List.forall_mem_map.2 harguments)

theorem wellFormed_dict {entries : List (String × Code)} (h : ∀ e ∈ entries, e.2.WellFormed) :
    (Code.dict entries).WellFormed := by
  rw [WellFormed, tree, entryTrees_eq_map]
  exact .dict (by simp) (List.forall_mem_map.2 fun _ _ => .constant) (List.forall_mem_map.2 h)

theorem wellFormed_list {items : List Code} (h : ∀ i ∈ items, i.WellFormed) :
    (Code.list items).WellFormed := by
  rw [WellFormed, tree, listTrees_eq_map]
  exact .list (List.forall_mem_map.2 h)

theorem wellFormed_and {left right : Code} (h : left.WellFormed) (hright : right.WellFormed) :
    (Code.and left right).WellFormed :=
  .connected (by simp) (by simpa using ⟨h, hright⟩)

theorem wellFormed_or {left right : Code} (h : left.WellFormed) (hright : right.WellFormed) :
    (Code.or left right).WellFormed :=
  .connected (by simp) (by simpa using ⟨h, hright⟩)

end Code

namespace Spells

variable (h : Spells env K t)

include h

theorem wellFormed_ref {id : String} (hid : id ∈ env.config.names) : (Code.ref id).WellFormed :=
  .name (h.given id (List.mem_append_left _ hid))

theorem wellFormed_refMember {id field : String} (hid : id ∈ env.config.names)
    (hfield : isIdentifier field) : (Code.refMember id field).WellFormed :=
  Code.wellFormed_member (h.wellFormed_ref hid) hfield

theorem wellFormed_callPrimitive {name : String} {arguments : List Code}
    (hname : name ∈ env.config.primitives.names) (harguments : ∀ a ∈ arguments, a.WellFormed) :
    (env.config.callPrimitive name arguments).WellFormed :=
  Code.wellFormed_call (h.wellFormed_refMember (by simp [Config.names])
    (h.given name (List.mem_append_right _ hname))) harguments

theorem wellFormed_qualify {site : Site} {bound : String → Bool} : ∀ {e : Expr}, e.Allowed →
    e.Spelled → (e.qualify env.config.instanceParam site bound).WellFormed
  | .name _ id, _, hid => by
    have hname : isIdentifier id := hid id List.mem_cons_self
    rw [Expr.qualify]
    split
    · exact .name hname
    · exact h.wellFormed_refMember (by simp [Config.names]) hname
  | .member .., hvalue, hs => by
    rw [Expr.Spelled, Expr.identifiers, List.forall_mem_append, List.forall_mem_singleton] at hs
    exact Code.wellFormed_member (wellFormed_qualify hvalue hs.1) hs.2
  | .index .., ⟨hvalue, hkey⟩, hs => by
    rw [Expr.Spelled, Expr.identifiers, List.forall_mem_append] at hs
    exact .subscript (wellFormed_qualify hvalue hs.1) (wellFormed_qualify hkey hs.2)
  | .constant .., _, _ => .constant

theorem wellFormed_term {site : Site} {bound : String → Bool} {term : Term}
    (hterm : term.Allowed ∧ term.Spelled) : (term.code env.config site bound).WellFormed := by
  cases term with
  | constant c => exact .constant
  | expression e => exact h.wellFormed_qualify hterm.1 hterm.2
  | dashed name => exact .subscript (h.wellFormed_ref (by simp [Config.names])) .constant

theorem wellFormed_memoized {key : String} {value : Code} (hvalue : value.WellFormed) :
    (CompileM.memoized env key value).WellFormed := by
  have hmemo : ∀ {name}, isIdentifier name →
      (Code.refMember env.config.contextParam name).WellFormed :=
    h.wellFormed_refMember (by simp [Config.names])
  have hkey : (Code.text key).WellFormed := .constant
  refine Code.wellFormed_or (Code.wellFormed_call (hmemo (by decide)) ?_)
    (Code.wellFormed_call (hmemo (by decide)) ?_)
  · exact List.forall_mem_singleton.2 hkey
  · exact List.forall_mem_cons.2 ⟨hkey, List.forall_mem_singleton.2 hvalue⟩

end Spells

/-! ## Composed code -/

theorem Composed.wellFormed {code : Code}
    (h : Composed env K t (fun term => term.Allowed ∧ term.Spelled) code) (hs : Spells env K t) :
    code.WellFormed := by
  have hiterator : env.config.primitives.iterator ∈ env.config.primitives.names := by
    simp [Primitives.names]
  induction h with
  | term allowed => exact hs.wellFormed_term allowed
  | constant => exact .constant
  | component imported => exact .name (hs.imported imported)
  | bound _ ih =>
    refine Code.wellFormed_call (hs.wellFormed_ref (by simp [Config.names])) ?_
    exact List.forall_mem_cons.2
      ⟨ih, List.forall_mem_singleton.2 (hs.wellFormed_ref (by simp [Config.names]))⟩
  | memoized _ ih => exact hs.wellFormed_memoized ih
  | primitive named _ ih => exact hs.wellFormed_callPrimitive named ih
  | inline repeats _ _ source each =>
    refine hs.wellFormed_callPrimitive hiterator (List.forall_mem_cons.2 ⟨source, ?_⟩)
    exact List.forall_mem_singleton.2 (.lambda (hs.repeated repeats) each)
  | declared n _ ih =>
    refine hs.wellFormed_callPrimitive hiterator (List.forall_mem_cons.2 ⟨ih, ?_⟩)
    exact List.forall_mem_singleton.2 (.name n.isIdentifier_loop)
  | outlet _ ih =>
    refine Code.wellFormed_or (Code.wellFormed_call ?_ (List.forall_mem_singleton.2 .constant)) ih
    exact hs.wellFormed_refMember (by simp [Config.names]) (by decide)
  | dict _ ih => exact Code.wellFormed_dict ih
  | list _ ih => exact Code.wellFormed_list ih
  | choice _ _ _ tests holds fails => exact .conditional tests holds fails
  | guarded n _ ih => exact Code.wellFormed_and (.name n.isIdentifier_temporary) ih
  | tested _ ih => exact Code.wellFormed_or ih .constant

/-! ## Statements -/

theorem boundNames_subset_of_mem {d : Declaration} (h : d ∈ ds) :
    boundNames [d] ⊆ boundNames ds := by
  obtain ⟨before, after, rfl⟩ := List.append_of_mem h
  have hsplit : before ++ d :: after = before ++ ([d] ++ after) := rfl
  rw [hsplit, boundNames_append, boundNames_append]
  exact List.subset_append_of_subset_right _ (List.subset_append_left ..)

/-- A statement is hoisted under the names that it binds. -/
theorem Declaration.Composed.isHoisted {d : Declaration}
    (h : d.Composed env K t (fun term => term.Allowed ∧ term.Spelled)) (hs : Spells env K t)
    (hnames : ∀ name ∈ boundNames [d], isIdentifier name) : d.tree.IsHoisted := by
  induction h with
  | assign composed =>
    rw [boundNames_assign, List.forall_mem_singleton] at hnames
    exact .assign hnames (composed.wellFormed hs)
  | @define f repeats result inside ih =>
    rw [boundNames_define, List.forall_mem_cons] at hnames
    rw [Declaration.tree, Function.tree_eq]
    refine .define hnames.1 (hs.repeated repeats) (List.forall_mem_map.2 fun d hd => ?_)
      (result.wellFormed hs)
    exact ih d hd fun name hname => hnames.2 name (boundNames_subset_of_mem hd hname)

/-! ## Modules -/

theorem Compiles.spells (hc : Compiles env t compiled K sibling ds n)
    (h : (compile env t).1 = .ok compiled)
    (hgiven : ∀ name ∈ env.config.givenNames, isIdentifier name) : Spells env K t where
  given := hgiven
  imported := hc.isIdentifier_of_imported h
  repeated := hc.areParameters

theorem Compiles.isIdentifier_of_mem_boundNames (hc : Compiles env t compiled K sibling ds n)
    {name : String} (hname : name ∈ boundNames compiled.module.function.declarations) :
    isIdentifier name := by
  have hcount := hc.count_boundNames_le name
  exact Numbering.isIdentifier_of_mem_issued
    (List.count_pos_iff.1 ((List.count_pos_iff.2 hname).trans_le hcount))

/-- The render function and what it is made of. -/
theorem Compiles.isTopLevel_function (hc : Compiles env t compiled K sibling ds n)
    (hs : Spells env K t) (hnodup : env.config.names.Nodup)
    (hexpressions : ∀ e ∈ t.expressions, e.Spelled) :
    compiled.module.function.tree.IsTopLevel := by
  have hparams : compiled.module.function.parameters = env.config.names.drop 3 := by
    rw [hc.function]
    rfl
  have hname : compiled.module.function.name ∈ env.config.names := by
    rw [hc.function]
    simp [CompileM.renderFunction, Config.names]
  have hmem : compiled.module.function.parameters ⊆ env.config.names :=
    hparams ▸ List.drop_subset 3 _
  have hterms : ∀ term ∈ t.terms env.config, term.Allowed ∧ term.Spelled := fun term hterm =>
    ⟨hc.allowed term hterm, Template.spelled_terms hexpressions term hterm⟩
  obtain ⟨hinner, hresult⟩ := hc.composed_function hterms
  rw [Function.tree_eq]
  refine .define (hs.given _ (List.mem_append_left _ hname))
    (fun p hp => hs.given p (List.mem_append_left _ (hmem hp)))
    (hparams ▸ hnodup.sublist (List.drop_sublist 3 _)) (List.forall_mem_map.2 fun d hd => ?_)
    (hresult.wellFormed hs)
  have hinside : d ∈ compiled.module.function.inner := by
    rw [Function.inner_eq]
    exact subset_allDeclarations _ hd
  exact (hinner d hinside).isHoisted hs fun name hname =>
    hc.isIdentifier_of_mem_boundNames (boundNames_subset_of_mem hd hname)

/-- All statements of a module, of which the first may import the bind helper. -/
theorem Compiles.isTopLevel (hc : Compiles env t compiled K sibling ds n)
    (h : (compile env t).1 = .ok compiled)
    (hgiven : ∀ name ∈ env.config.givenNames, isIdentifier name)
    (hnodup : env.config.names.Nodup) (hexpressions : ∀ e ∈ t.expressions, e.Spelled) :
    ∀ s ∈ compiled.module.tree, s.IsTopLevel := by
  have hs := hc.spells h hgiven
  have htypes : IsDottedPath "types" := ⟨["types"], by simp, by decide, by decide⟩
  have hmanifest : isIdentifier compiled.module.manifestName := by
    rw [manifestName_eq h]
    exact hgiven _ (List.mem_append_left _ (by simp [Config.names]))
  simp only [Module.tree, Module.body, List.map_append, List.map_cons, List.map_nil,
    List.forall_mem_append, List.forall_mem_cons, List.forall_mem_map]
  refine ⟨⟨fun s hmem => ?_, fun i hi => ?_⟩, ?_⟩
  · rw [Option.mem_toList, Option.map_eq_some_iff] at hmem
    obtain ⟨helper, hhelper, rfl⟩ := hmem
    rw [hc.helper] at hhelper
    split at hhelper
    · obtain rfl := Option.some.inj hhelper
      refine .importFrom htypes (by decide) ?_
      exact hgiven _ (List.mem_append_left _ (by simp [Config.names]))
    · simp at hhelper
  · obtain ⟨hpath, hname⟩ := hc.spelled_import h hi
    exact .importModule hpath hname
  · refine ⟨hc.isTopLevel_function hs hnodup hexpressions, ?_, List.forall_mem_nil _⟩
    exact .assign hmanifest (.tuple (List.forall_mem_map.2 fun _ _ => .constant))

/-- Under the default names a module is well formed, if the names in the expressions of its template
can be written. -/
theorem wellFormed_of_ok (h : (compile env t).1 = .ok compiled) (hconfig : env.config = {})
    (hexpressions : ∀ e ∈ t.expressions, ∀ id ∈ e.identifiers, isIdentifier id) :
    ∀ s ∈ compiled.module.tree, s.IsTopLevel := by
  have hgiven : ∀ name ∈ env.config.givenNames, isIdentifier name := by
    rw [hconfig]
    decide
  have hnodup : env.config.names.Nodup := by
    rw [hconfig]
    decide
  obtain ⟨K, sibling, ds, n, hc⟩ := compiles_of_ok h
  exact hc.isTopLevel h hgiven hnodup hexpressions

/-- A component in a package, a callback of an item, a function that is declared in another, and
bindings by path and by a dashed name. -/
def spelledTemplate : Template :=
  .ofRoot [.plain "ui-date-picker" [.named "onpick" "choose", .text "bind" "value" "form.day"] [],
    .plain "li" [.text "repeat" "for" "(row, i, all) of table.rows",
        .text "set" "class" "is-wide"]
      [.plain "template" [.text "set" "if" "row.shown"]
        [.plain "b" [.text "repeat" "each" "row.cells", .text "repeat" "item" "cell"]
          [.placeholder ⟨none, none⟩
            (some (.index none (.member none (.name none "cell") "parts") (.name none "i")))]]]]

theorem wellFormed_of_ok_spelled :
    ∃ compiled, (compile .default spelledTemplate).1 = .ok compiled ∧
      compiled.module.imports = [⟨"ui.date_picker", "_ui_date_picker"⟩] ∧
      compiled.module.function.hoistings.map Mention.name = ["_loop0", "_expr0"] ∧
      ∀ s ∈ compiled.module.tree, s.IsTopLevel := by
  have hmade : (compile .default spelledTemplate).1.toOption.map (fun c =>
      (c.module.imports, c.module.function.hoistings.map Mention.name)) =
      some ([⟨"ui.date_picker", "_ui_date_picker"⟩], ["_loop0", "_expr0"]) := by
    decide +kernel
  obtain ⟨compiled, hc, hmade⟩ := exists_ok_of_map hmade
  obtain ⟨himports, hnames⟩ := Prod.mk.inj hmade
  exact ⟨compiled, hc, himports, hnames, wellFormed_of_ok hc rfl (by decide)⟩

end TemplateCompiler
