import TemplateCompiler.Proofs.Composition
import TemplateCompiler.Proofs.Content
import TemplateCompiler.Proofs.Validation

/-!
# A template brings no evaluation into its module

Whatever expressions a template holds, a module that is made of it calls nothing but the primitives
of the interface, the lookups in the slots and in the memo, and the bind helper. Its functions are
those that are called for each item of an element that repeats. Nothing of an expression that a
template may not hold is found in it, and the name self is not read (`inert_of_ok`).
-/

namespace TemplateCompiler

/-! ## Licit code -/

/-- What a module may call. -/
inductive Config.Calls (config : Config) : Code → Prop where
  | primitive {name} (named : name ∈ config.primitives.names) :
      Calls config (config.primitive name)
  | slot : Calls config (.refMember config.slotsetParam "get")
  | lookup : Calls config (.refMember config.contextParam "get")
  | store : Calls config (.refMember config.contextParam "setdefault")
  | bindHelper : Calls config (.ref config.bindHelper)

def Code.isFunction : Code → Bool
  | .lambda .. => true
  | _ => false

/-- What is true of a piece of code, as far as it can be told without looking into its parts. -/
structure Code.Licit (config : Config) (t : Template) (code : Code) : Prop where
  calls : ∀ callee arguments, code = .call callee arguments → config.Calls callee
  functions : ∀ place parameters body, .lambda place parameters body ∈ code.parts →
    t.RepeatsFor config place parameters ∧
      code.IteratesWith config (.lambda place parameters body)
  allowed : ∀ span kind, code ≠ .foreign span kind
  named : code.isNamed Expr.selfName = false

/-- Code that is licit in all its parts and is no function itself. -/
structure Code.Inert (config : Config) (t : Template) (code : Code) : Prop where
  noFunction : code.isFunction = false
  licit : ∀ c ∈ code.subterms, c.Licit config t

variable {env : Env} {config : Config} {K : Context} {t : Template} {n n' : Numbering}

namespace Code.Inert

theorem ne_lambda {code : Code} (h : code.Inert config t) (place : Place)
    (parameters : List String) (body : Code) : code ≠ .lambda place parameters body := by
  rintro rfl
  simpa [isFunction] using h.noFunction

/-- Code that is put together from inert parts. -/
theorem of_parts {code : Code} (hfunction : code.isFunction = false)
    (hcalls : ∀ callee arguments, code = .call callee arguments → config.Calls callee)
    (hallowed : ∀ span kind, code ≠ .foreign span kind)
    (hnamed : code.isNamed Expr.selfName = false)
    (hparts : ∀ part ∈ code.parts, part.Inert config t) : code.Inert config t := by
  refine ⟨hfunction, fun c hc => ?_⟩
  rw [subterms_eq] at hc
  rcases List.mem_cons.1 hc with rfl | hc
  · refine ⟨hcalls, fun place parameters body hpart => ?_, hallowed, hnamed⟩
    exact ((hparts _ hpart).ne_lambda _ _ _ rfl).elim
  · obtain ⟨part, hpart, hc⟩ := List.mem_flatMap.1 hc
    exact (hparts part hpart).licit c hc

theorem ref {id : String} (h : id ≠ Expr.selfName) : (Code.ref id).Inert config t :=
  of_parts rfl nofun nofun (beq_eq_false_iff_ne.2 h) nofun

theorem constant {span : Option Span} {c : Constant} : (Code.constant span c).Inert config t :=
  of_parts rfl nofun nofun rfl nofun

theorem member {span : Option Span} {value : Code} {name : String} (h : value.Inert config t) :
    (Code.member span value name).Inert config t :=
  of_parts rfl nofun nofun rfl (List.forall_mem_singleton.2 h)

theorem index {span : Option Span} {value key : Code} (h : value.Inert config t)
    (hkey : key.Inert config t) : (Code.index span value key).Inert config t :=
  of_parts rfl nofun nofun rfl (by simpa [parts, operands] using ⟨h, hkey⟩)

theorem call {callee : Code} {arguments : List Code} (hcalls : config.Calls callee)
    (hcallee : callee.Inert config t) (harguments : ∀ a ∈ arguments, a.Inert config t) :
    (Code.call callee arguments).Inert config t := by
  refine of_parts rfl ?_ nofun rfl (List.forall_mem_cons.2 ⟨hcallee, harguments⟩)
  rintro _ _ ⟨⟩
  exact hcalls

theorem name {site : Site} {span : Option Span} {id : String} (h : id ≠ Expr.selfName) :
    (Code.name site span id).Inert config t :=
  of_parts rfl nofun nofun (beq_eq_false_iff_ne.2 h) nofun

theorem or {left right : Code} (hleft : left.Inert config t) (hright : right.Inert config t) :
    (Code.or left right).Inert config t :=
  of_parts rfl nofun nofun rfl (by simpa [parts, operands] using ⟨hleft, hright⟩)

theorem and {left right : Code} (hleft : left.Inert config t) (hright : right.Inert config t) :
    (Code.and left right).Inert config t :=
  of_parts rfl nofun nofun rfl (by simpa [parts, operands] using ⟨hleft, hright⟩)

theorem conditional {test body alternative : Code} (htest : test.Inert config t)
    (hbody : body.Inert config t) (halternative : alternative.Inert config t) :
    (Code.conditional test body alternative).Inert config t :=
  of_parts rfl nofun nofun rfl (by simpa [parts, operands] using ⟨htest, hbody, halternative⟩)

theorem dict {entries : List (String × Code)} (h : ∀ e ∈ entries, e.2.Inert config t) :
    (Code.dict entries).Inert config t :=
  of_parts rfl nofun nofun rfl (List.forall_mem_map.2 h)

theorem list {items : List Code} (h : ∀ i ∈ items, i.Inert config t) :
    (Code.list items).Inert config t :=
  of_parts rfl nofun nofun rfl h

end Code.Inert

namespace Code.Licit

theorem call {callee : Code} {arguments : List Code} (hcalls : config.Calls callee)
    (hfunctions : ∀ place parameters body, .lambda place parameters body ∈ callee :: arguments →
      t.RepeatsFor config place parameters ∧
        (Code.call callee arguments).IteratesWith config (.lambda place parameters body)) :
    (Code.call callee arguments).Licit config t where
  calls _ _ h := (Code.call.inj h).1 ▸ hcalls
  functions := hfunctions
  allowed := nofun
  named := rfl

theorem lambda {place : Place} {parameters : List String} {body : Code}
    (hbody : body.Inert config t) : (Code.lambda place parameters body).Licit config t where
  calls := nofun
  functions _ _ _ h := (hbody.ne_lambda _ _ _ (List.mem_singleton.1 h).symm).elim
  allowed := nofun
  named := rfl

end Code.Licit

/-! ## Composed code is inert -/

/-- Contents that are let through. -/
def Term.Allowed : Term → Prop
  | expression e => e.Allowed
  | constant _ | dashed _ => True

/-- No name that the module itself gives is self. -/
structure SparesSelf (env : Env) (K : Context) : Prop where
  reserved : Expr.selfName ∉ env.config.reserved
  imported : ∀ {path localName}, Imported K path localName → localName ≠ Expr.selfName

namespace SparesSelf

variable (h : SparesSelf env K)

include h

theorem inert_ref {id : String} (hid : id ∈ env.config.reserved) :
    (Code.ref id).Inert env.config t :=
  .ref fun heq => h.reserved (heq ▸ hid)

theorem inert_refMember {id name : String} (hid : id ∈ env.config.reserved) :
    (Code.refMember id name).Inert env.config t :=
  .member (h.inert_ref hid)

theorem inert_callPrimitive {name : String} {arguments : List Code}
    (hname : name ∈ env.config.primitives.names)
    (harguments : ∀ a ∈ arguments, a.Inert env.config t) :
    (env.config.callPrimitive name arguments).Inert env.config t :=
  .call (.primitive hname) (h.inert_refMember (by simp [Config.reserved])) harguments

theorem inert_qualify {site : Site} {bound : String → Bool} : ∀ {e : Expr}, e.Allowed →
    (e.qualify env.config.instanceParam site bound).Inert env.config t
  | .name _ id, hid => by
    rw [Expr.qualify]
    split
    · exact .name hid
    · exact h.inert_refMember (by simp [Config.reserved])
  | .member .., hvalue => .member (inert_qualify hvalue)
  | .index .., ⟨hvalue, hkey⟩ => .index (inert_qualify hvalue) (inert_qualify hkey)
  | .constant .., _ => .constant

theorem inert_term {site : Site} {bound : String → Bool} {term : Term} (hterm : term.Allowed) :
    (term.code env.config site bound).Inert env.config t := by
  cases term with
  | constant c => exact .constant
  | expression e => exact h.inert_qualify hterm
  | dashed name => exact .index (h.inert_ref (by simp [Config.reserved])) .constant

theorem inert_memoized {key : String} {value : Code} (hvalue : value.Inert env.config t) :
    (CompileM.memoized env key value).Inert env.config t := by
  have hmemo : ∀ name, (Code.refMember env.config.contextParam name).Inert env.config t :=
    fun _ => h.inert_refMember (by simp [Config.reserved])
  refine .or (.call .lookup (hmemo _) (List.forall_mem_singleton.2 .constant))
    (.call .store (hmemo _) ?_)
  simpa using ⟨.constant, hvalue⟩

/-- The function of an iteration is licit where the iteration calls it. -/
theorem inert_inline {iterable body : Code} {place : Place} {parameters : List String}
    (hrepeats : t.RepeatsFor env.config place parameters)
    (hiterable : iterable.Inert env.config t) (hbody : body.Inert env.config t) :
    (env.config.callPrimitive env.config.primitives.iterator
      [iterable, .lambda place parameters body]).Inert env.config t := by
  have hname : env.config.primitives.iterator ∈ env.config.primitives.names := by
    simp [Primitives.names]
  have hcallee : (env.config.primitive env.config.primitives.iterator).Inert env.config t :=
    h.inert_refMember (by simp [Config.reserved])
  refine ⟨rfl, fun c hc => ?_⟩
  simp only [Config.callPrimitive, Code.subterms, Code.listSubterms, List.append_nil,
    List.mem_cons, List.mem_append] at hc
  rcases hc with rfl | hc | hc | rfl | hc
  · refine .call (.primitive hname) fun place' parameters' body' hpart => ?_
    simp only [List.mem_cons, List.not_mem_nil, or_false] at hpart
    rcases hpart with hpart | hpart | hpart
    · exact (hcallee.ne_lambda _ _ _ hpart.symm).elim
    · exact (hiterable.ne_lambda _ _ _ hpart.symm).elim
    · obtain ⟨rfl, rfl, rfl⟩ := Code.lambda.inj hpart
      exact ⟨hrepeats, iterable, rfl⟩
  · exact hcallee.licit c hc
  · exact hiterable.licit c hc
  · exact .lambda hbody
  · exact hbody.licit c hc

end SparesSelf

/-- The names that a module makes up begin with a low line. -/
theorem ne_selfName_of_toList {name : String} {rest : List Char} (h : name.toList = '_' :: rest) :
    name ≠ Expr.selfName := by
  rintro rfl
  simp [Expr.selfName] at h

theorem Composed.inert {code : Code} (h : Composed env K t Term.Allowed code)
    (hself : SparesSelf env K) : code.Inert env.config t := by
  induction h with
  | term allowed => exact hself.inert_term allowed
  | constant => exact .constant
  | component imported => exact .ref (hself.imported imported)
  | bound _ ih =>
    refine .call .bindHelper (hself.inert_ref (by simp [Config.reserved])) ?_
    simpa using ⟨ih, hself.inert_ref (by simp [Config.reserved])⟩
  | memoized _ ih => exact hself.inert_memoized ih
  | primitive named _ ih => exact hself.inert_callPrimitive named ih
  | inline repeats _ _ source each => exact hself.inert_inline repeats source each
  | declared n _ ih =>
    refine hself.inert_callPrimitive (by simp [Primitives.names]) ?_
    simpa using ⟨ih, .ref (ne_selfName_of_toList (CompileM.toList_numberedName _ _))⟩
  | outlet _ ih =>
    exact .or (.call .slot (hself.inert_refMember (by simp [Config.reserved]))
      (List.forall_mem_singleton.2 .constant)) ih
  | dict _ ih => exact .dict ih
  | list _ ih => exact .list ih
  | choice _ _ _ tests holds fails => exact .conditional tests holds fails
  | guarded n _ ih =>
    exact .and (.ref (ne_selfName_of_toList (CompileM.toList_numberedName _ _))) ih
  | tested _ ih => exact .or ih .constant


/-! ## What is let through -/

/-- A text says a binding, and what it binds is let through. -/
theorem Content.allowed_constant {isDirective : Bool} {c : Constant} {term : Term}
    (h : (Content.constant c).term? isDirective = some term) : term.Allowed := by
  simp only [Content.term?] at h
  split at h
  · split at h
    · rename_i hform
      obtain rfl := Option.some.inj h
      exact Binding.allowed_of_form hform
    · obtain rfl := Option.some.inj h
      trivial
    · simp at h
  · obtain rfl := Option.some.inj h
    trivial

theorem Content.allowed_expression {a : Attribute} {e : Expr}
    (h : ofAttribute a = .ok (.expression e)) : e.Allowed := by
  unfold ofAttribute at h
  split at h
  · simp at h
  · simp at h
  · simp at h
  · rename_i found _
    rcases hcheck : found.check .value with problem | u
    · simp [hcheck, bind, Except.bind] at h
    · simp only [hcheck, bind, Except.bind, pure, Except.pure, Except.ok.injEq,
        expression.injEq] at h
      exact h ▸ (Expr.check_eq_ok_iff.1 hcheck).2
  · simp at h
  · simp at h

/-- What is resolved of an attribute is its expression, or what a text says. -/
theorem Attribute.IsRead.forall_terms {T : Term → Prop} {a : Attribute} {reading : Reading}
    (h : a.IsRead config reading)
    (hconstant : ∀ {c isDirective term}, (Content.constant c).term? isDirective = some term →
      T term)
    (hexpression : ∀ {e}, Content.ofAttribute a = .ok (.expression e) → T (.expression e)) :
    ∀ term ∈ reading.terms, T term := by
  obtain ⟨role, content, -, hcontent, hread⟩ := h
  have hterms : ∀ isDirective, ∀ term ∈ (content.term? isDirective).toList, T term := by
    intro isDirective term hterm
    rw [Option.mem_toList] at hterm
    cases content with
    | constant c => exact hconstant hterm
    | expression e => exact Option.some.inj hterm ▸ hexpression hcontent
  cases hread with
  | iteration part =>
    cases part with
    | statement =>
      intro term hterm
      rw [Reading.terms, Option.mem_toList] at hterm
      exact hconstant hterm
    | each => exact hterms true
    | item | index | idle => simp [Reading.terms]
  | slot => simp [Reading.terms]
  | component | plain => exact hterms false
  | condition | alternative | modifier | event | directed => exact hterms true

theorem Attribute.IsRead.allowed {a : Attribute} {reading : Reading}
    (h : a.IsRead config reading) : ∀ term ∈ reading.terms, term.Allowed :=
  h.forall_terms Content.allowed_constant Content.allowed_expression

theorem LowersElement.allowed {binders : List Binder} {place : Place} {pos : Position} {tag : Tag}
    {attributes : List Attribute} {children : List Node} {sibling : Sibling}
    {ds : List Declaration}
    (h : LowersElement env K binders place pos tag attributes children sibling ds n n')
    (hchildren : ∀ {binders siblings ds n n'},
      LowersNodes env K binders place 0 children siblings ds n n' →
        ∀ term ∈ termsOf env.config children, term.Allowed) :
    ∀ term ∈ (Node.element pos tag attributes children).terms env.config, term.Allowed := by
  cases h with
  | mk reads _ _ lowersChildren _ _ =>
    rw [Node.terms, List.forall_mem_append]
    refine ⟨fun term hterm => ?_, hchildren lowersChildren⟩
    obtain ⟨reading, hreading, hterm⟩ := List.mem_flatMap.1 hterm
    simp only [Node.readings, reads] at hreading
    obtain ⟨a, -, hread⟩ := Reading.exists_attribute_of_mem reads hreading
    exact hread.allowed term hterm

mutual

theorem LowersNode.allowed :
    ∀ {node : Node} {binders around before siblings ds n n'},
      LowersNode env K binders around before node siblings ds n n' →
        ∀ term ∈ node.terms env.config, term.Allowed
  | .text .., _, _, _, _, _, _, _, _ => nofun
  | .placeholder _ none, _, _, _, _, _, _, _, _ => nofun
  | .placeholder _ (some _), _, _, _, _, _, _, _, h => by
    cases h with
    | placeholder valid =>
      exact List.forall_mem_singleton.2 (Expr.check_eq_ok_iff.1 valid).2
  | .fragment .., _, _, _, _, _, _, _, h => by
    cases h with
    | fragment lowersChildren => exact LowersNodes.allowed lowersChildren
  | .element .., _, _, _, _, _, _, _, h => by
    cases h with
    | element lowers => exact lowers.allowed fun h => LowersNodes.allowed h
  | .literal .., _, _, _, _, _, _, _, h => nomatch h
  | .attr .., _, _, _, _, _, _, _, h => nomatch h
  | .template .., _, _, _, _, _, _, _, h => nomatch h

theorem LowersNodes.allowed :
    ∀ {nodes : List Node} {binders around before siblings ds n n'},
      LowersNodes env K binders around before nodes siblings ds n n' →
        ∀ term ∈ termsOf env.config nodes, term.Allowed
  | [], _, _, _, _, _, _, _, _ => nofun
  | _ :: _, _, _, _, _, _, _, _, h => by
    cases h with
    | cons head tail =>
      exact List.forall_mem_append.2 ⟨LowersNode.allowed head, LowersNodes.allowed tail⟩

end

/-- No template that compiles has a content that is not let through. -/
theorem Compiles.allowed {compiled : Compiled} {sibling : Sibling} {ds : List Declaration}
    (h : Compiles env t compiled K sibling ds n) :
    ∀ term ∈ t.terms env.config, term.Allowed := by
  obtain ⟨pos, attributes, children, hroot, hl⟩ := h.root
  rw [Template.terms, hroot]
  exact hl.allowed fun h => LowersNodes.allowed h

/-! ## Declared functions are called -/

theorem mem_functionsOf {f : Function} {ds : List Declaration} :
    f ∈ functionsOf ds ↔ .define f ∈ allDeclarations ds := by
  rw [functionsOf, Multiset.mem_coe, List.mem_filterMap]
  constructor
  · rintro ⟨d, hd, hf⟩
    cases d with
    | assign => simp [Declaration.function?] at hf
    | define g => exact Option.some.inj hf ▸ hd
  · exact fun h => ⟨_, h, rfl⟩

/-- Each of some functions is called by an iteration, in the given code or in what one of them
gives. -/
def CalledIn (config : Config) (used : Multiset Function) (codes : List Code) : Prop :=
  ∀ f ∈ used, ∃ code, code.IteratesWith config (.ref f.name) ∧
    (code ∈ codes ∨ ∃ g ∈ used, code ∈ g.result.subterms)

namespace CalledIn

variable {used used' : Multiset Function} {codes codes' : List Code}

theorem zero : CalledIn config 0 codes := by
  simp [CalledIn]

theorem mono (h : CalledIn config used codes) (hsub : codes ⊆ codes') :
    CalledIn config used codes' := by
  intro f hf
  obtain ⟨code, hcode, hmem⟩ := h f hf
  exact ⟨code, hcode, hmem.imp_left fun hmem => hsub hmem⟩

theorem add (h : CalledIn config used codes) (h' : CalledIn config used' codes) :
    CalledIn config (used + used') codes := by
  intro f hf
  rcases Multiset.mem_add.1 hf with hf | hf
  · obtain ⟨code, hcode, hmem⟩ := h f hf
    exact ⟨code, hcode, hmem.imp_right fun ⟨g, hg, hmem⟩ =>
      ⟨g, Multiset.mem_add.2 (.inl hg), hmem⟩⟩
  · obtain ⟨code, hcode, hmem⟩ := h' f hf
    exact ⟨code, hcode, hmem.imp_right fun ⟨g, hg, hmem⟩ =>
      ⟨g, Multiset.mem_add.2 (.inr hg), hmem⟩⟩

theorem append (h : CalledIn config used codes) (h' : CalledIn config used' codes') :
    CalledIn config (used + used') (codes ++ codes') :=
  (h.mono (List.subset_append_left ..)).add (h'.mono (List.subset_append_right ..))

/-- What is called in what a function gives is called in some of the functions. -/
theorem cons {f : Function} {code : Code} (h : CalledIn config used f.result.subterms)
    (hcode : code.IteratesWith config (.ref f.name)) (hmem : code ∈ codes) :
    CalledIn config (f ::ₘ used) codes := by
  intro g hg
  rcases Multiset.mem_cons.1 hg with rfl | hg
  · exact ⟨code, hcode, .inl hmem⟩
  · obtain ⟨inner, hinner, hmem | ⟨g', hg', hmem⟩⟩ := h g hg
    · exact ⟨inner, hinner, .inr ⟨f, Multiset.mem_cons_self .., hmem⟩⟩
    · exact ⟨inner, hinner, .inr ⟨g', Multiset.mem_cons_of_mem hg', hmem⟩⟩

end CalledIn

theorem Code.subterms_subset_of_mem_parts {code part : Code} (h : part ∈ code.parts) :
    part.subterms ⊆ code.subterms :=
  fun _ hc => mem_subterms_of_mem_parts h hc

theorem Code.subterms_subset_of_mem_arguments {maker : String} {arguments : List Code}
    {argument : Code} (h : argument ∈ arguments) :
    argument.subterms ⊆ (config.callPrimitive maker arguments).subterms :=
  subterms_subset_of_mem_parts (List.mem_cons_of_mem _ h)

theorem Code.entrySubterms_append (entries entries' : List (String × Code)) :
    entrySubterms (entries ++ entries') = entrySubterms entries ++ entrySubterms entries' := by
  simp [entrySubterms_eq]

variable {m : Module}

mutual

/-- Code calls the functions that it is read through. -/
theorem Reads.calledIn : ∀ {code : Code} {ls : List Layout} {used : Multiset Function},
    Reads env t m code ls used → CalledIn env.config used code.subterms
  | _, _, _, .text _ => .zero
  | _, _, _, .shown _ _ => .zero
  | _, _, _, .empty => .zero
  | _, _, _, .plain _ _ _ reads =>
    reads.calledIn.mono (Code.subterms_subset_of_mem_arguments (by simp))
  | _, _, _, .component _ _ _ _ reads =>
    reads.calledIn.mono (Code.subterms_subset_of_mem_arguments (by simp))
  | _, _, _, @Reads.custom _ _ _ _ _ _ slots _ _ _ _ _ _ reads => by
    have ih := reads.calledIn
    cases slots with
    | nil => exact ih.mono (List.nil_subset _)
    | cons =>
      refine ih.mono (List.Subset.trans ?_
        (Code.subterms_subset_of_mem_arguments (List.mem_cons_of_mem _
          (List.mem_cons_of_mem _ List.mem_cons_self))))
      rw [Code.subterms, Code.entrySubterms_append]
      refine List.subset_cons_of_subset _ (List.subset_append_of_subset_right _ ?_)
      simp [Code.entrySubterms, Code.subterms]
  | _, _, _, .choose _ _ reads readsAlternative =>
    (reads.calledIn.mono (Code.subterms_subset_of_mem_parts (.tail _ (.head _)))).add
      (readsAlternative.calledIn.mono
        (Code.subterms_subset_of_mem_parts (.tail _ (.tail _ (.head _)))))
  | _, _, _, .guarded reads =>
    reads.calledIn.mono (Code.subterms_subset_of_mem_parts (.tail _ (.head _)))
  | _, _, _, .outlet _ _ reads =>
    reads.calledIn.mono (Code.subterms_subset_of_mem_parts (.tail _ (.head _)))
  | _, _, _, .row reads => reads.calledIn.mono (List.subset_cons_self ..)
  | _, _, _, .flattened _ reads =>
    reads.calledIn.mono (Code.subterms_subset_of_mem_arguments List.mem_cons_self)
  | _, _, _, .inline _ _ reads =>
    reads.calledIn.mono (List.Subset.trans (Code.subterms_subset_of_mem_parts List.mem_cons_self)
      (Code.subterms_subset_of_mem_arguments (List.mem_cons_of_mem _ List.mem_cons_self)))
  | _, _, _, .declared _ _ _ _ reads => reads.calledIn.cons ⟨_, rfl⟩ (Code.mem_subterms_self _)

theorem ReadsRow.calledIn : ∀ {codes : List Code} {ls : List Layout} {used : Multiset Function},
    ReadsRow env t m codes ls used → CalledIn env.config used (Code.listSubterms codes)
  | _, _, _, .nil => .zero
  | _, _, _, .cons head tail => head.calledIn.append tail.calledIn

theorem ReadsSlots.calledIn : ∀ {slots : List (String × Code)}
    {contents : List (String × List Layout)} {used : Multiset Function},
    ReadsSlots env t m slots contents used → CalledIn env.config used (Code.entrySubterms slots)
  | _, _, _, .nil => .zero
  | _, _, _, .cons _ head tail => head.calledIn.append tail.calledIn

end

/-! ## Modules are inert -/

theorem Declaration.Composed.declarations {T : Term → Prop} {f : Function}
    (h : (Declaration.define f).Composed env K t T) :
    ∀ d ∈ f.declarations, d.Composed env K t T := by
  cases h with
  | define _ _ inside => exact inside

theorem Declaration.Composed.code {T : Term → Prop} {d : Declaration}
    (h : d.Composed env K t T) : TemplateCompiler.Composed env K t T d.code := by
  cases h with
  | assign composed => exact composed
  | define _ result _ => exact result

/-- A function that evaluates nothing but what a template may make it evaluate. -/
structure Function.Inert (config : Config) (t : Template) (f : Function) : Prop where
  /-- All that it calls are primitives, lookups in slots and memo, and the bind helper. -/
  calls : ∀ callee arguments, .call callee arguments ∈ f.subterms → config.Calls callee
  /-- A function in it is given to an iteration, for each item of an element that repeats. -/
  lambdas : ∀ code ∈ f.subterms, ∀ place parameters body,
    .lambda place parameters body ∈ code.parts → t.RepeatsFor config place parameters ∧
      code.IteratesWith config (.lambda place parameters body)
  /-- What its statements assign and what is returned is no function. -/
  results : ∀ code ∈ f.result :: f.inner.map Declaration.code, code.isFunction = false
  /-- A function that is declared in it is called so, and stands for such an element. -/
  defines : ∀ g, .define g ∈ f.inner → t.RepeatsFor config g.place g.parameters ∧
    ∃ code ∈ f.subterms, code.IteratesWith config (.ref g.name)
  /-- It has nothing that an expression of the template may not hold. -/
  allowed : ∀ span kind, .foreign span kind ∉ f.subterms
  /-- It does not read the name self. -/
  named : ∀ code ∈ f.subterms, code.isNamed Expr.selfName = false

theorem Compiles.sparesSelf {compiled : Compiled} {sibling : Sibling} {ds : List Declaration}
    (h : Compiles env t compiled K sibling ds n) (hself : Expr.selfName ∉ env.config.reserved) :
    SparesSelf env K := by
  refine ⟨hself, fun himported => ?_⟩
  obtain ⟨-, rest, hrest⟩ := h.apart.name_free himported.known
  exact ne_selfName_of_toList hrest

variable {compiled : Compiled} {sibling : Sibling} {ds : List Declaration} {T : Term → Prop}

/-- All that a unit's function assigns, declares and returns is composed of its contents. -/
theorem Compiles.composed_function (h : Compiles env t compiled K sibling ds n)
    (hT : ∀ term ∈ t.terms env.config, T term) :
    (∀ d ∈ compiled.module.function.inner, d.Composed env K t T) ∧
      Composed env K t T compiled.module.function.result := by
  obtain ⟨hds, hcode⟩ := h.composed hT
  rw [h.function]
  exact ⟨Function.forall_mem_inner (fun _ => Declaration.Composed.declarations) _ hds, hcode⟩

theorem Compiles.inert (h : Compiles env t compiled K sibling ds n) (hspares : SparesSelf env K) :
    ∀ code ∈ compiled.module.function.result ::
      compiled.module.function.inner.map Declaration.code, code.Inert env.config t := by
  obtain ⟨hinner, hresult⟩ := h.composed_function h.allowed
  exact List.forall_mem_cons.2 ⟨hresult.inert hspares,
    List.forall_mem_map.2 fun d hd => (hinner d hd).code.inert hspares⟩

theorem Compiles.licit (h : Compiles env t compiled K sibling ds n) (hspares : SparesSelf env K) :
    ∀ code ∈ compiled.module.function.subterms, code.Licit env.config t := by
  have hcodes := List.forall_mem_cons.1 (h.inert hspares)
  intro code hmem
  rcases List.mem_append.1 hmem with hmem | hmem
  · exact hcodes.1.licit code hmem
  · obtain ⟨d, hd, hmem⟩ := List.mem_flatMap.1 hmem
    exact (hcodes.2 _ (List.mem_map_of_mem hd)).licit code hmem

/-- Whatever a template holds, the module calls nothing but what is its own to call, its functions
are those of the elements that repeat, and nothing in it is a node that an expression may not hold
or the name self. -/
theorem inert_of_ok (h : (compile env t).1 = .ok compiled)
    (hself : Expr.selfName ∉ env.config.reserved) :
    compiled.module.function.Inert env.config t := by
  obtain ⟨K, sibling, ds, n, hc⟩ := compiles_of_ok h
  have hspares := hc.sparesSelf hself
  obtain ⟨used, hdeclares, hreads⟩ := hc.reads
  have hcodes := hc.inert hspares
  have hlicit := hc.licit hspares
  have hinner := (hc.composed_function hc.allowed).1
  rw [hc.function] at hcodes hlicit hinner ⊢
  generalize hf : CompileM.renderFunction env.config ds sibling.item.code = f
    at hcodes hlicit hinner ⊢
  have hresult : f.result = sibling.item.code := hf ▸ rfl
  have hused : ∀ g, .define g ∈ f.inner ↔ g ∈ used := by
    intro g
    rw [← hdeclares.functions, ← hf, Function.inner_eq]
    exact mem_functionsOf.symm
  -- a declared function is called where the unit is read to use it
  refine ⟨fun callee arguments hmem => (hlicit _ hmem).calls callee arguments rfl,
    fun code hmem => (hlicit code hmem).functions, fun code hmem => (hcodes code hmem).noFunction,
    fun g hg => ⟨?_, ?_⟩, fun span kind hmem => (hlicit _ hmem).allowed span kind rfl,
    fun code hmem => (hlicit code hmem).named⟩
  · cases hinner _ hg with
    | define repeats => exact repeats
  · obtain ⟨code, hiterates, hmem | ⟨g', hg', hmem⟩⟩ := hreads.calledIn g ((hused g).1 hg)
    · exact ⟨code, List.mem_append_left _ (hresult ▸ hmem), hiterates⟩
    · have hresult' : g'.result ∈ f.subterms := Function.code_mem_subterms ((hused g').2 hg')
      exact ⟨code, Function.mem_subterms_of_mem hresult' hmem, hiterates⟩

/-- A callback, a slot that takes content, and items of a function and of a lambda. -/
def busyTemplate : Template :=
  .ofRoot [.plain "x-foo" [.named "onclick" "pick"]
      [.plain "slot" [.named "name" "head"] [.name "x"]],
    .plain "li" [.text "repeat" "for" "x in xs"]
      [.plain "template" [.text "set" "if" "x"] [.name "y"]],
    .plain "p" [.text "repeat" "for" "(self, i) in ys", .text "set" "class" "is-wide"] [.name "i"]]

theorem inert_of_ok_busy :
    ∃ compiled, (compile .default busyTemplate).1 = .ok compiled ∧
      compiled.module.function.hoistings.map Mention.name = ["_loop0", "_expr0"] ∧
      compiled.module.function.Inert {} busyTemplate := by
  have hnames : (compile .default busyTemplate).1.toOption.map (fun c =>
      c.module.function.hoistings.map Mention.name) = some ["_loop0", "_expr0"] := by
    decide +kernel
  obtain ⟨compiled, hc, hnames⟩ := exists_ok_of_map hnames
  exact ⟨compiled, hc, hnames, inert_of_ok hc (by decide)⟩

end TemplateCompiler
