import TemplateCompiler.Proofs.Accounting

/-!
# Modules lay out what their templates do

The code of an element reads as the element with what its children contribute, and what is declared
inside of it goes out or to the function that it repeats. So each piece of a template is one piece
of code in its module, which says what the piece says where it stands, and the module has no others.
They are laid out in the order of the markup (`content_once`).
-/

namespace TemplateCompiler

variable {env : Env} {t : Template} {m : Module} {K : Context} {n n' : Numbering}

/-! ## Elements -/

/-- The parts and the loop that an element is lowered with say what its markup does. -/
structure Node.LoweredWith (env : Env) (t : Template) (place : Place) (node : Node)
    (parts : List Part) (loop : Option Loop) : Prop where
  plain : PartsAll (Plain env.config) parts
  plainLoop : ∀ l ∈ loop, Plain env.config l.iterable
  repeats : ∀ l ∈ loop, node.Repeats env t place l
  iteration : node.iteration? place = loop.map fun _ => .iteration place node
  tests : ∀ test ∈ Part.condition? parts, node.Tests env t place test
  condition : node.condition? env.config place =
    (Part.condition? parts).map fun _ => .condition place node
  alternative : Part.isAlternative parts = (node.readings env.config).any Reading.isAlternative

section

variable {place : Place} {pos : Position} {tag : Tag} {attributes : List Attribute}
  {children : List Node} {readings : List Reading} {parts : List Part} {loop : Option Loop}

/-- An element repeats for what its markup says. -/
theorem OpensLoop.repeats {binders : List Binder} {node : Node}
    (h : OpensLoop env.config binders place readings loop)
    (hreadings : node.readings env.config = readings)
    (hbound : binds binders = t.isBound env.config ⟨place, true⟩) :
    ∀ l ∈ loop, node.Repeats env t place l := by
  rintro l rfl
  cases h with
  | repeated reads iterable binder =>
    subst hreadings
    refine ⟨rfl, ⟨_, reads, _, iterable, by rw [hbound]⟩, ?_⟩
    simp [Reading.parameters, reads, binder]

/-- An element is conditional on what its markup says, if on anything. -/
theorem LowersReadings.tests {bound : String → Bool} {isComponent : Bool} {node : Node}
    (h : LowersReadings env K bound ⟨place, false⟩ isComponent readings parts n n')
    (hreadings : node.readings env.config = readings)
    (hbound : bound = t.isBound env.config ⟨place, false⟩) :
    (∀ test ∈ Part.condition? parts, node.Tests env t place test) ∧
      node.condition? env.config place =
        (Part.condition? parts).map fun _ => .condition place node := by
  subst hreadings hbound
  unfold Node.condition?
  rcases h.condition?_cases with ⟨hparts, hnone⟩ | ⟨content, term, hcontent, hterm, hparts⟩
  · rw [hparts, hnone]
    exact ⟨nofun, rfl⟩
  · rw [hparts, hcontent]
    exact ⟨fun test htest => ⟨content, hcontent, term, hterm, (Option.some.inj htest).symm⟩, rfl⟩

/-- The display of what a condition can choose, as it is lowered. -/
theorem Node.LoweredWith.display_eq {node : Node} {kind : ElementKind}
    (h : node.LoweredWith env t place parts loop) (hkind : node.kind env.config = kind)
    (hchooses : kind.chooses) (inner : List Contributed) :
    elementDisplay env.config place node inner =
      let own := kind.layout env.config place node inner
      { slot := Reading.slotOf (node.readings env.config)
        isAlternative := Part.isAlternative parts
        form :=
          match Part.condition? parts with
          | none => .fixed (repeatFor (loop.map fun _ => .iteration place node) own)
          | some _ =>
            .chosen (loop.map fun _ => .iteration place node) (.condition place node) own } := by
  rw [elementDisplay_chooses hkind hchooses, h.condition, h.iteration, h.alternative]
  cases Part.condition? parts <;> rfl

theorem Node.LoweredWith.of_lowers {binders : List Binder}
    (opens : OpensLoop env.config binders place readings loop)
    (reads : Reading.ofAttributes env.config [] attributes = .ok readings)
    (lowers : LowersReadings env K (binds (inside loop binders)) ⟨place, false⟩
      (elementKind tag readings).isComponent readings parts n n')
    (hb : t.Binds env.config binders (Site.enclosing ⟨place, true⟩))
    (hinside : t.Binds env.config (inside loop binders) (Site.enclosing ⟨place, false⟩)) :
    (Node.element pos tag attributes children).LoweredWith env t place parts loop := by
  have hreadings : (Node.element pos tag attributes children).readings env.config = readings := by
    simp only [Node.readings, reads]
  obtain ⟨htests, hcondition⟩ := lowers.tests hreadings hinside.binds_eq
  refine ⟨lowers.all plain_attributive, opens.plain_iterable, opens.repeats hreadings hb.binds_eq,
    ?_, htests, hcondition, by rw [hreadings]; exact lowers.isAlternative_eq⟩
  have hnone := opens.eq_none_iff reads
  rw [Node.iteration?]
  cases loop with
  | none => simp [hnone.1 rfl]
  | some l =>
    have hiterates : attributes.any Attribute.iterates = true := by simpa using hnone
    simp [hiterates]

end

theorem CallsElement.reads {place : Place} {node : Node} {tag : Tag} {written : Option Content}
    {parts : List Part} {items : List Item} {kind : ElementKind} {code : Code}
    {rs : List (Contributed × Multiset Function)}
    (h : CallsElement env.config K tag written parts items kind code)
    (hparts : PartsAll (Plain env.config) parts) (hcoded : node.CodedAs env t m place code)
    (hitems : List.Forall₂ (ReadsItem env t m) items rs) :
    Reads env t m code (kind.layout env.config place node (rs.map Prod.fst)) (usedBy rs) := by
  obtain ⟨hlisted, hreads⟩ := reads_assemble hitems
  have hattributes := hparts.attributes .dict
  cases h with
  | virtual | named => exact .component .ref hattributes hlisted (.content hcoded) hreads
  | computed _ _ component =>
    exact .component (hparts.component component) hattributes hlisted (.content hcoded) hreads
  | custom =>
    rw [← slots_isEmpty env.config items] at hcoded ⊢
    exact .custom .ref hattributes (.content hcoded) (reads_slots hitems)
  | plain => exact .plain hattributes hlisted (.content hcoded) hreads

theorem SealsElement.reads {place : Place} {node : Node} {pos : Position} {tag : Tag}
    {readings : List Reading} {parts : List Part} {items : List Item} {ds outer : List Declaration}
    {kind : ElementKind} {loop : Option Loop} {sibling : Sibling}
    {rs : List (Contributed × Multiset Function)}
    (h : SealsElement env.config K pos tag readings parts items ds kind loop sibling outer n n')
    (hreadings : node.readings env.config = readings) (hkind : node.kind env.config = kind)
    (hnode : node.LoweredWith env t place parts loop)
    (hcall : ∀ call, CallsElement env.config K tag (Reading.component? readings) parts items kind
      call → node.CodedAs env t m place call)
    (hds : Declares env.config ds (usedBy rs))
    (hitems : List.Forall₂ (ReadsItem env t m) items rs) :
    ∃ used, Declares env.config outer used ∧ ReadsSibling env t m sibling
      (elementDisplay env.config place node (rs.map Prod.fst), used) := by
  subst hreadings
  have hcondition : ∀ test ∈ Part.condition? parts, Plain env.config test :=
    fun _ h => hnode.plain.condition h
  cases h with
  | spliced guarded =>
    obtain ⟨hkept, hguards⟩ := guarded.reads hcondition hitems
    rw [elementDisplay_template hkind, hnode.iteration, ← hnode.alternative]
    refine ⟨usedBy rs, ?_, rfl, rfl, .spliced rfl rfl hkept rfl⟩
    simpa using hds.append hguards
  | iterated guarded iterates =>
    obtain ⟨hkept, hguards⟩ := guarded.reads hcondition hitems
    have hbody := reads_iteratedBody hkept
    rw [← add_zero (usedBy rs)] at hbody
    obtain ⟨hlisted, declared, houter, hcode⟩ := iterates.reads (hnode.plainLoop _ rfl)
      (hnode.repeats _ rfl) (by simpa using hds.append hguards) hbody
    rw [elementDisplay_template hkind, hnode.iteration, ← hnode.alternative]
    exact ⟨declared, houter, rfl, rfl, .fixed (fun _ => hlisted) (by simpa [repeatFor] using hcode)⟩
  | outlet =>
    obtain ⟨hlisted, hcode⟩ := reads_assemble hitems
    rw [elementDisplay_outlet hkind, hnode.iteration]
    exact ⟨usedBy rs, hds, rfl, rfl, .fixed (by simp) (.outlet hlisted .outlet hcode)⟩
  | fixed condition calls =>
    have hcode := calls.reads hnode.plain (hcall _ calls) hitems
    rw [hnode.display_eq hkind calls.chooses, condition]
    exact ⟨usedBy rs, hds, rfl, rfl, .fixed (by simp) hcode⟩
  | guarded condition calls =>
    have hcode := calls.reads hnode.plain (hcall _ calls) hitems
    rw [hnode.display_eq hkind calls.chooses, condition]
    exact ⟨usedBy rs, hds, rfl, rfl,
      .guarded (hcondition _ condition) (hnode.tests _ condition) hcode⟩
  | repeated calls =>
    have hcode := calls.reads hnode.plain (hcall _ calls) hitems
    have hplain := hnode.plainLoop _ rfl
    have hrepeats := hnode.repeats _ rfl
    rw [hnode.display_eq hkind calls.chooses]
    cases hc : Part.condition? parts with
    | none => exact ⟨0, .nil, rfl, rfl, .repeated hplain hrepeats hds hcode⟩
    | some test =>
      exact ⟨0, .nil, rfl, rfl,
        .filtered hplain (hcondition _ hc) hrepeats (hnode.tests _ hc) hds hcode⟩

/-! ## Nodes -/

/-- Siblings read as some displays, through the functions that are declared before them. -/
def ReadsAs (env : Env) (t : Template) (m : Module) (siblings : List Sibling)
    (ds : List Declaration) (displays : List Display) : Prop :=
  ∃ rs, List.Forall₂ (ReadsSibling env t m) siblings rs ∧ rs.map Prod.fst = displays ∧
    Declares env.config ds (usedBy rs)

namespace ReadsAs

variable {siblings more : List Sibling} {ds ds' : List Declaration} {ps ps' : List Display}

theorem nil : ReadsAs env t m [] [] [] :=
  ⟨[], .nil, rfl, .nil⟩

theorem append (h : ReadsAs env t m siblings ds ps) (h' : ReadsAs env t m more ds' ps') :
    ReadsAs env t m (siblings ++ more) (ds ++ ds') (ps ++ ps') := by
  obtain ⟨rs, hs, rfl, hds⟩ := h
  obtain ⟨rs', hs', rfl, hds'⟩ := h'
  refine ⟨rs ++ rs', List.rel_append hs hs', List.map_append, ?_⟩
  rw [usedBy_append]
  exact hds.append hds'

theorem of_code {code : Code} {pos : Position} {ls : List Layout} (h : Reads env t m code ls 0) :
    ReadsAs env t m [{ item := { code }, pos }] [] [{ form := .fixed ls }] :=
  ⟨[({ form := .fixed ls }, 0)], .cons ⟨rfl, rfl, .fixed (by simp) h⟩ .nil, rfl, .nil⟩

end ReadsAs

section

variable {compiled : Compiled} {root : Sibling} {ds' : List Declaration} {n₁ : Numbering}

theorem LowersElement.reads {binders : List Binder} {place : Place} {pos : Position} {tag : Tag}
    {attributes : List Attribute} {children : List Node} {sibling : Sibling}
    {ds : List Declaration}
    (h : LowersElement env K binders place pos tag attributes children sibling ds n n')
    (hc : Compiles env t compiled K root ds' n₁)
    (ht : t.elementAt? place = some (.element pos tag attributes children))
    (hb : t.Binds env.config binders (Site.enclosing ⟨place, true⟩))
    (hchildren : ∀ {binders siblings ds n n'},
      LowersNodes env K binders place 0 children siblings ds n n' →
      t.Shows place 0 (elementsOf children) →
      t.Binds env.config binders (Site.enclosing ⟨place, false⟩) →
      ReadsAs env t compiled.module siblings ds (displaysOf env.config place 0 children)) :
    ReadsAs env t compiled.module [sibling] ds
      [elementDisplay env.config place (.element pos tag attributes children)
        (Display.contributions (displaysOf env.config place 0 children))] := by
  cases h with
  | @mk _ _ _ _ _ _ readings _ _ siblings _ _ _ _ _ _ _ _ _ _ reads opens lowersReadings
      lowersChildren finishes seals =>
    have hinside := opens.binds_enclosing hb (Template.readingsAt_element ht reads)
    obtain ⟨rs, hs, hdisplays, hds⟩ :=
      hchildren lowersChildren (Template.shows_children ht) hinside
    rw [← List.flatten_splitBy Sibling.continues siblings] at hs
    obtain ⟨qs, declared, hqs⟩ := finishes.reads hs fun _ => List.isChain_of_mem_splitBy
    have hcontributions : Display.contributions (displaysOf env.config place 0 children) =
        qs.map Prod.fst := by
      rw [Display.contributions, ← hdisplays, hqs.displayed, List.append_nil]
      rfl
    rw [hcontributions]
    have hreadings : (Node.element pos tag attributes children).readings env.config = readings := by
      simp only [Node.readings, reads]
    have hkind : (Node.element pos tag attributes children).kind env.config =
        elementKind tag readings := by
      rw [Node.kind, hreadings]
    have hinner := hds.append hqs.declares
    rw [← hqs.used] at hinner
    obtain ⟨used, houter, hsibling⟩ := seals.reads hreadings hkind
      (.of_lowers opens reads lowersReadings hb hinside)
      (fun call calls => calls.codedAs hc reads lowersReadings hinside.binds_eq) hinner hqs.items
    exact ⟨[_], .cons hsibling .nil, rfl, by simpa using houter⟩

mutual

theorem LowersNode.reads (hc : Compiles env t compiled K root ds' n₁) :
    ∀ {node : Node} {binders around before siblings ds n n'},
      LowersNode env K binders around before node siblings ds n n' →
      t.Shows around before node.elements →
      t.Binds env.config binders (Site.enclosing ⟨around, false⟩) →
      ReadsAs env t compiled.module siblings ds (node.displays env.config around before)
  | .text .., _, _, _, _, _, _, _, h, _, _ => by
    cases h with
    | blank empty =>
      rw [Node.displays, if_pos empty]
      exact .nil
    | text shown =>
      rw [Node.displays, if_neg (by simp [shown])]
      exact .of_code (.text (.content .text))
  | .placeholder .., _, _, _, _, _, _, _, h, _, hb => by
    cases h with
    | nothing => exact .nil
    | placeholder =>
      rw [hb.binds_eq]
      exact .of_code (.shown (plain_qualify _) (.content .placeholder))
  | .fragment _ children, _, _, _, _, _, _, _, h, ht, hb => by
    cases h with
    | fragment lowersChildren => exact LowersNodes.reads hc lowersChildren ht hb
  | .element .., _, _, _, _, _, _, _, h, ht, hb => by
    cases h with
    | element lowers =>
      rw [← Site.enclosing_iterable] at hb
      exact lowers.reads hc (ht 0 _ rfl) hb fun h => LowersNodes.reads hc h
  | .literal .., _, _, _, _, _, _, _, h, _, _ => nomatch h
  | .attr .., _, _, _, _, _, _, _, h, _, _ => nomatch h
  | .template .., _, _, _, _, _, _, _, h, _, _ => nomatch h

theorem LowersNodes.reads (hc : Compiles env t compiled K root ds' n₁) :
    ∀ {nodes : List Node} {binders around before siblings ds n n'},
      LowersNodes env K binders around before nodes siblings ds n n' →
      t.Shows around before (elementsOf nodes) →
      t.Binds env.config binders (Site.enclosing ⟨around, false⟩) →
      ReadsAs env t compiled.module siblings ds (displaysOf env.config around before nodes)
  | [], _, _, _, _, _, _, _, h, _, _ => by
    cases h
    exact .nil
  | node :: rest, _, _, _, _, _, _, _, h, ht, hb => by
    cases h with
    | cons head tail =>
      rw [elementsOf] at ht
      exact (LowersNode.reads hc head ht.left hb).append (LowersNodes.reads hc tail ht.right hb)

end

end

/-! ## Units -/

/-- A template is no call, and so it reads as what it lays out. -/
theorem SealsElement.reads_code {pos : Position} {tag : Tag} {readings : List Reading}
    {parts : List Part} {items : List Item} {ds outer : List Declaration} {loop : Option Loop}
    {sibling : Sibling} {r : Display × Multiset Function}
    (h : SealsElement env.config K pos tag readings parts items ds .template loop sibling outer
      n n')
    (hs : ReadsSibling env t m sibling r) :
    Reads env t m sibling.item.code (r.1.layouts none) r.2 := by
  obtain ⟨⟨slot, isAlternative, form'⟩, used⟩ := r
  obtain ⟨-, -, hform⟩ := hs
  cases h with
  | spliced =>
    cases hform with
    | spliced _ _ reads all => exact all ▸ (reads_assemble reads).2
  | iterated =>
    cases hform with
    | fixed _ reads => exact reads
  | fixed _ calls | guarded _ calls | repeated calls => nomatch calls

variable {compiled : Compiled}

/-- The result of a unit reads as what the template lays out, through the functions of the unit. -/
theorem Compiles.reads {sibling : Sibling} {ds : List Declaration}
    (hc : Compiles env t compiled K sibling ds n) : ∃ used, Declares env.config ds used ∧
      Reads env t compiled.module sibling.item.code (t.layout env.config) used := by
  obtain ⟨pos, attributes, children, hroot, hl⟩ := hc.root
  have ht : t.elementAt? [] = some (.element pos ⟨none, "template"⟩ attributes children) := by
    simp [Template.elementAt?, hroot]
  obtain ⟨rs, hs, hdisplays, hds⟩ := hl.reads hc ht (fun _ => rfl) fun h => LowersNodes.reads hc h
  cases hs with
  | @cons _ r _ _ hr hnil =>
    cases hnil
    refine ⟨r.2, by simpa using hds, ?_⟩
    obtain ⟨hdisplay, -⟩ := List.cons.inj hdisplays
    rw [Template.layout, hroot]
    simp only [Node.children, ← hdisplay]
    cases hl with
    | mk _ _ _ _ _ seals => exact seals.reads_code hr

/-- Each piece of a template is just one piece of code in the module, which says at its place what
the piece says, and the module has no other pieces. It reads as the layout of the template: in the
order of the markup, through each function that is declared just once. -/
theorem content_once (h : (compile env t).1 = .ok compiled) (hconfig : env.config = {}) :
    Multiset.Rel (Piece.CodedAs env t compiled.module) (t.pieces env.config)
        (compiled.module.function.pieces env.config) ∧
      Reads env t compiled.module compiled.module.function.result (t.layout env.config)
        (functionsOf compiled.module.function.declarations) := by
  obtain ⟨K, sibling, ds, n, hc⟩ := compiles_of_ok h
  obtain ⟨used, hds, hreads⟩ := hc.reads
  rw [hc.function]
  obtain rfl := hds.functions
  refine ⟨?_, hreads⟩
  have hplain : ∀ name value, .assign name value ∈
      (CompileM.renderFunction env.config ds sibling.item.code).inner →
        Plain env.config value := by
    rw [Function.inner_eq]
    exact hds.plain
  have hcensus := hreads.census hconfig
  rw [Multiset.coe_eq_coe.2 t.layout_perm] at hcensus
  rw [Function.coe_pieces hconfig _ hplain]
  exact hcensus

/-- Content for two slots in turn, siblings that only their attributes tell apart, and an else that
goes into a declared function. -/
def orderedTemplate : Template :=
  .ofRoot [.plain "x-foo" []
      [.plain "b" [.named "slot" "main"] [.name "x"], .plain "i" [.named "class" "left"] [],
        .plain "u" [.named "slot" "main"] [], .plain "i" [.named "class" "right"] []],
    .plain "li" [.text "repeat" "for" "x in xs", .text "set" "if" "x"]
      [.plain "template" [.text "set" "if" "y"] [.name "x", .plain "b" [] []]],
    .plain "template" [.bare "set" "else"]
      [.text ⟨none, none⟩ "nothing", .plain "slot" [] [.plain "i" [] []]]]

theorem content_once_ordered :
    ∃ compiled, (compile .default orderedTemplate).1 = .ok compiled ∧
      Multiset.Rel (Piece.CodedAs .default orderedTemplate compiled.module)
          (orderedTemplate.pieces {}) (compiled.module.function.pieces {}) ∧
        Reads .default orderedTemplate compiled.module compiled.module.function.result
          (orderedTemplate.layout {}) (functionsOf compiled.module.function.declarations) := by
  have hnames : (compile .default orderedTemplate).1.toOption.map (fun c =>
      c.module.function.hoistings.map Mention.name) = some ["_loop0", "_expr0"] := by
    decide +kernel
  obtain ⟨compiled, hc, -⟩ := exists_ok_of_map hnames
  exact ⟨compiled, hc, content_once hc rfl⟩

end TemplateCompiler
