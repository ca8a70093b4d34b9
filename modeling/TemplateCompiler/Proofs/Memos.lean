import TemplateCompiler.Proofs.Choices
import TemplateCompiler.Proofs.Handlers

/-!
# Memos of callbacks

The memos in a module and the handlers of its markup whose callbacks are kept correspond one to
one, and no two memos have a key in common, in one module or in those of units whose labels differ
(`memos_shared`). Keys are taken while attributes are read, so those of some nodes are counted
against the numbers that were given meanwhile; what a template reads in vain takes keys that no memo
has.
-/

namespace TemplateCompiler

/-! ## Keys -/

/-- The key of a callback, by its number. -/
def Env.memoKey (env : Env) (i : Nat) : String :=
  let name := CompileM.numberedName "m" i
  s!"{env.label}:{name}"

/-- What is behind the last separator, and what is in front of it, can be read off the whole. -/
theorem append_cons_inj_of_notMem_right {α : Type} {a : α} {xs ys zs ws : List α} (hys : a ∉ ys)
    (hws : a ∉ ws) (h : xs ++ a :: ys = zs ++ a :: ws) : xs = zs ∧ ys = ws := by
  rcases List.append_eq_append_iff.1 h with ⟨as, rfl, has⟩ | ⟨as, rfl, has⟩
  · cases as with
    | nil => simpa using has
    | cons b as =>
      obtain ⟨rfl, rfl⟩ := List.cons.inj has
      simp at hys
  · cases as with
    | nil => simpa [eq_comm] using has
    | cons b as =>
      obtain ⟨rfl, rfl⟩ := List.cons.inj has
      simp at hws

theorem colon_notMem_numberedName (i : Nat) : ':' ∉ (CompileM.numberedName "m" i).toList := by
  rw [CompileM.toList_numberedName]
  intro hmem
  rw [List.mem_cons, List.mem_append] at hmem
  rcases hmem with h | h | h
  · exact absurd h (by decide)
  · exact absurd h (by decide)
  · exact absurd (Nat.isDigit_of_mem_toDigits (by decide) (by decide) h) (by decide)

/-- The label of a unit can be read off its keys, whatever it is, and so can the number. -/
theorem Env.memoKey_inj {env env' : Env} {i j : Nat} (h : env.memoKey i = env'.memoKey j) :
    env.label = env'.label ∧ i = j := by
  have hlist : ∀ (env : Env) (i : Nat), (env.memoKey i).toList =
      env.label.toList ++ ':' :: (CompileM.numberedName "m" i).toList := by
    intro env i
    simp [memoKey, toString]
  rw [← String.toList_inj, hlist, hlist] at h
  obtain ⟨hlabel, hname⟩ := append_cons_inj_of_notMem_right (colon_notMem_numberedName i)
    (colon_notMem_numberedName j) h
  exact ⟨String.toList_inj.1 hlabel, CompileM.numberedName_inj (String.toList_inj.1 hname)⟩

/-- The keys taken so far. -/
def Numbering.memoKeys (env : Env) (n : Numbering) : List String :=
  (List.range n.memos).map env.memoKey

theorem Numbering.nodup_memoKeys (env : Env) (n : Numbering) : (n.memoKeys env).Nodup :=
  List.nodup_range.map fun _ _ h => (Env.memoKey_inj h).2

theorem Numbering.count_withMemo (env : Env) (n : Numbering) (key : String) :
    (n.withMemo.memoKeys env).count key =
      (n.memoKeys env).count key + [env.memoKey n.memos].count key := by
  simp [memoKeys, withMemo, List.range_succ]

/-! ## Memos -/

/-- The memo has a name of its own beside that of the slots. -/
def Config.NamesMemo (config : Config) : Prop :=
  config.contextParam ≠ config.slotsetParam

instance (config : Config) : Decidable config.NamesMemo :=
  inferInstanceAs (Decidable (_ ≠ _))

/-- The key of a memo and the callback that is kept under it: put there if nothing is found. -/
def Code.memo? (config : Config) : Code → Option (String × Code)
  | .or (.call (.member none (.ref asked) get) [.constant none (.text key)])
      (.call (.member none (.ref told) put) [.constant none (.text stored), callback]) =>
    if asked = config.contextParam ∧ get = "get" ∧
        told = config.contextParam ∧ put = "setdefault" ∧ stored = key then
      some (key, callback)
    else none
  | _ => none

/-- The memos of a module, with repetition. -/
def Module.memos (config : Config) (m : Module) : List (String × Code) :=
  m.function.subterms.filterMap (Code.memo? config)

variable {env : Env} {K : Context} {t : Template} {n n' n'' : Numbering} {site : Site}
  {bound : String → Bool}

theorem Code.memo?_eq_some_iff {code : Code} {memo : String × Code} :
    code.memo? env.config = some memo ↔ code = CompileM.memoized env memo.1 memo.2 := by
  constructor
  · intro h
    unfold memo? at h
    split at h
    · split at h
      · rename_i hnames
        obtain ⟨rfl, rfl, rfl, rfl, rfl⟩ := hnames
        rw [← Option.some.inj h]
        rfl
      · simp at h
    · simp at h
  · rintro rfl
    simp [CompileM.memoized, memo?, refMember, text]

/-! ### Counting memos -/

section

variable {p : Code → Bool} (hp : ∀ code, p code → (code.memo? env.config).isSome)

include hp

theorem eq_false_of_memo? {code : Code} (h : code.memo? env.config = none) : p code = false :=
  eq_false_of_kind hp (by rw [h]; rfl)

theorem eq_false_of_ne_memoized {code : Code}
    (h : ∀ key value, code ≠ CompileM.memoized env key value) : p code = false := by
  refine eq_false_of_memo? hp (Option.eq_none_iff_forall_ne_some.2 fun memo hmemo => ?_)
  exact h _ _ (Code.memo?_eq_some_iff.1 hmemo)

theorem counts_memo (hconfig : env.config.NamesMemo) : Counts env.config p := by
  constructor
  case outlet =>
    refine fun key code => eq_false_of_ne_memoized hp fun key' value heq => ?_
    simp only [CompileM.memoized, Code.refMember, Code.or.injEq, Code.call.injEq,
      Code.member.injEq, Code.ref.injEq] at heq
    exact hconfig heq.1.1.2.1.symm
  case guard =>
    refine fun test => eq_false_of_ne_memoized hp fun key value heq => ?_
    simp [CompileM.memoized] at heq
  all_goals intros; exact eq_false_of_memo? hp rfl

/-- Code that is no memo has those of its parts. -/
theorem tally_of_memo? {code : Code} (h : code.memo? env.config = none) :
    code.tally p = (code.parts.map (Code.tally p)).sum := by
  rw [Code.tally_eq, eq_false_of_memo? hp h]
  rfl

theorem tally_qualify_eq_zero {inst : String} :
    ∀ e : Expr, (e.qualify inst site bound).tally p = 0
  | .name _ id => by
    have href : (Code.ref inst).tally p = 0 := tally_of_memo? hp rfl
    rw [Expr.qualify]
    split
    · exact tally_of_memo? hp rfl
    · rw [tally_of_memo? hp rfl]
      simpa [Code.refMember, Code.parts, Code.operands] using href
  | .member _ value _ => by
    rw [Expr.qualify, tally_of_memo? hp rfl]
    simpa [Code.parts, Code.operands] using tally_qualify_eq_zero value
  | .index _ value key => by
    rw [Expr.qualify, tally_of_memo? hp rfl]
    simpa [Code.parts, Code.operands] using
      ⟨tally_qualify_eq_zero value, tally_qualify_eq_zero key⟩
  | .constant .. | .foreign .. => tally_of_memo? hp rfl

/-- There is no memo in what a content comes to. -/
theorem Term.tally_eq_zero (term : Term) : (term.code env.config site bound).tally p = 0 := by
  cases term with
  | constant => exact tally_of_memo? hp rfl
  | expression e => exact tally_qualify_eq_zero hp e
  | dashed =>
    have href : (Code.ref env.config.instanceParam).tally p = 0 := tally_of_memo? hp rfl
    have htext : ∀ s, (Code.text s).tally p = 0 := fun s => tally_of_memo? hp rfl
    rw [code, tally_of_memo? hp rfl]
    simp [Code.parts, Code.operands, href, htext]

theorem OpensLoop.tally_eq_zero {binders : List Binder} {place : Place} {readings : List Reading}
    {loop : Option Loop} (h : OpensLoop env.config binders place readings loop) :
    (loop.toList.map fun l => l.iterable.tally p).sum = 0 := by
  cases h with
  | once => rfl
  | repeated => simp [Term.tally_eq_zero hp]

/-- Of what an element is given, only the entries of its call have memos. -/
theorem LowersReadings.partsTally_memo {isComponent : Bool} {readings : List Reading}
    {parts : List Part} (h : LowersReadings env K bound site isComponent readings parts n n')
    (kind : ElementKind) (isHollow : Bool) :
    partsTally p kind isHollow parts =
      if kind.chooses then entriesTally p (Part.entries parts) else 0 := by
  have hcondition : conditionTally p parts = 0 := by
    unfold conditionTally
    rcases h.condition?_cases with ⟨hnone, -⟩ | ⟨_, term, -, -, hsome⟩
    · rw [hnone]
      rfl
    · simp [hsome, Term.tally_eq_zero hp]
  have hcomponent : componentTally p parts = 0 := by
    unfold componentTally
    rcases h.component?_cases with ⟨hnone, -⟩ | ⟨_, term, -, -, hsome⟩
    · rw [hnone]
      rfl
    · simp [hsome, Term.tally_eq_zero hp]
  unfold partsTally
  cases kind with
  | template => cases isHollow <;> simp [ElementKind.chooses, hcondition]
  | outlet => rfl
  | dynamic => simp [ElementKind.chooses, hcondition, hcomponent]
  | virtual | custom | plain => simp [ElementKind.chooses, hcondition]

end

/-! ### Memos that are made -/

/-- What is made of some callbacks: a memo for each, under keys that were taken meanwhile. -/
structure Memoizes (env : Env) (callbacks : List Code) (n n' : Numbering)
    (count : (Code → Bool) → Nat) (made : List (String × Code)) : Prop where
  callbacks : made.map Prod.snd = callbacks
  keys : ∀ key, (made.map Prod.fst).count key + (n.memoKeys env).count key ≤
    (n'.memoKeys env).count key
  count : ∀ p, (∀ code, p code → (code.memo? env.config).isSome) →
    count p = (made.map fun memo => CompileM.memoized env memo.1 memo.2).countP p

namespace Memoizes

variable {callbacks callbacks' : List Code} {count count' : (Code → Bool) → Nat}
  {made made' : List (String × Code)}

theorem nil (hcount : ∀ p, (∀ code, p code → (code.memo? env.config).isSome) → count p = 0) :
    Memoizes env [] n n count [] :=
  ⟨rfl, fun _ => by simp, hcount⟩

theorem append (h : Memoizes env callbacks n n' count made)
    (h' : Memoizes env callbacks' n' n'' count' made') :
    Memoizes env (callbacks ++ callbacks') n n'' (fun p => count p + count' p) (made ++ made') where
  callbacks := by rw [List.map_append, h.callbacks, h'.callbacks]
  keys key := by
    have hkeys := h.keys key
    have hkeys' := h'.keys key
    rw [List.map_append, List.count_append]
    omega
  count p hp := by rw [List.map_append, List.countP_append, h.count p hp, h'.count p hp]

theorem congr (h : Memoizes env callbacks n n' count made)
    (hcount : ∀ p, (∀ code, p code → (code.memo? env.config).isSome) → count' p = count p)
    (hmemos : n''.memos = n'.memos) : Memoizes env callbacks n n'' count' made where
  callbacks := h.callbacks
  keys key := by
    have hkeys : n''.memoKeys env = n'.memoKeys env := by rw [Numbering.memoKeys, hmemos]; rfl
    rw [hkeys]
    exact h.keys key
  count p hp := (hcount p hp).trans (h.count p hp)

/-- Keys may be taken in vain. -/
theorem drop (h : Memoizes env callbacks n n' count made)
    (hcount : ∀ p, (∀ code, p code → (code.memo? env.config).isSome) → count' p = 0) :
    Memoizes env [] n n' count' [] where
  callbacks := rfl
  keys key := (Nat.add_le_add_right (Nat.zero_le _) _).trans (h.keys key)
  count := hcount

end Memoizes

/-! ## Attributes -/

section

variable (hconfig : env.config.NamesMemo)
  (hfree : ∀ name ∈ env.config.reserved, bound name = false) {isComponent : Bool}

include hconfig hfree

/-- A callback that is kept has a memo of its own. -/
theorem BindsCallback.memoizes {term : Term} {code : Code}
    (h : BindsCallback env K bound (term.code env.config site bound) code n n') {content : Content}
    (hterm : content.term? true = some term) :
    ∃ made, Memoizes env ([content].filterMap (Content.kept? env.config site bound)) n n'
      (fun p => code.tally p) made := by
  have hkept : content.kept? env.config site bound = _ := Content.kept?_of_term? hfree hterm
  cases h with
  | kept _ keep =>
    rw [if_pos keep] at hkept
    rw [List.filterMap_cons_some hkept]
    refine ⟨[(env.memoKey n.memos, boundCode env.config _)], rfl, fun key => ?_, fun p hp => ?_⟩
    · rw [n.count_withMemo, List.map_singleton, Nat.add_comm]
    · have hcounts := counts_memo hp hconfig
      rw [hcounts.tally_memoized env rfl, hcounts.tally_boundCode, Term.tally_eq_zero hp,
        Nat.zero_add, List.map_singleton, List.countP_singleton]
      rfl
  | passed _ keep =>
    rw [if_neg (by simp [keep])] at hkept
    rw [List.filterMap_cons_none hkept]
    refine ⟨[], .nil fun p hp => ?_⟩
    rw [(counts_memo hp hconfig).tally_boundCode, Term.tally_eq_zero hp]

theorem LowersProperty.memoizes {q : Property} {entry : Entry Code}
    (h : LowersProperty env K bound site isComponent q entry n n') :
    ∃ made, Memoizes env
      (([Reading.property q].filterMap Reading.handled?).filterMap
        (Content.kept? env.config site bound)) n n' (fun p => entry.value.tally p) made := by
  cases h with
  | callback reads event callback =>
    have hhandled : (Reading.property q).handled? = some q.content := if_pos event
    obtain ⟨-, hdirective⟩ : q.isEvent = true ∧ q.directive = some .bind := by simpa using event
    rw [hdirective, Option.isSome_some] at reads
    obtain ⟨made, hmade⟩ := callback.memoizes hconfig hfree reads
    rw [List.filterMap_cons_some hhandled]
    exact ⟨made, hmade.congr (fun p hp => (counts_memo hp hconfig).tally_ofProperty _ _ _) rfl⟩
  | value reads event =>
    have hhandled : (Reading.property q).handled? = none := if_neg (by simp [event])
    rw [List.filterMap_cons_none hhandled]
    refine ⟨[], .nil fun p hp => ?_⟩
    rw [(counts_memo hp hconfig).tally_ofProperty, Term.tally_eq_zero hp]

/-- The memos of the entries are those of the callbacks among the readings. -/
theorem LowersReadings.memoizes {readings : List Reading} {parts : List Part}
    (h : LowersReadings env K bound site isComponent readings parts n n') :
    ∃ made, Memoizes env
      ((readings.filterMap Reading.handled?).filterMap (Content.kept? env.config site bound)) n n'
      (fun p => entriesTally p (Part.entries parts)) made := by
  induction h with
  | nil => exact ⟨[], .nil fun _ _ => rfl⟩
  | cons head _ ih =>
    obtain ⟨made', hmade'⟩ := ih
    cases head with
    | property lowers =>
      obtain ⟨made, hmade⟩ := lowers.memoizes hconfig hfree
      rw [← List.singleton_append, List.filterMap_append, List.filterMap_append]
      exact ⟨made ++ made', (hmade.append hmade').congr (fun _ _ => rfl) rfl⟩
    | iteration | slot | component | condition | alternative => exact ⟨made', hmade'⟩

end

/-! ## Nodes -/

theorem LowersElement.memoizes {binders : List Binder} {place : Place} {pos : Position} {tag : Tag}
    {attributes : List Attribute} {children : List Node} {sibling : Sibling}
    {ds : List Declaration}
    (h : LowersElement env K binders place pos tag attributes children sibling ds n n')
    (hconfig : env.config.NamesMemo)
    (ht : t.elementAt? place = some (.element pos tag attributes children))
    (hb : t.Binds env.config binders (Site.enclosing ⟨place, true⟩))
    (hchildren : ∀ {binders siblings ds n n'},
      LowersNodes env K binders place 0 children siblings ds n n' →
      t.Binds env.config binders (Site.enclosing ⟨place, false⟩) →
      ∃ made, Memoizes env ((handlersOf env.config place 0 children).filterMap
        (Handler.kept? env.config t)) n n'
        (fun p => rowTally p siblings + statementsTally p ds) made) :
    ∃ made, Memoizes env
      (((Node.element pos tag attributes children).ownHandlers env.config place ++
        handlersOf env.config place 0 children).filterMap (Handler.kept? env.config t)) n n'
      (fun p => sibling.tally p + statementsTally p ds) made := by
  obtain ⟨readings, loop, parts, siblings, inner, chosen, n₁, n₂, htallies⟩ := h.exists_tallies
  have hreadings : (Node.element pos tag attributes children).readings env.config = readings := by
    simp only [Node.readings, htallies.reads]
  have hinside := htallies.opens.binds_enclosing hb (Template.readingsAt_element ht htallies.reads)
  have hreserved : ∀ name ∈ env.config.reserved, binds (inside loop binders) name = false := by
    rw [hinside.binds_eq]
    exact fun name => Template.isBound_of_reserved
  obtain ⟨made, hmade⟩ := htallies.lowersReadings.memoizes hconfig hreserved
  obtain ⟨made', hmade'⟩ := hchildren htallies.lowersChildren hinside
  have htally : ∀ p, (∀ code, p code → (code.memo? env.config).isSome) →
      sibling.tally p + statementsTally p ds =
        (if (elementKind tag readings).chooses then entriesTally p (Part.entries parts) else 0) +
          (rowTally p siblings + statementsTally p inner) := by
    intro p hp
    have hcount := htallies.tally p (counts_memo hp hconfig)
    rw [htallies.opens.tally_eq_zero hp, htallies.lowersReadings.partsTally_memo hp,
      htallies.countP_made fun _ _ _ => eq_false_of_memo? hp rfl] at hcount
    omega
  have hkept : (((readings.filterMap Reading.handled?).map (Handler.mk place)).filterMap
      (Handler.kept? env.config t)) = (readings.filterMap Reading.handled?).filterMap
        (Content.kept? env.config ⟨place, false⟩ (binds (inside loop binders))) := by
    rw [List.filterMap_map, hinside.binds_eq]
    rfl
  rw [Node.ownHandlers, hreadings, List.filterMap_append]
  by_cases hcalled : (elementKind tag readings).chooses
  · simp only [if_pos hcalled] at htally ⊢
    rw [hkept]
    exact ⟨made ++ made', (hmade.append hmade').congr htally htallies.memos⟩
  · simp only [if_neg hcalled] at htally ⊢
    have hnone : Memoizes env [] n n₁ (fun _ => 0) [] := hmade.drop fun _ _ => rfl
    exact ⟨made', (hnone.append hmade').congr htally htallies.memos⟩

mutual

theorem LowersNode.memoizes (hconfig : env.config.NamesMemo) :
    ∀ {node : Node} {binders around before siblings ds n n'},
      LowersNode env K binders around before node siblings ds n n' →
      t.Shows around before node.elements →
      t.Binds env.config binders (Site.enclosing ⟨around, false⟩) →
      ∃ made, Memoizes env ((node.handlers env.config around before).filterMap
        (Handler.kept? env.config t)) n n'
        (fun p => rowTally p siblings + statementsTally p ds) made
  | .text .., _, _, _, _, _, _, _, h, _, _ => by
    cases h with
    | blank => exact ⟨[], .nil fun _ _ => rfl⟩
    | text =>
      refine ⟨[], .nil fun p hp => ?_⟩
      simp [rowTally, Sibling.tally, (counts_memo hp hconfig).tally_text, statementsTally,
        allDeclarations]
  | .placeholder .., _, _, _, _, _, _, _, h, _, _ => by
    cases h with
    | nothing => exact ⟨[], .nil fun _ _ => rfl⟩
    | placeholder =>
      refine ⟨[], .nil fun p hp => ?_⟩
      simp [rowTally, Sibling.tally, (counts_memo hp hconfig).tally_callPrimitive,
        tally_qualify_eq_zero hp, statementsTally, allDeclarations]
  | .fragment _ children, _, _, _, _, _, _, _, h, ht, hb => by
    cases h with
    | fragment lowersChildren => exact LowersNodes.memoizes hconfig lowersChildren ht hb
  | .element .., _, around, before, _, _, _, _, h, ht, hb => by
    cases h with
    | element lowers =>
      have helement := ht 0 _ rfl
      rw [← Site.enclosing_iterable around before] at hb
      obtain ⟨made, hmade⟩ := lowers.memoizes hconfig helement hb fun h hb =>
        LowersNodes.memoizes hconfig h (Template.shows_children helement) hb
      exact ⟨made, hmade.congr (fun p _ => by simp [rowTally]) rfl⟩
  | .literal .., _, _, _, _, _, _, _, h, _, _ => nomatch h
  | .attr .., _, _, _, _, _, _, _, h, _, _ => nomatch h
  | .template .., _, _, _, _, _, _, _, h, _, _ => nomatch h

theorem LowersNodes.memoizes (hconfig : env.config.NamesMemo) :
    ∀ {nodes : List Node} {binders around before siblings ds n n'},
      LowersNodes env K binders around before nodes siblings ds n n' →
      t.Shows around before (elementsOf nodes) →
      t.Binds env.config binders (Site.enclosing ⟨around, false⟩) →
      ∃ made, Memoizes env ((handlersOf env.config around before nodes).filterMap
        (Handler.kept? env.config t)) n n'
        (fun p => rowTally p siblings + statementsTally p ds) made
  | [], _, _, _, _, _, _, _, h, _, _ => by
    cases h
    exact ⟨[], .nil fun _ _ => rfl⟩
  | node :: rest, _, _, _, _, _, _, _, h, ht, hb => by
    cases h with
    | cons head tail =>
      rw [elementsOf] at ht
      obtain ⟨made, hmade⟩ := LowersNode.memoizes hconfig head ht.left hb
      obtain ⟨made', hmade'⟩ := LowersNodes.memoizes hconfig tail ht.right hb
      rw [handlersOf, List.filterMap_append]
      refine ⟨made ++ made', (hmade.append hmade').congr (fun p _ => ?_) rfl⟩
      rw [rowTally_append, statementsTally_append]
      omega

end

/-! ## Units -/

variable {compiled : Compiled}

theorem Compiles.exists_memos {sibling : Sibling} {ds : List Declaration}
    (hc : Compiles env t compiled K sibling ds n) (hconfig : env.config.NamesMemo) :
    ∃ made : List (String × Code), made.Perm (compiled.module.memos env.config) ∧
      made.map Prod.snd = (t.handlers env.config).filterMap (Handler.kept? env.config t) ∧
      ∀ key, (made.map Prod.fst).count key ≤ (n.memoKeys env).count key := by
  classical
  obtain ⟨pos, attributes, children, hroot, hl⟩ := hc.root
  have ht : t.elementAt? [] = some (.element pos ⟨none, "template"⟩ attributes children) := by
    simp [Template.elementAt?, hroot]
  obtain ⟨made, hmade⟩ := hl.memoizes hconfig ht (fun _ => rfl) fun h hb =>
    LowersNodes.memoizes hconfig h (Template.shows_children ht) hb
  refine ⟨made, List.perm_iff_count.2 fun memo => ?_, ?_, fun key => ?_⟩
  · have hp : ∀ code : Code, (code.memo? env.config == some memo) = true →
        (code.memo? env.config).isSome := by
      intro code hcode
      rw [beq_iff_eq.1 hcode]
      rfl
    have hcount := hmade.count _ hp
    rw [hl.tally_root (counts_memo hp hconfig)] at hcount
    rw [Module.memos, List.count_filterMap, Function.countP_subterms, hc.function]
    refine Eq.trans ?_ hcount.symm
    rw [List.countP_map, List.count_eq_countP]
    refine List.countP_congr fun found _ => ?_
    simp [Code.memo?_eq_some_iff.2 rfl]
  · rw [hmade.callbacks, Template.handlers, hroot]
    rfl
  · exact (Nat.le_add_right _ _).trans (hmade.keys key)

/-- The memos of a module against the handlers of its template: one for each callback that is kept,
each under a key of its own, and none with a name that some iteration of the markup binds. -/
structure MemosSafe (env : Env) (t : Template) (m : Module) : Prop where
  kept : ((m.memos env.config).map Prod.snd).Perm
    ((t.handlers env.config).filterMap (Handler.kept? env.config t))
  steady : ∀ memo ∈ m.memos env.config, ∀ name ∈ memo.2.names, ∀ s,
    t.isBound env.config s name = false
  once : ((m.memos env.config).map Prod.fst).Nodup

theorem Compiles.memosSafe {sibling : Sibling} {ds : List Declaration}
    (hc : Compiles env t compiled K sibling ds n) (hconfig : env.config.NamesMemo) :
    MemosSafe env t compiled.module := by
  obtain ⟨made, hperm, hcallbacks, hkeys⟩ := hc.exists_memos hconfig
  have hkept := hperm.symm.map Prod.snd
  rw [hcallbacks] at hkept
  refine ⟨hkept, fun memo hmemo => ?_, ?_⟩
  · obtain ⟨h, -, hcallback⟩ := List.mem_filterMap.1 (hkept.mem_iff.1 (List.mem_map_of_mem hmemo))
    exact h.isBound_of_kept hcallback
  · refine (hperm.map Prod.fst).nodup_iff.1 (List.nodup_iff_count_le_one.2 fun key => ?_)
    exact (hkeys key).trans (List.nodup_iff_count_le_one.1 (n.nodup_memoKeys env) key)

/-- Every memo has a key of its unit. -/
theorem exists_memoKey_of_ok (h : (compile env t).1 = .ok compiled)
    (hconfig : env.config.NamesMemo) :
    ∀ memo ∈ compiled.module.memos env.config, ∃ i, memo.1 = env.memoKey i := by
  obtain ⟨K, sibling, ds, n, hc⟩ := compiles_of_ok h
  obtain ⟨made, hperm, -, hkeys⟩ := hc.exists_memos hconfig
  intro memo hmemo
  have hpos := List.count_pos_iff.2 (List.mem_map_of_mem (f := Prod.fst) (hperm.mem_iff.2 hmemo))
  have hmem : memo.1 ∈ n.memoKeys env := List.count_pos_iff.1 (hpos.trans_le (hkeys _))
  obtain ⟨i, -, hi⟩ := List.mem_map.1 hmem
  exact ⟨i, hi.symm⟩

/-- Memos can be shared: a module keeps the callbacks that start from the instance and mention
nothing of an iteration, all of them and no others, no two under one key, and no key of it is one of
a unit with another label. -/
theorem memos_safe_to_share (h : (compile env t).1 = .ok compiled)
    (hconfig : env.config.NamesMemo) :
    MemosSafe env t compiled.module ∧
      ∀ (env' : Env) (t' : Template) (compiled' : Compiled), env'.config.NamesMemo →
        (compile env' t').1 = .ok compiled' → env'.label ≠ env.label →
        ∀ memo ∈ compiled.module.memos env.config,
          ∀ memo' ∈ compiled'.module.memos env'.config, memo.1 ≠ memo'.1 := by
  refine ⟨?_, fun env' t' compiled' hconfig' h' hlabel memo hmemo memo' hmemo' hkey => ?_⟩
  · obtain ⟨K, sibling, ds, n, hc⟩ := compiles_of_ok h
    exact hc.memosSafe hconfig
  · obtain ⟨i, hi⟩ := exists_memoKey_of_ok h hconfig memo hmemo
    obtain ⟨j, hj⟩ := exists_memoKey_of_ok h' hconfig' memo' hmemo'
    rw [hi, hj] at hkey
    exact hlabel (Env.memoKey_inj hkey).1.symm

/-- A callback beside a repeated element and in it, and two that differ from item to item, one of
them through a subscript. What the inner template binds is not passed on. -/
def savedTemplate : Template :=
  .ofRoot [.plain "p" [.named "onclick" "save"] [],
    .plain "ul" [.text "repeat" "for" "row in rows"]
      [.plain "template" [.named "onclick" "skip"]
        [.plain "li" [.named "onclick" "save", .named "onblur" "row.pick",
          ⟨⟨none, none⟩, ⟨none, "onfocus"⟩, .node (.placeholder ⟨none, none⟩
            (some (.index none (.name none "table") (.name none "row"))))⟩] []]]]

theorem memos_safe_to_share_saved :
    ∃ compiled compiled',
      (compile { Env.default with name := some "a" } savedTemplate).1 = .ok compiled ∧
      (compile { Env.default with name := some "a:_m0" } savedTemplate).1 = .ok compiled' ∧
      (savedTemplate.handlers {}).length = 4 ∧
      (compiled.module.memos {}).map Prod.fst = ["a:_m0", "a:_m2"] ∧
      MemosSafe { Env.default with name := some "a" } savedTemplate compiled.module ∧
      ∀ memo ∈ compiled.module.memos {}, ∀ memo' ∈ compiled'.module.memos {}, memo.1 ≠ memo'.1 := by
  have hkeys : (compile { Env.default with name := some "a" } savedTemplate).1.toOption.map
      (fun c => (c.module.memos {}).map Prod.fst) = some ["a:_m0", "a:_m2"] := by
    decide +kernel
  have hok : (compile { Env.default with name := some "a:_m0" } savedTemplate).1.toOption.map
      (fun _ => ()) = some () := by
    decide +kernel
  obtain ⟨compiled, hc, hkeys⟩ := exists_ok_of_map hkeys
  obtain ⟨compiled', hc', -⟩ := exists_ok_of_map hok
  obtain ⟨hsafe, hapart⟩ := memos_safe_to_share hc (by decide)
  exact ⟨compiled, compiled', hc, hc', by decide +kernel, hkeys, hsafe,
    hapart _ _ _ (by decide) hc' (by decide +kernel)⟩

end TemplateCompiler
