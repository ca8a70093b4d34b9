import TemplateCompiler.Proofs.Displays
import TemplateCompiler.Proofs.Subterms

/-!
# Counting in generated code

How often some kind of code stands in what lowering puts together. Nothing is lost on the way and
nothing is doubled: every item, attribute and statement is counted once wherever it goes, and
lowering adds nothing of that kind save for the conditionals with an else, which are made when
siblings are finished (`FinishesSibling.tally_eq`, `SealsElement.tally_eq`), and for the memos that
callbacks are kept in (`Counts.tally_memoized`).
-/

namespace TemplateCompiler

namespace Code

/-- How many pieces of code in a piece of code have a property. -/
def tally (p : Code → Bool) (code : Code) : Nat :=
  code.subterms.countP p

/-- The call that makes nothing: no other is without arguments. -/
def isNothing : Code → Bool
  | .call _ [] => true
  | _ => false

def isConditional : Code → Bool
  | .conditional .. => true
  | _ => false

end Code

/-- A property that nothing has which lowering puts around contents, save perhaps for conditionals
with an else and for the memos of callbacks. -/
structure Counts (config : Config) (p : Code → Bool) : Prop where
  ref : ∀ id, p (.ref id) = false
  service : ∀ id ∈ [config.apiParam, config.slotsetParam, config.contextParam], ∀ field,
    p (.refMember id field) = false
  constant : ∀ span c, p (.constant span c) = false
  call : ∀ callee arguments, p (.call callee arguments) = false
  dict : ∀ entries, p (.dict entries) = false
  list : ∀ items, p (.list items) = false
  and : ∀ left right, p (.and left right) = false
  outlet : ∀ key code,
    p (.or (.call (.refMember config.slotsetParam "get") [.text key]) code) = false
  guard : ∀ test, p (.or test (.constant none .null)) = false
  lambda : ∀ place parameters body, p (.lambda place parameters body) = false
  conditional : ∀ test body alternative, alternative.isNothing →
    p (.conditional test body alternative) = false

variable {config : Config} {K : Context} {p : Code → Bool} {n n' : Numbering}

/-- What is not of some kind is not counted where only code of that kind is. -/
theorem eq_false_of_kind {kind : Code → Bool} (h : ∀ code, p code → kind code) {code : Code}
    (hkind : kind code = false) : p code = false :=
  Bool.eq_false_iff.2 fun hcounted => Bool.false_ne_true (hkind.symm.trans (h code hcounted))

/-! ## Pieces of code -/

theorem Code.tally_eq (code : Code) :
    code.tally p = (code.parts.map (tally p)).sum + if p code then 1 else 0 := by
  rw [tally, subterms_eq, List.countP_cons, List.countP_flatMap]
  rfl

namespace Counts

variable (h : Counts config p)

include h

theorem tally_ref (id : String) : (Code.ref id).tally p = 0 := by
  rw [Code.tally_eq, h.ref]
  rfl

theorem tally_constant (span : Option Span) (c : Constant) :
    (Code.constant span c).tally p = 0 := by
  rw [Code.tally_eq, h.constant]
  rfl

theorem tally_text (s : String) : (Code.text s).tally p = 0 :=
  h.tally_constant none (.text s)

theorem tally_service {id : String}
    (hid : id ∈ [config.apiParam, config.slotsetParam, config.contextParam]) (field : String) :
    (Code.refMember id field).tally p = 0 := by
  rw [Code.tally_eq, h.service id hid]
  simp [Code.parts, Code.operands, Code.refMember, h.tally_ref]

theorem tally_call (callee : Code) (arguments : List Code) :
    (Code.call callee arguments).tally p =
      callee.tally p + (arguments.map (Code.tally p)).sum := by
  rw [Code.tally_eq, h.call]
  rfl

theorem tally_callPrimitive (name : String) (arguments : List Code) :
    (config.callPrimitive name arguments).tally p = (arguments.map (Code.tally p)).sum := by
  rw [Config.callPrimitive, h.tally_call, Config.primitive, h.tally_service (by simp), Nat.zero_add]

theorem tally_dict (entries : List (String × Code)) :
    (Code.dict entries).tally p = (entries.map fun e => e.2.tally p).sum := by
  rw [Code.tally_eq, h.dict]
  simp [Code.parts, Code.operands, Function.comp_def]

theorem tally_list (items : List Code) :
    (Code.list items).tally p = (items.map (Code.tally p)).sum := by
  rw [Code.tally_eq, h.list]
  rfl

theorem tally_and (left right : Code) :
    (Code.and left right).tally p = left.tally p + right.tally p := by
  rw [Code.tally_eq, h.and]
  simp [Code.parts, Code.operands]

theorem tally_outlet (key : String) (code : Code) :
    (Code.or (.call (.refMember config.slotsetParam "get") [.text key]) code).tally p =
      code.tally p := by
  rw [Code.tally_eq, h.outlet]
  simp [Code.parts, Code.operands, h.tally_call, h.tally_service, h.tally_text]

theorem tally_guard (test : Code) :
    (Code.or test (.constant none .null)).tally p = test.tally p := by
  rw [Code.tally_eq, h.guard]
  simp [Code.parts, Code.operands, h.tally_constant]

theorem tally_lambda (place : Place) (parameters : List String) (body : Code) :
    (Code.lambda place parameters body).tally p = body.tally p := by
  rw [Code.tally_eq, h.lambda]
  simp [Code.parts]

/-! ## Attributes -/

theorem tally_boundCode (target : Code) :
    (boundCode config target).tally p = target.tally p := by
  unfold boundCode
  split
  · rfl
  · simp [h.tally_call, h.tally_ref]

/-- A memo is counted with what is kept in it. -/
theorem tally_memoized (env : Env) (henv : env.config = config) (key : String) (value : Code) :
    (CompileM.memoized env key value).tally p =
      value.tally p + if p (CompileM.memoized env key value) then 1 else 0 := by
  subst henv
  rw [Code.tally_eq]
  simp [CompileM.memoized, Code.parts, Code.operands, h.tally_call, h.tally_service, h.tally_text]

theorem tally_ofProperty (isComponent : Bool) (q : Property) (code : Code) :
    (Entry.ofProperty isComponent q code).value.tally p = code.tally p := by
  unfold Entry.ofProperty
  split
  · unfold Entry.topValue
    split
    · split
      · rename_i style hstyle
        -- a constant style counts nothing, and neither do its declarations
        have hcode : code.tally p = 0 := by
          cases code with
          | constant span c => exact h.tally_constant span c
          | _ => simp [Code.text?] at hstyle
        rw [h.tally_dict, hcode, List.map_map]
        refine List.sum_eq_zero fun m hm => ?_
        obtain ⟨entry, -, rfl⟩ := List.mem_map.1 hm
        exact h.tally_text _
      · rfl
    · rfl
  · rfl

end Counts

theorem nodup_eraseDups {κ : Type} [BEq κ] [LawfulBEq κ] : ∀ l : List κ, l.eraseDups.Nodup
  | [] => by simp
  | k :: l => by
    rw [List.eraseDups_cons, List.nodup_cons, List.mem_eraseDups, List.mem_filter]
    exact ⟨by simp, nodup_eraseDups _⟩
termination_by l => l.length
decreasing_by
  exact Nat.lt_succ_of_le (List.length_filter_le _ l)

/-- A list is put together again from its parts by key. -/
theorem flatMap_filter_perm {β κ : Type} [BEq κ] [LawfulBEq κ] (key : β → κ) {keys : List κ}
    (hnodup : keys.Nodup) : ∀ {l : List β}, (∀ b ∈ l, key b ∈ keys) →
      (keys.flatMap fun k => l.filter fun b => key b == k).Perm l
  | [], _ => by simp
  | b :: l, hkeys => by
    rw [List.forall_mem_cons] at hkeys
    obtain ⟨before, after, rfl⟩ := List.append_of_mem hkeys.1
    have hother : ∀ k, k ≠ key b →
        ((b :: l).filter fun c => key c == k) = l.filter fun c => key c == k :=
      fun k hk => List.filter_cons_of_neg (by simpa using Ne.symm hk)
    have hkey : ((b :: l).filter fun c => key c == key b) =
        b :: l.filter fun c => key c == key b :=
      List.filter_cons_of_pos (by simp)
    have hbefore : ∀ k ∈ before, k ≠ key b := by
      rintro k hk rfl
      exact List.disjoint_of_nodup_append hnodup hk List.mem_cons_self
    have hafter : ∀ k ∈ after, k ≠ key b := by
      rintro k hk rfl
      exact (List.nodup_cons.1 hnodup.of_append_right).1 hk
    have ih := flatMap_filter_perm key hnodup hkeys.2
    rw [List.flatMap_append, List.flatMap_cons] at ih ⊢
    rw [hkey, List.flatMap_congr fun k hk => hother k (hbefore k hk),
      List.flatMap_congr fun k hk => hother k (hafter k hk)]
    exact List.perm_middle.trans (ih.cons b)

namespace Entry

variable {α : Type}

/-- Every entry is at the top or in just one group. -/
theorem perm_inGroup (entries : List (Entry α)) :
    (inGroup entries none ++
      (groups entries).flatMap fun group => inGroup entries (some group)).Perm
      (entries.map fun e => (e.key, e.value)) := by
  have hnodup : (none :: (groups entries).map some).Nodup := by
    refine List.nodup_cons.2 ⟨by simp, ?_⟩
    exact (nodup_eraseDups _).map (Option.some_injective _)
  have hkeys : ∀ e ∈ entries, e.group ∈ none :: (groups entries).map some := by
    intro e he
    rcases hgroup : e.group with _ | group
    · exact List.mem_cons_self
    · refine List.mem_cons_of_mem _ (List.mem_map_of_mem (List.mem_eraseDups.2 ?_))
      exact List.mem_filterMap.2 ⟨e, he, hgroup⟩
  have hperm := (flatMap_filter_perm Entry.group hnodup hkeys).map fun e => (e.key, e.value)
  rw [List.flatMap_cons, List.flatMap_map, List.map_append, List.map_flatMap] at hperm
  exact hperm

end Entry

/-- What is counted in some entries. -/
def entriesTally (p : Code → Bool) (entries : List (Entry Code)) : Nat :=
  (entries.map fun e => e.value.tally p).sum

theorem Counts.tally_attributes (h : Counts config p) (entries : List (Entry Code)) :
    ((Entry.attributes .dict entries).map fun e => e.2.tally p).sum = entriesTally p entries := by
  have hperm := (Entry.perm_inGroup entries).map fun e => e.2.tally p
  rw [List.map_append, List.map_flatMap] at hperm
  have hsum := hperm.sum_nat
  rw [List.sum_append, List.flatMap_def, List.sum_flatten, List.map_map] at hsum
  rw [Entry.attributes, List.map_append, List.sum_append, List.map_map]
  simpa [entriesTally, Function.comp_def, h.tally_dict] using hsum

/-! ## Items -/

/-- What is counted in some items. -/
def itemsTally (p : Code → Bool) (items : List Item) : Nat :=
  (items.map fun i => i.code.tally p).sum

/-- What is counted in an item, if there is one. -/
def alternativeTally (p : Code → Bool) (alternative : Option Item) : Nat :=
  itemsTally p alternative.toList

theorem itemsTally_inSlot (items : List Item) (slot : Option String) :
    itemsTally p (items.map fun i => i.inSlot slot) = itemsTally p items := by
  rw [itemsTally, List.map_map]
  rfl

section

variable (h : Counts config p)

include h

theorem Counts.tally_assemble (items : List Item) :
    (Item.assemble config items).tally p = itemsTally p items := by
  have hlist : (Code.list (items.map Item.code)).tally p = itemsTally p items := by
    rw [h.tally_list, List.map_map]
    rfl
  have hflattened : (config.callPrimitive config.primitives.flatten
      [Code.list (items.map Item.code)]).tally p = itemsTally p items := by
    rw [h.tally_callPrimitive, List.map_singleton, List.sum_singleton, hlist]
  obtain ⟨item, rfl, heq⟩ | heq | heq := Item.assemble_cases config items
  · simp [heq, itemsTally]
  · rw [heq, hlist]
  · rw [heq, hflattened]

theorem Counts.tally_slots (items : List Item) :
    ((Item.slots config items).map fun e => e.2.tally p).sum = itemsTally p items := by
  have hperm := ((groups_perm (Item.slotName config) items).map fun i => i.code.tally p).sum_nat
  rw [List.map_flatMap, List.flatMap_def, List.sum_flatten, List.map_map] at hperm
  rw [slots_eq_groups, List.map_map, itemsTally, ← hperm]
  simp only [Function.comp_def, h.tally_assemble]
  rfl

theorem Counts.tally_iteratedBody (items : List Item) :
    (CompileM.iteratedBody config items).1.tally p = itemsTally p items := by
  unfold CompileM.iteratedBody
  split
  · simp [itemsTally]
  · exact h.tally_assemble _

theorem Counts.tally_outletCode (name : Option String) (items : List Item) :
    (CompileM.outletCode config name items).tally p = itemsTally p items := by
  rw [CompileM.outletCode, h.tally_outlet, h.tally_assemble]

theorem Counts.tally_iterationCall (loop : Loop) (function : Code) (flatten : Bool) :
    (iterationCall config loop function flatten).tally p =
      loop.iterable.tally p + function.tally p := by
  unfold iterationCall
  cases flatten with
  | false => simp [h.tally_callPrimitive]
  | true => simp [h.tally_callPrimitive]

/-- An else is counted with the conditional that it is in. -/
theorem Counts.tally_choose (test body : Code) (alternative : Option Item) :
    (Sibling.choose config test body alternative).tally p =
      test.tally p + body.tally p + alternativeTally p alternative +
        (alternative.toList.map fun i => .conditional test body i.code).countP p := by
  unfold Sibling.choose
  rw [Code.tally_eq]
  rcases alternative with _ | i
  · have hempty : (config.callPrimitive config.primitives.empty []).tally p = 0 := by
      rw [h.tally_callPrimitive]
      rfl
    have hnone := h.conditional test body (config.callPrimitive config.primitives.empty []) rfl
    simp [Code.parts, Code.operands, alternativeTally, itemsTally, hempty, hnone]
  · simp [Code.parts, Code.operands, alternativeTally, itemsTally, List.countP_singleton,
      Nat.add_assoc]

end

/-! ## Statements -/

/-- What is counted in some statements and in those inside of them. -/
def statementsTally (p : Code → Bool) (ds : List Declaration) : Nat :=
  ((allDeclarations ds).map fun d => d.code.tally p).sum

theorem statementsTally_append (ds ds' : List Declaration) :
    statementsTally p (ds ++ ds') = statementsTally p ds + statementsTally p ds' := by
  rw [statementsTally, allDeclarations_append, List.map_append, List.sum_append]
  rfl

/-- What is counted in a function is counted in its result and in its statements. -/
theorem Function.countP_subterms (f : Function) :
    f.subterms.countP p = f.result.tally p + statementsTally p f.declarations := by
  rw [Function.subterms, List.countP_append, List.countP_flatMap, Function.inner_eq]
  rfl

theorem Iterates.tally_eq {loop : Loop} {body code : Code} {flatten : Bool}
    {ds outer : List Declaration} (h : Iterates config loop body flatten ds code outer n n')
    (hp : Counts config p) :
    code.tally p + statementsTally p outer =
      loop.iterable.tally p + body.tally p + statementsTally p ds := by
  cases h with
  | inline => rw [hp.tally_iterationCall, hp.tally_lambda]
  | declared =>
    rw [hp.tally_iterationCall, hp.tally_ref]
    simp [statementsTally, allDeclarations, Declaration.all, Function.inner, Declaration.code,
      Nat.add_assoc]

theorem GuardsItems.tally_eq {condition : Option Code} {items kept : List Item}
    {guards : List Declaration} (h : GuardsItems condition items kept guards n n')
    (hp : Counts config p) :
    itemsTally p kept + statementsTally p guards =
      itemsTally p items + if items = [] then 0 else (condition.toList.map (Code.tally p)).sum := by
  cases h with
  | unconditional => simp [statementsTally, allDeclarations]
  | nothing => rfl
  | guarded nonempty =>
    have hkept : itemsTally p (items.map (CompileM.guardItem n.temporary)) =
        itemsTally p items := by
      rw [itemsTally, List.map_map]
      simp [itemsTally, Function.comp_def, CompileM.guardItem, hp.tally_and, hp.tally_ref]
    rw [hkept, if_neg nonempty]
    simp [statementsTally, allDeclarations, Declaration.all, Declaration.code, hp.tally_guard]

/-! ## Siblings -/

/-- What is counted in a sibling once it is finished, if no alternative follows. -/
def Sibling.tally (p : Code → Bool) (s : Sibling) : Nat :=
  match s.form with
  | .fixed => s.item.code.tally p
  | .spliced items => itemsTally p items
  | .guarded test => test.tally p + s.item.code.tally p
  | .repeated loop ds condition =>
    loop.iterable.tally p + (condition.toList.map (Code.tally p)).sum + s.item.code.tally p +
      statementsTally p ds

/-- What is counted in a row of siblings. -/
def rowTally (p : Code → Bool) (siblings : List Sibling) : Nat :=
  (siblings.map (Sibling.tally p)).sum

theorem rowTally_append (siblings more : List Sibling) :
    rowTally p (siblings ++ more) = rowTally p siblings + rowTally p more := by
  rw [rowTally, List.map_append, List.sum_append]
  rfl

/-- The condition that a sibling is yet to be put under. -/
def Sibling.test? (s : Sibling) : Option Code :=
  match s.form with
  | .guarded test => some test
  | .repeated _ _ condition => condition
  | .fixed | .spliced _ => none

/-- The conditional with an else that a sibling is put in. -/
def Sibling.choice? (s : Sibling) (alternative : Option Item) : Option Code :=
  match s.test?, alternative with
  | some test, some i => some (.conditional test s.item.code i.code)
  | _, _ => none

theorem FinishesSibling.tally_eq {s : Sibling} {alternative : Option Item} {item : Item}
    {ds : List Declaration} (h : FinishesSibling config s alternative item ds n n')
    (hp : Counts config p)
    (hs : ∀ items, s.form = .spliced items → s.item.code = Item.assemble config items)
    (htakes : s.takesAlternative = false → alternative = none) :
    item.code.tally p + statementsTally p ds =
      s.tally p + alternativeTally p alternative + (s.choice? alternative).toList.countP p := by
  have hnothing : statementsTally p [] = 0 := rfl
  unfold Sibling.tally Sibling.choice? Sibling.test?
  cases h with
  | fixed form =>
    obtain rfl := htakes (by rw [Sibling.takesAlternative, form])
    simp [form, hnothing, alternativeTally, itemsTally]
  | spliced form =>
    obtain rfl := htakes (by rw [Sibling.takesAlternative, form])
    simp [form, hnothing, alternativeTally, itemsTally, hs _ form, hp.tally_assemble]
  | guarded form =>
    rw [form, hp.tally_choose, hnothing]
    cases alternative <;> rfl
  | repeated form iterates =>
    obtain rfl := htakes (by rw [Sibling.takesAlternative, form]; rfl)
    have hcode := iterates.tally_eq hp
    simp [form, alternativeTally, itemsTally]
    omega
  | filtered form iterates =>
    have hcode := iterates.tally_eq hp
    rw [hp.tally_choose] at hcode
    cases alternative <;> simp [form] at hcode ⊢ <;> omega

/-! ## Elements -/

/-- What is counted in the condition of an element. -/
def conditionTally (p : Code → Bool) (parts : List Part) : Nat :=
  ((Part.condition? parts).toList.map (Code.tally p)).sum

def componentTally (p : Code → Bool) (parts : List Part) : Nat :=
  ((Part.component? parts).toList.map (Code.tally p)).sum

/-- What is counted in the attributes that come into the code of an element: of a template only its
condition, if there is something to guard, and of an outlet none. -/
def partsTally (p : Code → Bool) (kind : ElementKind) (isHollow : Bool) (parts : List Part) :
    Nat :=
  match kind with
  | .template => if isHollow then 0 else conditionTally p parts
  | .outlet => 0
  | .dynamic =>
    conditionTally p parts + (componentTally p parts + entriesTally p (Part.entries parts))
  | .virtual _ | .custom | .plain =>
    conditionTally p parts + entriesTally p (Part.entries parts)

theorem CallsElement.tally_eq {tag : Tag} {written : Option Content} {parts : List Part}
    {items : List Item} {kind : ElementKind} {code : Code}
    (h : CallsElement config K tag written parts items kind code) (hp : Counts config p)
    (hnamed : (Text.given (written.bind Content.text?)).isSome → componentTally p parts = 0)
    (isHollow : Bool) :
    code.tally p + conditionTally p parts =
      partsTally p kind isHollow parts + itemsTally p items := by
  have hattributes := hp.tally_attributes (Part.entries parts)
  have hcall : ∀ component : Code,
      (config.callPrimitive config.primitives.virtualElement
        [component, .dict (Entry.attributes .dict (Part.entries parts)),
          Item.assemble config items]).tally p =
        component.tally p + entriesTally p (Part.entries parts) + itemsTally p items := by
    intro component
    simp [hp.tally_callPrimitive, hp.tally_dict, hp.tally_assemble, hattributes, Nat.add_assoc]
  cases h with
  | virtual =>
    rw [hcall, hp.tally_ref, partsTally]
    omega
  | named names =>
    rw [hcall, hp.tally_ref, partsTally, hnamed (by simp [names])]
    omega
  | @computed _ selected _ _ component =>
    have hcomponent : componentTally p parts = selected.tally p := by
      simp [componentTally, component]
    rw [hcall, partsTally, hcomponent]
    omega
  | custom =>
    have hslotset : ((if items.isEmpty then []
        else [("slotset", Code.dict (Item.slots config items))]).map
          fun e => e.2.tally p).sum = itemsTally p items := by
      cases items with
      | nil => rfl
      | cons => simp [hp.tally_dict, hp.tally_slots]
    rw [hp.tally_callPrimitive, partsTally]
    simp only [List.map_cons, List.map_nil, List.sum_cons, List.sum_nil, List.map_append,
      List.sum_append, hp.tally_text, hp.tally_ref, hp.tally_dict, hattributes, hslotset]
    omega
  | plain =>
    rw [hp.tally_callPrimitive, partsTally]
    simp only [List.map_cons, List.map_nil, List.sum_cons, List.sum_nil, hp.tally_text,
      hp.tally_dict, hp.tally_assemble, hattributes]
    omega

/-- What is counted in an element is counted in its attributes, in what it iterates over and in its
children. -/
theorem SealsElement.tally_eq {pos : Position} {tag : Tag} {readings : List Reading}
    {parts : List Part} {items : List Item} {ds outer : List Declaration} {kind : ElementKind}
    {loop : Option Loop} {sibling : Sibling}
    (h : SealsElement config K pos tag readings parts items ds kind loop sibling outer n n')
    (hp : Counts config p)
    (hnamed : (Text.given ((Reading.component? readings).bind Content.text?)).isSome →
      componentTally p parts = 0) :
    sibling.tally p + statementsTally p outer =
      (loop.toList.map fun l => l.iterable.tally p).sum +
        partsTally p kind (items = []) parts + (itemsTally p items + statementsTally p ds) := by
  have hnothing : statementsTally p [] = 0 := rfl
  unfold Sibling.tally
  cases h with
  | spliced guarded =>
    have hkept := guarded.tally_eq hp
    rw [statementsTally_append]
    simp [partsTally, conditionTally]
    omega
  | iterated guarded iterates =>
    have hkept := guarded.tally_eq hp
    have hcode := iterates.tally_eq hp
    rw [hp.tally_iteratedBody, statementsTally_append] at hcode
    simp [partsTally, conditionTally]
    omega
  | outlet => simp [partsTally, hp.tally_outletCode]
  | fixed condition calls =>
    have hcode := calls.tally_eq hp hnamed (items = [])
    simp [conditionTally, condition] at hcode ⊢
    omega
  | guarded condition calls =>
    have hcode := calls.tally_eq hp hnamed (items = [])
    simp [conditionTally, condition] at hcode ⊢
    omega
  | repeated calls =>
    have hcode := calls.tally_eq hp hnamed (items = [])
    rw [hnothing]
    simp [conditionTally] at hcode ⊢
    omega

variable {env : Env}

theorem LowersReadings.component?_cases {bound : String → Bool} {site : Site} {isComponent : Bool}
    {readings : List Reading} {parts : List Part}
    (h : LowersReadings env K bound site isComponent readings parts n n') :
    (Part.component? parts = none ∧ Reading.component? readings = none) ∨
      ∃ content term, Reading.component? readings = some content ∧
        content.term? false = some term ∧
        Part.component? parts = some (term.code env.config site bound) := by
  induction h with
  | nil => exact .inl ⟨rfl, rfl⟩
  | cons head _ ih =>
    unfold Part.component? Reading.component? at *
    rw [List.findSome?_append, List.findSome?_cons]
    cases head with
    | component reads => exact .inr ⟨_, _, rfl, reads, rfl⟩
    | iteration | slot | condition | alternative | property => simpa using ih

/-- The name of a component counts nothing. -/
theorem LowersReadings.componentTally_of_named {bound : String → Bool} {site : Site}
    {isComponent : Bool} {readings : List Reading} {parts : List Part}
    (h : LowersReadings env K bound site isComponent readings parts n n')
    (hp : Counts env.config p)
    (hnamed : (Text.given ((Reading.component? readings).bind Content.text?)).isSome) :
    componentTally p parts = 0 := by
  unfold componentTally
  rcases h.component?_cases with ⟨hparts, -⟩ | ⟨content, term, hreading, hterm, hparts⟩
  · rw [hparts]
    rfl
  · rw [hreading, Option.bind_some] at hnamed
    cases content with
    | expression e => simp [Content.text?, Text.given] at hnamed
    | constant c =>
      have hconstant : term = .constant c := by
        unfold Content.term? at hterm
        dsimp only at hterm
        split at hterm <;> simp_all
      rw [hparts, hconstant]
      simp [Term.code, hp.tally_constant]

/-- A template is no call, and so what is counted in it is counted in its code. -/
theorem LowersElement.tally_root {binders : List Binder} {place : Place} {pos : Position}
    {attributes : List Attribute} {children : List Node} {sibling : Sibling}
    {ds : List Declaration}
    (h : LowersElement env K binders place pos ⟨none, "template"⟩ attributes children sibling ds
      n n') (hp : Counts env.config p) :
    sibling.tally p = sibling.item.code.tally p := by
  cases h with
  | mk _ _ _ _ _ seals =>
    rw [elementKind_eq_template_iff.2 rfl] at seals
    cases seals with
    | spliced => exact (hp.tally_assemble _).symm
    | iterated => rfl
    | fixed _ calls | guarded _ calls | repeated calls => nomatch calls

end TemplateCompiler
