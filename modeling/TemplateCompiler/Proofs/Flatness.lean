import TemplateCompiler.Proofs.Reaches
import TemplateCompiler.Proofs.Shapes

/-!
# Lists of children are flat

Where temporaries and loop functions stand for what they are declared as, code comes to what its
shape says: a list of items has none that is a list, unless a template repeats nothing. That holds
of every list of children that is evaluated in rendering.
-/

namespace TemplateCompiler

variable {α : Type} {host : Host α} {ρ ρ' : Locals α} {env : Env} {config : Config} {hollow : Prop}
  {B : List Declaration}

/-! ## Values -/

/-- An item is no list, but for an empty one where that can be. -/
def Value.IsItem (hollow : Prop) (v : Value α) : Prop :=
  v.isList → hollow ∧ v = .list []

/-- A list of items. -/
def Value.IsFlat (hollow : Prop) (v : Value α) : Prop :=
  ∃ items, v = .list items ∧ ∀ i ∈ items, i.IsItem hollow

/-- What code of a shape comes to. -/
def Shape.Admits (hollow : Prop) : Shape → Value α → Prop
  | .item false, v => v.IsItem hollow
  | .item true, v => v.IsItem hollow ∨ v.IsFlat hollow
  | .list false, v => v.IsFlat hollow
  | .list true, v => ∃ items, v = .list items ∧ ∀ i ∈ items, i.IsItem hollow ∨ i.IsFlat hollow

theorem Value.isItem_of_not_isList {v : Value α} (h : v.isList = false) : v.IsItem hollow :=
  fun hlist => absurd hlist (by simp [h])

theorem Shape.admits_item {nested : Bool} {v : Value α} (h : v.IsItem hollow) :
    (Shape.item nested).Admits hollow v := by
  cases nested with
  | false => exact h
  | true => exact .inl h

/-- A list admits what its items do. -/
theorem Shape.admits_list_iff {nested : Bool} {v : Value α} :
    (Shape.list nested).Admits hollow v ↔
      ∃ items, v = .list items ∧ ∀ i ∈ items, (Shape.item nested).Admits hollow i := by
  cases nested <;> rfl

/-- One level of lists is flattened. -/
theorem Shape.isFlat_of_admits {items : List (Value α)}
    (h : (Shape.list true).Admits hollow (.list items)) :
    Value.IsFlat hollow (.list (items.flatMap Value.spliced)) := by
  obtain ⟨_, heq, hitems⟩ := h
  obtain rfl := Value.list.inj heq
  refine ⟨_, rfl, fun i hi => ?_⟩
  obtain ⟨v, hv, hi⟩ := List.mem_flatMap.1 hi
  rcases hitems v hv with hitem | ⟨inner, rfl, hinner⟩
  · by_cases hlist : v.isList
    · rw [(hitem hlist).2] at hi
      simp [Value.spliced] at hi
    · rw [Value.spliced_of_not_isList (by simpa using hlist), List.mem_singleton] at hi
      exact hi ▸ hitem
  · exact hinner i hi

/-! ## Hosts -/

/-- A host that passes content and iterates as it should: content is a list of values that are no
lists, and the iterator makes a list of what its function gives. -/
structure Host.Serves (host : Host α) : Prop where
  content : ∀ key, host.truthy (host.content key) →
    ∃ items, host.content key = .list items ∧ ∀ i ∈ items, i.isList = false
  iterate : ∀ xs f v, host.iterate [xs, host.function f] = some v →
    ∃ calls items, List.mapM f calls = some items ∧ v = .list items

/-- A host that never fails: neither to read nor to iterate, as long as the function that it
iterates with gives something for as many arguments as it takes. -/
structure Host.Completes (host : Host α) : Prop extends host.Total where
  iterate : ∀ xs f n, (∀ arguments : List (Value α), arguments.length = n → (f arguments).isSome) →
    (host.iterate [xs, host.function f]).isSome

/-- Whatever is come to is as it should be, and in a host that never fails something is. -/
structure Host.Gives (host : Host α) {β : Type} (Q : β → Prop) (o : Option β) : Prop where
  isSome : host.Completes → o.isSome
  all : ∀ b, o = some b → Q b

namespace Host.Gives

variable {β γ : Type} {P : β → Prop} {Q : γ → Prop}

theorem some {b : β} (h : P b) : host.Gives P (some b) :=
  ⟨fun _ => rfl, fun _ hb => Option.some.inj hb ▸ h⟩

/-- It is known what is come to. -/
theorem self {o : Option β} (h : host.Completes → o.isSome) : host.Gives (fun b => o = .some b) o :=
  ⟨h, fun _ hb => hb⟩

theorem bind {o : Option β} {f : β → Option γ} (ho : host.Gives P o)
    (hf : ∀ b, P b → host.Gives Q (f b)) : host.Gives Q (o.bind f) := by
  constructor
  · intro hhost
    obtain ⟨b, hb⟩ := Option.isSome_iff_exists.1 (ho.isSome hhost)
    rw [hb]
    exact (hf b (ho.all b hb)).isSome hhost
  · intro c hc
    obtain ⟨b, hb, hc⟩ := Option.bind_eq_some_iff.1 hc
    exact (hf b (ho.all b hb)).all c hc

theorem exists_eq {o : Option β} (h : host.Gives P o) (hhost : host.Completes) :
    ∃ b, o = .some b ∧ P b := by
  obtain ⟨b, hb⟩ := Option.isSome_iff_exists.1 (h.isSome hhost)
  exact ⟨b, hb, h.all b hb⟩

theorem mono {o : Option β} {P' : β → Prop} (h : host.Gives P o) (hP : ∀ b, P b → P' b) :
    host.Gives P' o :=
  ⟨h.isSome, fun b hb => hP b (h.all b hb)⟩

theorem mapM {f : β → Option γ} {l : List β} (h : ∀ b ∈ l, host.Gives Q (f b)) :
    host.Gives (fun cs => ∀ c ∈ cs, Q c) (l.mapM f) := by
  induction l with
  | nil => exact some (by simp)
  | cons b rest ih =>
    rw [List.forall_mem_cons] at h
    rw [List.mapM_cons]
    refine bind h.1 fun c hc => bind (ih h.2) fun cs hcs => some ?_
    exact List.forall_mem_cons.2 ⟨hc, hcs⟩

end Host.Gives

theorem exists_of_mem_mapM {β γ : Type} {f : β → Option γ} :
    ∀ {l : List β} {cs : List γ}, l.mapM f = some cs → ∀ {c : γ}, c ∈ cs → ∃ b ∈ l, f b = some c
  | [], cs, h, c, hc => by
    obtain rfl : cs = [] := by simpa using h.symm
    simp at hc
  | b :: rest, cs, h, c, hc => by
    simp only [List.mapM_cons, Option.bind_eq_bind, Option.bind_eq_some_iff, Option.pure_def,
      Option.some.injEq] at h
    obtain ⟨c', hc', cs', hcs', rfl⟩ := h
    rcases List.mem_cons.1 hc with rfl | hc
    · exact ⟨b, List.mem_cons_self, hc'⟩
    · obtain ⟨b', hb', hf⟩ := exists_of_mem_mapM hcs' hc
      exact ⟨b', List.mem_cons_of_mem _ hb', hf⟩

/-- The iterator makes a list of what a function gives. -/
theorem Host.Serves.gives_iterate (h : host.Serves) {xs : Value α}
    {f : List (Value α) → Option (Value α)} {n : Nat} {Q : Value α → Prop}
    (hlength : ∀ arguments, (f arguments).isSome → arguments.length = n)
    (hf : ∀ arguments, arguments.length = n → host.Gives Q (f arguments)) :
    host.Gives (fun v => ∃ items, v = .list items ∧ ∀ i ∈ items, Q i)
      (host.iterate [xs, host.function f]) := by
  constructor
  · intro hhost
    exact hhost.iterate xs f n fun arguments hn => (hf arguments hn).isSome hhost
  · intro v hv
    obtain ⟨calls, items, hitems, rfl⟩ := h.iterate xs f v hv
    refine ⟨items, rfl, fun i hi => ?_⟩
    obtain ⟨call, -, hcall⟩ := exists_of_mem_mapM hitems hi
    exact (hf call (hlength call (by rw [hcall]; rfl))).all i hcall

/-! ## What names stand for -/

mutual

/-- The names of the module's own stand for what they should, if for anything: a temporary that is
not true is nothing, and a loop function is itself. -/
inductive Respects (host : Host α) (config : Config) (B : List Declaration) : Locals α → Prop where
  | mk {ρ : Locals α} (interface : ρ.find config.apiParam = some (.service .interface))
      (slots : ρ.find config.slotsetParam = some (.service .slots))
      (memo : ρ.find config.contextParam = some (.service .memo))
      (helper : ∀ v, ρ.find config.bindHelper = some v → v = .methodType)
      (temporary : ∀ name value v, .assign name value ∈ B → ρ.find name = some v →
        host.truthy v = false → v = .constant .null)
      (function : ∀ f v, .define f ∈ B → ρ.find f.name = some v → Closure host config B f v) :
      Respects host config B ρ

/-- A function with what names stood for when it was declared. -/
inductive Closure (host : Host α) (config : Config) (B : List Declaration) :
    Function → Value α → Prop where
  | mk {f : Function} {around : Locals α} (respects : Respects host config B around)
      (found : ∀ m ∈ f.mentions, m.FoundIn around) :
      Closure host config B f (host.function (f.call host around))

end

/-- The statements of a module, each known by its name. -/
structure Known (config : Config) (hollow : Prop) (B : List Declaration) : Prop where
  primitives : config.primitives = {}
  apart : ∀ x ∈ config.reserved, x ∉ hoistedNames B
  nodup : (hoistedNames B).Nodup
  shaped : ∀ d ∈ B, d.Shaped config hollow B
  inside : ∀ f, .define f ∈ B → f.declarations ⊆ B

theorem Known.eq_of_name (h : Known config hollow B) {d d' : Declaration} (hd : d ∈ B)
    (hd' : d' ∈ B) (hname : d.name = d'.name) : d = d' :=
  List.inj_on_of_nodup_map h.nodup hd hd' hname

namespace Respects

/-- Only what the module's own names stand for matters. -/
theorem of_find (h : Respects host config B ρ)
    (hreserved : ∀ x ∈ config.reserved, ρ'.find x = ρ.find x)
    (hB : ∀ x ∈ hoistedNames B, ∀ v, ρ'.find x = some v → ρ.find x = some v) :
    Respects host config B ρ' := by
  have hmem : ∀ {d : Declaration}, d ∈ B → d.name ∈ hoistedNames B := List.mem_map_of_mem
  cases h with
  | mk interface slots memo helper temporary function =>
    constructor
    · exact (hreserved _ (by simp [Config.reserved])).trans interface
    · exact (hreserved _ (by simp [Config.reserved])).trans slots
    · exact (hreserved _ (by simp [Config.reserved])).trans memo
    · intro v hv
      exact helper v ((hreserved _ (by simp [Config.reserved])).symm.trans hv)
    · exact fun name value v hd hv => temporary name value v hd (hB name (hmem hd) v hv)
    · exact fun f v hd hv => function f v hd (hB f.name (hmem hd) v hv)

/-- The arguments of an iteration take the place of no name of the module's own. -/
theorem body (h : Respects host config B ρ) {parameters : List String} {arguments : List (Value α)}
    {own : Locals α} (hfresh : Fresh config B parameters)
    (hcall : Locals.ofCall parameters arguments = some own) :
    Respects host config B (own ++ ρ) := by
  refine h.of_find (fun x hx => ?_) fun x hx v hv => ?_
  · exact Locals.find_ofCall_append hcall ρ fun hmem => (hfresh x hmem).1 hx
  · rwa [Locals.find_ofCall_append hcall ρ fun hmem => (hfresh x hmem).2 hx] at hv

theorem entry (hB : Known config hollow B) (h : Respects host config B ρ) {f : Function}
    {arguments : List (Value α)} (hfresh : Fresh config B f.parameters) (hf : f.declarations ⊆ B)
    (hentry : f.entry ρ arguments = some ρ') : Respects host config B ρ' := by
  have hfind := fun x => Function.find_entry hentry x
  refine h.of_find (fun x hx => ?_) fun x hx v hv => ?_
  · rw [(hfind x).2 fun hmem => (hfresh x hmem).1 hx, if_neg fun hmem => ?_]
    exact hB.apart x hx (List.map_subset _ hf hmem)
  · rw [(hfind x).2 fun hmem => (hfresh x hmem).2 hx] at hv
    split at hv
    · simp at hv
    · exact hv

/-- A statement that has been run gives its name what it stands for. -/
theorem run (hB : Known config hollow B) (h : Respects host config B ρ) {d : Declaration}
    {v : Value α} (hd : d ∈ B)
    (htemporary : ∀ name value, d = .assign name value → host.truthy v = false →
      v = .constant .null)
    (hfunction : ∀ f, d = .define f → (∀ m ∈ f.mentions, m.FoundIn ρ) ∧
      v = host.function (f.call host ρ)) : Respects host config B ((d.name, some v) :: ρ) := by
  have hother : ∀ {x}, x ≠ d.name → Locals.find ((d.name, some v) :: ρ) x = ρ.find x :=
    fun hx => Locals.find_cons_of_ne hx _ ρ
  have hself : Locals.find ((d.name, some v) :: ρ) d.name = some v := Locals.find_cons_self _ _ ρ
  have hreserved : ∀ x ∈ config.reserved, Locals.find ((d.name, some v) :: ρ) x = ρ.find x := by
    intro x hx
    refine hother ?_
    rintro rfl
    exact hB.apart _ hx (List.mem_map_of_mem hd)
  have hbefore := h
  cases h with
  | mk interface slots memo helper temporary function =>
    constructor
    · exact (hreserved _ (by simp [Config.reserved])).trans interface
    · exact (hreserved _ (by simp [Config.reserved])).trans slots
    · exact (hreserved _ (by simp [Config.reserved])).trans memo
    · intro v hv
      exact helper v ((hreserved _ (by simp [Config.reserved])).symm.trans hv)
    · intro name value v' hd' hv'
      by_cases hname : name = d.name
      · obtain rfl := hB.eq_of_name hd hd' hname.symm
        obtain rfl := Option.some.inj (hself.symm.trans hv')
        exact htemporary name value rfl
      · rw [hother hname] at hv'
        exact temporary name value v' hd' hv'
    · intro f v' hd' hv'
      by_cases hname : f.name = d.name
      · obtain rfl := hB.eq_of_name hd hd' hname.symm
        obtain rfl := Option.some.inj (hself.symm.trans hv')
        obtain ⟨hfound, rfl⟩ := hfunction f rfl
        exact .mk hbefore hfound
      · rw [hother hname] at hv'
        exact function f v' hd' hv'

end Respects

/-! ## Evaluation -/

namespace Host.Gives

theorem evalList {codes : List Code} {Q : Value α → Prop}
    (h : ∀ c ∈ codes, host.Gives Q (c.eval host ρ)) :
    host.Gives (fun vs => ∀ v ∈ vs, Q v) (Code.evalList host ρ codes) := by
  rw [Code.evalList_eq_mapM]
  exact mapM h

theorem dict {entries : List (String × Code)}
    (h : ∀ e ∈ entries, host.Gives (fun _ => True) (e.2.eval host ρ)) :
    host.Gives (fun _ => True) ((Code.dict entries).eval host ρ) := by
  rw [Code.eval, Code.evalEntries_eq_mapM]
  refine bind (mapM (Q := fun _ => True) fun e he => ?_) fun _ _ => some trivial
  exact ⟨fun hhost => by rw [Option.isSome_map]; exact (h e he).isSome hhost, fun _ _ => trivial⟩

theorem ref {name : String} (h : (Code.ref name).All (Mention.FoundIn ρ)) :
    host.Gives (fun v => ρ.find name = .some v) ((Code.ref name).eval host ρ) :=
  self fun _ => by simpa [Mention.FoundIn, Mention.holder?, Mention.own] using Code.all_ref.1 h

end Host.Gives

/-- Code that makes no content comes to something. -/
theorem Plain.gives {code : Code} (h : Plain config code) :
    Respects host config B ρ → code.All (Mention.FoundIn ρ) →
      host.Gives (fun _ => True) (code.eval host ρ) := by
  have hany {β : Type} {o : Option β} (b : β) (ho : o = some b) :
      host.Gives (fun _ => True) o := ho ▸ .some trivial
  intro hρ
  induction h with
  | ref => exact fun hall => (Host.Gives.ref hall).mono fun _ _ => trivial
  | @name _ _ id =>
    intro hall
    have hfound : (Mention.own id).FoundIn ρ := Code.all_name.1 hall
    exact (Host.Gives.ref (Code.all_ref.2 hfound)).mono fun _ _ => trivial
  | member _ ih =>
    intro hall
    exact (ih (Code.all_member.1 hall)).bind fun v _ =>
      ⟨fun hhost => hhost.read v _, fun _ _ => trivial⟩
  | index _ _ ih ih' =>
    intro hall
    obtain ⟨hvalue, hkey⟩ := Code.all_index.1 hall
    exact (ih hvalue).bind fun v _ => (ih' hkey).bind fun key _ =>
      ⟨fun hhost => hhost.index v key, fun _ _ => trivial⟩
  | constant | foreign => exact fun _ => .some trivial
  | or _ _ ih ih' =>
    intro hall
    obtain ⟨hleft, hright⟩ := Code.all_or.1 hall
    refine (ih hleft).bind fun v _ => ?_
    split
    · exact .some trivial
    · exact ih' hright
  | dict _ ih =>
    intro hall
    rw [Code.all_dict] at hall
    exact Host.Gives.dict fun e he => ih e he (hall e he)
  | @bound target _ ih =>
    intro hall
    obtain ⟨hhelper, harguments⟩ := Code.all_call.1 hall
    obtain ⟨htarget, hinst⟩ : target.All (Mention.FoundIn ρ) ∧
        (Code.ref config.instanceParam).All (Mention.FoundIn ρ) := by
      simpa using harguments
    rw [Code.eval]
    refine (Host.Gives.ref hhelper).bind fun v hv => ?_
    cases hρ with
    | mk _ _ _ helper _ _ =>
      obtain rfl := helper v hv
      refine (Host.Gives.evalList (Q := fun _ => True) ?_).bind fun _ _ => .some trivial
      rw [List.forall_mem_cons, List.forall_mem_singleton]
      exact ⟨ih htarget, (Host.Gives.ref hinst).mono fun _ _ => trivial⟩
  | lookup =>
    intro _
    cases hρ with
    | mk _ _ memo _ _ _ =>
      exact hany (.constant .null) (by simp [Code.refMember, Code.eval, Code.evalList, memo])
  | @store key value _ ih =>
    intro hall
    obtain ⟨-, harguments⟩ := Code.all_call.1 hall
    have heval : (Code.call (.refMember config.contextParam "setdefault")
        [.text key, value]).eval host ρ = value.eval host ρ := by
      cases hρ with
      | mk _ _ memo _ _ _ =>
        simp [Code.refMember, Code.eval, Code.evalList, memo, Option.bind_assoc]
    rw [heval]
    exact ih (harguments _ (by simp))

/-- A statement runs through, and then its name stands for what it should. -/
theorem Respects.gives_run (hB : Known config hollow B) (hρ : Respects host config B ρ)
    {d : Declaration} (hd : d ∈ B) (hfound : ∀ m ∈ d.mentions, m.FoundIn ρ) :
    host.Gives (fun ρ' => ∃ v, ρ' = (d.name, some v) :: ρ ∧ Respects host config B ρ')
      (d.run host ρ) := by
  cases hB.shaped d hd with
  | @assign name test plain =>
    have hassign (v : Value α) (hv : host.truthy v = false → v = .constant .null) :
        Respects host config B ((name, some v) :: ρ) := by
      refine hρ.run hB hd (fun _ _ h hfalse => ?_) (by simp)
      exact hv hfalse
    rw [Declaration.run, Code.eval, Option.bind_eq_bind, Option.bind_eq_bind, Option.bind_assoc]
    refine (plain.gives hρ (Code.all_or.1 hfound).1).bind fun v _ => ?_
    split
    · rename_i htrue
      exact .some ⟨v, rfl, hassign v (by simp [htrue])⟩
    · exact .some ⟨_, rfl, hassign _ fun _ => rfl⟩
  | @define f _ fresh shaped inside =>
    rw [Declaration.run]
    refine .some ⟨_, rfl, hρ.run hB hd (by simp) fun f' hf' => ?_⟩
    obtain rfl := Declaration.define.inj hf'
    exact ⟨hfound, rfl⟩

/-- Statements run through, and then the result finds its names. -/
theorem Respects.gives_runStatements (hB : Known config hollow B) {result : Code} :
    ∀ {ds : List Declaration} {ρ : Locals α} {earlier : List String}, ds ⊆ B →
      Respects host config B ρ → Covers ρ earlier ds result →
      host.Gives (fun ρ' => Respects host config B ρ' ∧ result.All (Mention.FoundIn ρ'))
        (runStatements host ρ ds)
  | [], _, _, _, hρ, hcovers => .some ⟨hρ, hcovers.all_result⟩
  | d :: rest, ρ, earlier, hsub, hρ, hcovers => by
    obtain ⟨hd, hrest⟩ := List.cons_subset.1 hsub
    rw [runStatements]
    refine (hρ.gives_run hB hd hcovers.head).bind ?_
    rintro _ ⟨v, rfl, hρ'⟩
    exact hρ'.gives_runStatements hB hrest (hcovers.tail v)

theorem Respects.eval_callPrimitive (hρ : Respects host config B ρ) (maker : String)
    (arguments : List Code) : (config.callPrimitive maker arguments).eval host ρ =
      (Code.evalList host ρ arguments).bind (host.callPrimitive maker) := by
  cases hρ with
  | mk interface _ _ _ _ _ =>
    simp [Config.callPrimitive, Config.primitive, Code.refMember, Code.eval, interface]

/-- What is made of operands is no list. -/
theorem Respects.gives_maker (hρ : Respects host config B ρ) {maker : String}
    {arguments : List Code} (hmaker : maker ∈ Host.makers)
    (harguments : ∀ a ∈ arguments, host.Gives (fun _ => True) (a.eval host ρ)) :
    host.Gives (Value.IsItem hollow) ((config.callPrimitive maker arguments).eval host ρ) := by
  rw [hρ.eval_callPrimitive]
  refine (Host.Gives.evalList harguments).bind fun vs _ => ?_
  unfold Host.callPrimitive
  rw [if_pos (List.contains_iff_mem.2 hmaker)]
  exact .some (Value.isItem_of_not_isList rfl)

theorem Code.all_callPrimitive_of_all {Q : Mention → Prop} {maker : String} {arguments : List Code}
    (h : (config.callPrimitive maker arguments).All Q) : ∀ a ∈ arguments, a.All Q :=
  (Code.all_call.1 h).2

/-- A call of the iterator, for a function that stands for itself. -/
theorem Respects.gives_iterate (hhost : host.Serves) (hB : Known config hollow B)
    (hρ : Respects host config B ρ) {iterable function : Code} {n : Nat} {Q : Value α → Prop}
    (hiterable : host.Gives (fun _ => True) (iterable.eval host ρ))
    (hfunction : host.Gives (fun v => ∃ f, v = host.function f ∧
      (∀ arguments, (f arguments).isSome → arguments.length = n) ∧
      ∀ arguments, arguments.length = n → host.Gives Q (f arguments)) (function.eval host ρ)) :
    host.Gives (fun v => ∃ items, v = .list items ∧ ∀ i ∈ items, Q i)
      ((config.callPrimitive config.primitives.iterator [iterable, function]).eval host ρ) := by
  rw [hρ.eval_callPrimitive, hB.primitives]
  simp only [Code.evalList, Option.bind_eq_bind, Option.pure_def, Option.bind_some,
    Option.bind_assoc]
  refine hiterable.bind fun xs _ => hfunction.bind ?_
  rintro _ ⟨f, rfl, hlength, hf⟩
  exact hhost.gives_iterate hlength hf

/-- A call of the iterator for a lambda. -/
theorem Respects.gives_inline (hhost : host.Serves) (hB : Known config hollow B)
    (hρ : Respects host config B ρ) {iterable body : Code} {place : Place}
    {parameters : List String} {Q : Value α → Prop}
    (hiterable : host.Gives (fun _ => True) (iterable.eval host ρ))
    (hfresh : Fresh config B parameters)
    (hall : (Code.lambda place parameters body).All (Mention.FoundIn ρ))
    (hbody : ∀ {ρ' : Locals α}, Respects host config B ρ' → body.All (Mention.FoundIn ρ') →
      host.Gives Q (body.eval host ρ')) :
    host.Gives (fun v => ∃ items, v = .list items ∧ ∀ i ∈ items, Q i)
      ((config.callPrimitive config.primitives.iterator
        [iterable, .lambda place parameters body]).eval host ρ) := by
  refine hρ.gives_iterate hhost hB (n := parameters.length) hiterable (.some ⟨_, rfl, ?_, ?_⟩)
  · intro arguments h
    rcases hcall : Locals.ofCall parameters arguments with _ | own
    · simp [hcall] at h
    · exact (Locals.ofCall_eq_some_iff.1 hcall).1.symm
  · intro arguments hlength
    have hcall := Locals.ofCall_eq_some_iff.2 ⟨hlength.symm, rfl⟩
    rw [hcall, Option.bind_eq_bind, Option.bind_some]
    exact hbody (hρ.body hfresh hcall) (hall.body hcall)

/-- A call of the iterator for a function that is declared. -/
theorem Respects.gives_declared (hhost : host.Serves) (hB : Known config hollow B)
    (hρ : Respects host config B ρ) {iterable : Code} {f : Function} {Q : Value α → Prop}
    (hiterable : host.Gives (fun _ => True) (iterable.eval host ρ)) (declared : .define f ∈ B)
    (hall : (Code.ref f.name).All (Mention.FoundIn ρ))
    (hresult : ∀ {ρ' : Locals α}, Respects host config B ρ' →
      f.result.All (Mention.FoundIn ρ') → host.Gives Q (f.result.eval host ρ')) :
    host.Gives (fun v => ∃ items, v = .list items ∧ ∀ i ∈ items, Q i)
      ((config.callPrimitive config.primitives.iterator
        [iterable, .ref f.name]).eval host ρ) := by
  have hfresh : Fresh config B f.parameters := by
    cases hB.shaped _ declared with
    | define fresh _ _ => exact fresh
  have hinside := hB.inside f declared
  refine hρ.gives_iterate hhost hB (n := f.parameters.length) hiterable
    ((Host.Gives.ref hall).mono fun v hv => ?_)
  have hclosure : Closure host config B f v := by
    cases hρ with
    | mk _ _ _ _ _ function => exact function f v declared hv
  obtain @⟨_, around, haround, hfound⟩ := hclosure
  refine ⟨_, rfl, fun _ h => Function.length_of_isSome_call h, fun arguments hlength => ?_⟩
  obtain ⟨ρ₀, hentry⟩ : ∃ ρ₀, f.entry around arguments = some ρ₀ :=
    Function.exists_entry hlength.symm
  have hρ₀ := haround.entry hB hfresh hinside hentry
  rw [Function.call_eq, hentry, Option.bind_some]
  refine (hρ₀.gives_runStatements hB hinside (Function.covers_entry hfound hentry)).bind ?_
  rintro ρ₁ ⟨hρ₁, hall₁⟩
  exact hresult hρ₁ hall₁

/-- The attributes of a custom element, with what is passed to its slots. -/
theorem Respects.gives_slotset (hρ : Respects host config B ρ)
    {attributes slots : List (String × Code)} {isBare : Bool}
    (plain : ∀ e ∈ attributes, Plain config e.2)
    (hall : (Code.dict (attributes ++ if isBare then [] else [("slotset", .dict slots)])).All
      (Mention.FoundIn ρ))
    (hslots : ∀ e ∈ slots, e.2.All (Mention.FoundIn ρ) →
      host.Gives (fun _ => True) (e.2.eval host ρ)) :
    host.Gives (fun _ => True) ((Code.dict (attributes ++
      if isBare then [] else [("slotset", .dict slots)])).eval host ρ) := by
  rw [Code.all_dict, List.forall_mem_append] at hall
  refine Host.Gives.dict ?_
  rw [List.forall_mem_append]
  refine ⟨fun e he => (plain e he).gives hρ (hall.1 e he), ?_⟩
  obtain ⟨-, hfilled⟩ := hall
  split
  · simp
  · rename_i hbare
    rw [if_neg hbare, List.forall_mem_singleton] at hfilled
    rw [List.forall_mem_singleton]
    exact Host.Gives.dict fun e he => hslots e he (Code.all_dict.1 hfilled e he)

/-- What a guard gives in the place of its item is no list. -/
theorem Respects.isItem_of_falsy (hρ : Respects host config B ρ) {name : String} {value : Code}
    {v : Value α} (declared : .assign name value ∈ B)
    (hv : ρ.find name = some v) (hfalse : host.truthy v = false) : v.IsItem hollow := by
  cases hρ with
  | mk _ _ _ _ temporary _ =>
    rw [temporary name value v declared hv hfalse]
    exact Value.isItem_of_not_isList rfl

theorem Respects.eval_content (hρ : Respects host config B ρ) (key : String) :
    (Code.call (.refMember config.slotsetParam "get") [.text key]).eval host ρ =
      some (host.content (.constant (.text key))) := by
  cases hρ with
  | mk _ slots _ _ _ _ => simp [Code.refMember, Code.eval, Code.evalList, slots]

/-- Code comes to what its shape says. -/
theorem Shaped.eval (hhost : host.Serves) (hB : Known config hollow B) {shape : Shape} {code : Code}
    (h : Shaped config hollow B shape code) : ∀ {ρ : Locals α}, Respects host config B ρ →
      code.All (Mention.FoundIn ρ) → host.Gives (shape.Admits hollow) (code.eval host ρ) := by
  have hprimitives := hB.primitives
  induction h with
  | text => exact fun _ _ => .some (Value.isItem_of_not_isList rfl)
  | shown plain =>
    intro ρ hρ hall
    have harguments := Code.all_callPrimitive_of_all hall
    refine hρ.gives_maker (by rw [hprimitives]; decide) ?_
    rw [List.forall_mem_singleton]
    exact plain.gives hρ (harguments _ (by simp))
  | empty => exact fun hρ _ => hρ.gives_maker (by rw [hprimitives]; decide) (by simp)
  | element makes plain plainAttributes shaped ih =>
    intro ρ hρ hall
    have harguments := Code.all_callPrimitive_of_all hall
    refine hρ.gives_maker ?_ ?_
    · rcases makes with rfl | rfl <;> (rw [hprimitives]; decide)
    · rw [List.forall_mem_cons, List.forall_mem_cons, List.forall_mem_singleton]
      exact ⟨plain.gives hρ (harguments _ (by simp)),
        (Plain.dict plainAttributes).gives hρ (harguments _ (by simp)),
        (ih hρ (harguments _ (by simp))).mono fun _ _ => trivial⟩
  | custom plain plainAttributes apart shaped ih =>
    intro ρ hρ hall
    have harguments := Code.all_callPrimitive_of_all hall
    refine hρ.gives_maker (by rw [hprimitives]; decide) ?_
    rw [List.forall_mem_cons, List.forall_mem_cons, List.forall_mem_singleton]
    refine ⟨.some trivial, plain.gives hρ (harguments _ (by simp)),
      hρ.gives_slotset plainAttributes (harguments _ (by simp)) fun e he hall => ?_⟩
    exact (ih e he hρ hall).mono fun _ _ => trivial
  | choose plain shaped shapedAlternative ih ih' =>
    intro ρ hρ hall
    obtain ⟨htest, hbody, halternative⟩ := Code.all_conditional.1 hall
    rw [Code.eval]
    refine (plain.gives hρ htest).bind fun v _ => ?_
    split
    · exact ih hρ hbody
    · exact ih' hρ halternative
  | guarded declared shaped ih =>
    intro ρ hρ hall
    obtain ⟨hname, hcode⟩ := Code.all_and.1 hall
    rw [Code.eval]
    refine (Host.Gives.ref hname).bind fun v hv => ?_
    split
    · exact ih hρ hcode
    · rename_i hfalse
      exact .some (Shape.admits_item (hρ.isItem_of_falsy declared hv (by simpa using hfalse)))
  | outlet shaped ih =>
    intro ρ hρ hall
    rw [Code.eval, hρ.eval_content, Option.bind_eq_bind, Option.bind_some]
    split
    · rename_i htrue
      obtain ⟨items, heq, hitems⟩ := hhost.content _ htrue
      refine .some ⟨items, heq, fun i hi => ?_⟩
      exact Value.isItem_of_not_isList (hitems i hi)
    · exact ih hρ (Code.all_or.1 hall).2
  | row shaped ih =>
    intro ρ hρ hall
    rw [Code.all_list] at hall
    rw [Code.eval]
    refine (Host.Gives.evalList fun c hc => ih c hc hρ (hall c hc)).bind fun vs hvs => ?_
    exact .some (Shape.admits_list_iff.2 ⟨vs, rfl, hvs⟩)
  | flattened shaped ih =>
    intro ρ hρ hall
    have harguments := Code.all_callPrimitive_of_all hall
    rw [hρ.eval_callPrimitive, hprimitives]
    simp only [Code.evalList, Option.bind_eq_bind, Option.pure_def, Option.bind_some,
      Option.bind_assoc]
    refine (ih hρ (harguments _ (by simp))).bind fun v hv => ?_
    have hlist := hv
    obtain ⟨items, rfl, -⟩ := hlist
    exact .some (Shape.isFlat_of_admits hv)
  | inline plain fresh shaped ih =>
    intro ρ hρ hall
    have harguments := Code.all_callPrimitive_of_all hall
    exact (hρ.gives_inline hhost hB (plain.gives hρ (harguments _ (by simp))) fresh
      (harguments _ (by simp)) ih).mono fun _ => Shape.admits_list_iff.2
  | declared plain declared shaped ih =>
    intro ρ hρ hall
    have harguments := Code.all_callPrimitive_of_all hall
    exact (hρ.gives_declared hhost hB (plain.gives hρ (harguments _ (by simp))) declared
      (harguments _ (by simp)) ih).mono fun _ => Shape.admits_list_iff.2
  | hollow hh => exact fun _ _ => .some fun _ => ⟨hh, rfl⟩
  | loose _ ih => exact fun hρ hall => (ih hρ hall).mono fun _ => .inl
  | spread _ ih => exact fun hρ hall => (ih hρ hall).mono fun _ => .inr

end TemplateCompiler
