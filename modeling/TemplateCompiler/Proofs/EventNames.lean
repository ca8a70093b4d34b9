import TemplateCompiler.Proofs.Accounting

/-!
# Events among the attributes

An attribute for an event is one entry of the call. What stands behind its first two letters is
sorted like the name of any other attribute: an event lands among the handlers under its own name
if and only if that name is none of the keys at the top, has no mark of a data attribute, and is not
kept from camel case by a colon (`event_handled_iff`).
-/

namespace TemplateCompiler

variable {env : Env} {config : Config} {t : Template} {compiled : Compiled}

/-! ## Names in camel case -/

namespace Text

theorem length_camelList_le_cons (c : Char) (s : List Char) :
    (camelList s).length ≤ (camelList (c :: s)).length := by
  cases s with
  | nil => simp [camelList]
  | cons d rest =>
    rw [camelList]
    split
    · rename_i hdash
      have hd : d ≠ '-' := by
        rintro rfl
        simp [isSmall] at hdash
      rw [camelList_cons hd, List.length_cons, List.length_cons]
    · exact Nat.le_succ _

/-- The mark takes part in no capital but for its dash. -/
theorem length_camelList_drop_lt {s : String} (h : isData s) :
    (camelList (s.toList.drop dataMark.toList.length)).length < (camelList s.toList).length := by
  obtain ⟨rest, hrest⟩ := List.isPrefixOf_iff_prefix.1 h
  rw [← hrest, List.drop_left]
  have hmark : dataMark.toList ++ rest = 'd' :: 'a' :: 't' :: 'a' :: '-' :: rest := rfl
  rw [hmark, camelList_cons (by decide), camelList_cons (by decide), camelList_cons (by decide),
    camelList_cons (by decide)]
  have hle := length_camelList_le_cons '-' rest
  simp only [List.length_cons]
  omega

theorem dataKey_ne_camelCase {s : String} (h : isData s) : dataKey s ≠ camelCase s := by
  intro heq
  have hlt := length_camelList_drop_lt h
  rw [String.ofList_injective heq] at hlt
  exact hlt.false

theorem dataKey_ne {s : String} (h : isData s) : dataKey s ≠ s := by
  intro heq
  have hlt := length_camelList_drop_lt h
  have hlist := congrArg String.toList heq
  rw [dataKey, String.toList_ofList] at hlist
  rw [hlist] at hlt
  exact (length_camelList_le s.toList).not_gt hlt

end Text

/-! ## Attributes for events -/

/-- The name of an attribute for an event: on and the event, alone or after set or bind. -/
structure Tag.Handles (tag : Tag) (directive : Directive) (event : String) : Prop where
  name : tag.name = "on" ++ event
  nonempty : event ≠ ""
  directive : tag.ns ∈ [none, some "", some "bind"] ∧ directive = .bind ∨
    tag.ns = some "set" ∧ directive = .set

theorem Role.eventKey?_on {event : String} (h : event ≠ "") :
    Role.eventKey? ("on" ++ event) = some event := by
  have hlist : event.toList ≠ [] := fun hnil => h (String.toList_eq_nil_iff.1 hnil)
  obtain ⟨c, rest, hcons⟩ := List.exists_cons_of_ne_nil hlist
  have hname : ("on" ++ event).toList = 'o' :: 'n' :: c :: rest := by
    rw [String.toList_append, hcons]
    rfl
  have hevent : String.ofList (c :: rest) = event := by rw [← hcons, String.ofList_toList]
  simp only [Role.eventKey?, hname, hevent]

theorem Modifier.name_of_ofName? {name : String} {m : Modifier}
    (h : Modifier.ofName? name = some m) : m.name = name := by
  unfold Modifier.ofName? at h
  split at h
  case h_7 => simp at h
  all_goals
    obtain rfl := Option.some.inj h
    rfl

/-- No modifier is called on anything. -/
theorem Modifier.ofName?_on (event : String) : Modifier.ofName? ("on" ++ event) = none := by
  -- two letters tell it from each of the modifiers
  have hhead : ("on" ++ event).toList.take 2 = "on".toList := by
    rw [String.toList_append, List.take_append_of_le_length (by decide)]
    rfl
  have hne : ∀ m : Modifier, "on" ++ event ≠ m.name := by
    intro m heq
    rw [heq] at hhead
    cases m <;> exact absurd hhead (by decide)
  rw [Option.eq_none_iff_forall_ne_some]
  exact fun m hm => hne m (Modifier.name_of_ofName? hm).symm

theorem Tag.Handles.ofTag {tag : Tag} {directive : Directive} {event : String}
    (h : tag.Handles directive event) : Role.ofTag tag = .ok (.event directive event) := by
  obtain ⟨hname, hnonempty, hdirective⟩ := h
  have hkey := Role.eventKey?_on hnonempty
  have hdirected : ∀ d, Role.ofDirective d tag.name = .event d event := fun d => by
    rw [Role.ofDirective, hname, Modifier.ofName?_on, hkey]
  rcases hdirective with ⟨hns, rfl⟩ | ⟨hns, rfl⟩
  · simp only [List.mem_cons, List.not_mem_nil, or_false] at hns
    rcases hns with hns | hns | hns
    · simp [Role.ofTag, hns, Text.given, Role.ofBareName, hname, hkey]
    · have hgiven : Text.given tag.ns = none := by
        rw [hns]
        rfl
      simp [Role.ofTag, hgiven, Role.ofBareName, hname, hkey]
    · rw [Role.ofTag_of_directive (by rw [hns]; rfl), hdirected]
  · rw [Role.ofTag_of_directive (by rw [hns]; rfl), hdirected]

/-- An attribute for an event is read as the event, with what the attribute says. -/
theorem Attribute.IsRead.event {a : Attribute} {reading : Reading} {directive : Directive}
    {event : String} (h : a.IsRead config reading) (hhandles : a.tag.Handles directive event) :
    ∃ content, Content.ofAttribute a = .ok content ∧
      reading = .property ⟨event, true, some directive, content⟩ := by
  obtain ⟨role, content, hrole, hcontent, hread⟩ := h
  obtain rfl := Except.ok.inj (hrole.symm.trans hhandles.ofTag)
  cases hread
  exact ⟨content, hcontent, rfl⟩

/-! ## Where an event lands -/

namespace Entry

/-- The name of an event among the handlers: for a component it is in camel case. -/
def handlerKey (isComponent : Bool) (event : String) : String :=
  if isComponent then Text.camelCase event else event

/-- A name of an event that nothing takes for the name of another attribute. -/
structure KeepsName (isComponent : Bool) (event : String) : Prop where
  top : event ∉ topKeys
  data : Text.isData event = false
  colon : isComponent → Text.isNamespaced event → Text.camelCase event = event

theorem groupKey_eq_handlerKey_iff {isComponent : Bool} {event : String} :
    groupKey isComponent event = handlerKey isComponent event ↔ Text.isData event = false ∧
      (isComponent → Text.isNamespaced event → Text.camelCase event = event) := by
  unfold groupKey handlerKey
  rcases hdata : Text.isData event with _ | _
  · cases isComponent with
    | false => simp
    | true => cases hcolon : Text.isNamespaced event <;> simp [eq_comm]
  · cases isComponent with
    | false => simp [Text.dataKey_ne hdata]
    | true => simp [Text.dataKey_ne_camelCase hdata]

/-- An event is the entry of its own name among the handlers exactly if its name is kept. -/
theorem ofProperty_eq_iff {isComponent : Bool} {p : Property} (hevent : p.isEvent) (value : Code) :
    ofProperty isComponent p value = ⟨some .on, handlerKey isComponent p.key, value⟩ ↔
      KeepsName isComponent p.key := by
  have hgroup : groupOf isComponent p = .on := by simp [groupOf, hevent]
  unfold ofProperty
  split
  · rename_i htop
    refine ⟨fun h => ?_, fun h => ?_⟩
    · simp at h
    · exact absurd (List.contains_iff_mem.1 htop) h.top
  · rename_i htop
    rw [hgroup, Entry.mk.injEq]
    refine ⟨fun ⟨_, hkey, _⟩ => ?_, fun h => ⟨rfl, ?_, rfl⟩⟩
    · obtain ⟨hdata, hcolon⟩ := groupKey_eq_handlerKey_iff.1 hkey
      exact ⟨fun hmem => htop (List.contains_iff_mem.2 hmem), hdata, hcolon⟩
    · exact groupKey_eq_handlerKey_iff.2 ⟨h.data, h.colon⟩

/-- One of the entries is in its own group and in no other. -/
theorem inGroup_around {α : Type} (front back : List (Entry α)) (e : Entry α)
    (group : Option Group) : inGroup (front ++ e :: back) group =
      inGroup front group ++ (if e.group = group then [(e.key, e.value)] else []) ++
        inGroup back group := by
  by_cases h : e.group = group <;> simp [inGroup, h]

end Entry

/-- What attributes are read as, and the entries that their properties are passed as. -/
def Attribute.ComeTo (env : Env) (t : Template) (s : Site) (isComponent : Bool)
    (attributes : List Attribute) (entries : List (Entry Code)) : Prop :=
  ∃ readings, List.Forall₂ (Attribute.IsRead env.config) attributes readings ∧
    List.Forall₂ (Property.IsEntry env t s isComponent) (readings.filterMap Reading.property?)
      entries

namespace ElementCode

/-- Whether a component is called. -/
def isComponent (tag : Tag) (x : ElementCode) : Bool :=
  (elementKind tag x.readings).isComponent

/-- The code of an element around one of the attributes, which is a property: its entry stands
between those of the attributes before it and those of the attributes behind it. -/
structure IsAround (env : Env) (t : Template) (m : Module) (place : Place) (tag : Tag)
    (before : List Attribute) (a : Attribute) (after : List Attribute) (x : ElementCode)
    (front back : List (Entry Code)) (p : Property) (value : Code) : Prop where
  code : x.IsCodeOf env t m place tag (before ++ a :: after)
  content : Content.ofAttribute a = .ok p.content
  passes : p.Passes env t ⟨place, false⟩ value
  entries : x.entries = front ++ .ofProperty (x.isComponent tag) p value :: back
  comes_front : Attribute.ComeTo env t ⟨place, false⟩ (x.isComponent tag) before front
  comes_back : Attribute.ComeTo env t ⟨place, false⟩ (x.isComponent tag) after back

/-- A value stands under its key among the handlers that an element is called with, behind those of
the entries in front of it, and it makes no difference to any other group, nor to the top. -/
structure Handles (x : ElementCode) (front back : List (Entry Code)) (key : String)
    (value : Code) : Prop where
  group : (Group.on.key, .dict (Entry.inGroup x.entries (some .on))) ∈ x.attributes
  entry : Entry.inGroup x.entries (some .on) =
    Entry.inGroup front (some .on) ++ (key, value) :: Entry.inGroup back (some .on)
  alone : ∀ group, group ≠ some .on →
    Entry.inGroup x.entries group = Entry.inGroup (front ++ back) group

variable {m : Module} {place : Place} {tag : Tag} {before after : List Attribute} {a : Attribute}
  {x : ElementCode} {front back : List (Entry Code)} {p : Property} {value : Code}

/-- An attribute for an event has its entry between those of the others. -/
theorem IsCodeOf.exists_around {directive : Directive} {event : String}
    (h : x.IsCodeOf env t m place tag (before ++ a :: after))
    (hhandles : a.tag.Handles directive event) : ∃ front back content value,
      x.IsAround env t m place tag before a after front back
        ⟨event, true, some directive, content⟩ value := by
  obtain ⟨first, _, hsplit, hbefore, hbehind⟩ := forall₂_append_left h.reads
  obtain _ | ⟨hread, hafter⟩ := hbehind
  obtain ⟨content, hcontent, rfl⟩ := hread.event hhandles
  have hentries : List.Forall₂ (Property.IsEntry env t ⟨place, false⟩ (x.isComponent tag)) _ _ :=
    h.entries
  have hproperties := congrArg (List.filterMap Reading.property?) hsplit
  rw [hproperties, List.filterMap_append] at hentries
  obtain ⟨front, _, hx, hfront, hbehind⟩ := forall₂_append_left hentries
  obtain _ | ⟨⟨⟨value, hpasses, rfl⟩, -⟩, hback⟩ := hbehind
  exact ⟨front, _, content, value, h, hcontent, hpasses, hx, ⟨first, hbefore, hfront⟩,
    ⟨_, hafter, hback⟩⟩

/-- The handlers have one entry more than without an event exactly if its entry is one of them. -/
theorem IsAround.handles_iff
    (h : x.IsAround env t m place tag before a after front back p value)
    (hgroups : x.groups = Entry.groups x.entries) (key : String) :
    x.Handles front back key value ↔
      Entry.ofProperty (x.isComponent tag) p value = ⟨some .on, key, value⟩ := by
  have hentries := h.entries
  generalize Entry.ofProperty (x.isComponent tag) p value = e at hentries
  have haround := fun group => hentries ▸ Entry.inGroup_around front back e group
  refine ⟨fun hhandles => ?_, ?_⟩
  · have hon := (haround (some .on)).symm.trans hhandles.entry
    rw [List.append_assoc, List.append_cancel_left_eq] at hon
    -- the handlers are longer by one, and what is not among them does not make them longer
    have hgroup : e.group = some .on := by
      by_contra hne
      rw [if_neg hne] at hon
      simpa using congrArg List.length hon
    rw [if_pos hgroup, List.singleton_append, List.cons.injEq, Prod.mk.injEq] at hon
    obtain ⟨⟨rfl, rfl⟩, -⟩ := hon
    rw [← hgroup]
  · rintro rfl
    refine ⟨?_, by simpa using haround (some .on), fun group hgroup => ?_⟩
    · have hused : .on ∈ x.groups := by
        rw [hgroups, hentries, Entry.groups, List.mem_eraseDups, List.mem_filterMap]
        exact ⟨_, List.mem_append_right _ List.mem_cons_self, rfl⟩
      rw [h.code.gathers.gathered]
      exact List.mem_append_right _ (List.mem_map.2 ⟨.on, hused, rfl⟩)
    · rw [haround group, if_neg hgroup.symm]
      simp [Entry.inGroup]

end ElementCode

/-- An event of an element that is called stands among the handlers under its own name, and nowhere
else, exactly if the name is not taken for that of another attribute. -/
theorem event_handled_iff (h : (compile env t).1 = .ok compiled) {place : Place} {pos : Position}
    {tag : Tag} {children : List Node} {before after : List Attribute} {a : Attribute}
    (helement : t.elementAt? place =
      some (.element pos tag (before ++ a :: after) children))
    (htemplate : tag ≠ ⟨none, "template"⟩) (hslot : tag ≠ ⟨none, "slot"⟩) {directive : Directive}
    {event : String} (hhandles : a.tag.Handles directive event) :
    ∃ (x : ElementCode) (front back : List (Entry Code)) (content : Content) (value : Code),
      x.IsAround env t compiled.module place tag before a after front back
        ⟨event, true, some directive, content⟩ value ∧
      (x.Handles front back (Entry.handlerKey (x.isComponent tag) event) value ↔
        Entry.KeepsName (x.isComponent tag) event) := by
  obtain ⟨K, root, ds, n, hc⟩ := compiles_of_ok h
  obtain ⟨x, hx, hgroups⟩ := hc.exists_isCodeOf helement htemplate hslot
  obtain ⟨front, back, content, value, haround⟩ := hx.exists_around hhandles
  refine ⟨x, front, back, content, value, haround, ?_⟩
  rw [haround.handles_iff hgroups]
  exact Entry.ofProperty_eq_iff rfl value

/-- A component with an event between other attributes. -/
def menuTemplate : Template :=
  .ofRoot [.plain "x-menu" [.named "title" "Menu", .text "set" "onitem-pick" "pick",
    .named "onclose" "hide"] []]

theorem event_handled_iff_component :
    ∃ compiled, (compile .default menuTemplate).1 = .ok compiled ∧
      ∃ before a after x front back content value, a.tag.Handles .set "item-pick" ∧
        ElementCode.IsAround .default menuTemplate compiled.module [0] ⟨none, "x-menu"⟩ before a
          after x front back ⟨"item-pick", true, some .set, content⟩ value ∧
        x.Handles front back (Entry.handlerKey (x.isComponent ⟨none, "x-menu"⟩) "item-pick")
          value := by
  have hok : (compile .default menuTemplate).1.toOption.map (fun _ => ()) = some () := by
    decide +kernel
  obtain ⟨compiled, hc, -⟩ := exists_ok_of_map hok
  have helement : menuTemplate.elementAt? [0] = some (.element ⟨none, none⟩ ⟨none, "x-menu"⟩
      ([.named "title" "Menu"] ++ .text "set" "onitem-pick" "pick" :: [.named "onclose" "hide"])
      []) := rfl
  have hhandles : Tag.Handles ⟨some "set", "onitem-pick"⟩ .set "item-pick" :=
    ⟨rfl, by decide, .inr ⟨rfl, rfl⟩⟩
  have hkeeps : ∀ isComponent, Entry.KeepsName isComponent "item-pick" := fun _ =>
    ⟨by decide, by decide, fun _ hcolon => absurd hcolon (by decide)⟩
  obtain ⟨x, front, back, content, value, haround, hiff⟩ :=
    event_handled_iff hc helement (by decide) (by decide) hhandles
  exact ⟨compiled, hc, _, _, _, x, front, back, content, value, hhandles, haround,
    hiff.2 (hkeeps _)⟩

def Code.keys? : Code → Option (List String)
  | .dict entries => some (entries.map Prod.fst)
  | _ => none

/-- Events called like a key at the top, like a data attribute, and with a colon on a component. -/
def misnamedTemplate : Template :=
  .ofRoot [.plain "button" [.named "onclass" "pick", .named "ondata-id" "drop"] [],
    .plain "x-menu" [.text "bind" "onsort:by-name" "sort"] []]

/-- The first event is at the top and not among the handlers, the second is there as id, and the
third, on a component, with its dashes. -/
theorem event_is_misnamed :
    ∃ compiled, (compile .default misnamedTemplate).1 = .ok compiled ∧
      (∃ first second third children posn,
        misnamedTemplate.elementAt? [0] =
          some (.element posn ⟨none, "button"⟩ [first, second] children) ∧
        misnamedTemplate.elementAt? [1] =
          some (.element posn ⟨none, "x-menu"⟩ [third] children) ∧
        first.tag.Handles .bind "class" ∧ second.tag.Handles .bind "data-id" ∧
        third.tag.Handles .bind "sort:by-name") ∧
      Text.camelCase "sort:by-name" = "sort:byName" ∧
      compiled.module.function.subterms.filterMap Code.keys? =
        [["class", "on"], ["id"], ["on"], ["sort:by-name"]] := by
  have hkeys : (compile .default misnamedTemplate).1.toOption.map
      (fun c => c.module.function.subterms.filterMap Code.keys?) =
        some [["class", "on"], ["id"], ["on"], ["sort:by-name"]] := by
    decide +kernel
  obtain ⟨compiled, hc, hk⟩ := exists_ok_of_map hkeys
  refine ⟨compiled, hc, ⟨_, _, _, _, _, rfl, rfl, ?_, ?_, ?_⟩, by decide, hk⟩
  · exact ⟨rfl, by decide, .inl ⟨by decide, rfl⟩⟩
  · exact ⟨rfl, by decide, .inl ⟨by decide, rfl⟩⟩
  · exact ⟨rfl, by decide, .inl ⟨by decide, rfl⟩⟩

end TemplateCompiler
