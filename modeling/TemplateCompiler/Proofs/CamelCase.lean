import Mathlib.Data.List.Chain
import Mathlib.Data.Set.Function
import TemplateCompiler.Attribute.Entry

/-!
# Camel case

A text is in camel case if no dash in it stands before a small letter: that is what camel case makes
of any text (`isCamel_camelList`), and what it leaves as it is (`camelList_of_isCamel`). Kebab case,
where a dash and its small letter stand for each capital, undoes it on texts without capitals
(`kebabList_camelList`), and is undone by it on texts in camel case (`camelList_kebabList`). So no
two names without capitals come to one key, in the dataset or among the properties of a component
(`camelCase_inverts_kebabCase`).
-/

namespace TemplateCompiler

namespace Text

def isCapital (c : Char) : Bool :=
  'A' ≤ c && c ≤ 'Z'

/-- A capital is written as a dash and its small letter, and all else as it is. -/
def kebabList (s : List Char) : List Char :=
  s.flatMap fun c => if isCapital c then ['-', c.toLower] else [c]

def kebabCase (s : String) : String :=
  String.ofList (kebabList s.toList)

/-- No dash stands before a small letter. -/
def IsCamel (s : List Char) : Prop :=
  s.IsChain fun c d => c = '-' → isSmall d = false

instance (s : List Char) : Decidable (IsCamel s) :=
  inferInstanceAs (Decidable (s.IsChain fun c d => c = '-' → isSmall d = false))

def NoCapitals (s : List Char) : Prop :=
  ∀ c ∈ s, isCapital c = false

/-! ## Letters -/

theorem toNat_mem_range' {first last c : Char} (h : (first ≤ c && c ≤ last) = true) :
    c.toNat ∈ List.range' first.toNat (last.toNat + 1 - first.toNat) := by
  simp only [Bool.and_eq_true, decide_eq_true_eq, Char.le_def, UInt32.le_iff_toNat_le] at h
  have hfirst : first.toNat ≤ c.toNat := h.1
  have hlast : c.toNat ≤ last.toNat := h.2
  exact List.mem_range'_1.2 ⟨hfirst, by omega⟩

/-- What holds of all codes in a range holds of its characters. -/
@[elab_as_elim]
theorem of_codes {motive : Char → Prop} {first last : Char} (c : Char)
    (h : (first ≤ c && c ≤ last) = true)
    (hcodes : ∀ n ∈ List.range' first.toNat (last.toNat + 1 - first.toNat),
      motive (Char.ofNat n)) : motive c := by
  have hc : motive (Char.ofNat c.toNat) := hcodes _ (toNat_mem_range' h)
  rwa [Char.ofNat_toNat] at hc

theorem toUpper_of_isSmall {c : Char} (h : isSmall c) :
    isCapital c.toUpper ∧ c.toUpper.toLower = c :=
  of_codes c h (by decide)

theorem toLower_of_isCapital {c : Char} (h : isCapital c) :
    isSmall c.toLower ∧ isCapital c.toLower = false ∧ c.toLower.toUpper = c :=
  of_codes c h (by decide)

theorem isSmall_of_isCapital {c : Char} (h : isCapital c) : isSmall c = false :=
  of_codes c h (by decide)

theorem not_isCapital_dash : isCapital '-' = false := by decide

/-! ## Texts in camel case -/

variable {s : List Char}

theorem camelList_dash {d : Char} (h : isSmall d) (rest : List Char) :
    camelList ('-' :: d :: rest) = d.toUpper :: camelList rest := by
  rw [camelList, if_pos (by simp [h])]

theorem camelList_cons_of_head? {c : Char} (h : ∀ d ∈ s.head?, c = '-' → isSmall d = false) :
    camelList (c :: s) = c :: camelList s := by
  rcases s with _ | ⟨d, rest⟩
  · rfl
  · have hnot : ¬ (decide (c = '-') && isSmall d) = true := fun hc => by
      rw [Bool.and_eq_true, decide_eq_true_eq] at hc
      simp [h d rfl hc.1] at hc
    rw [camelList, if_neg hnot]

theorem camelList_of_isCamel (h : IsCamel s) : camelList s = s := by
  induction s with
  | nil => rfl
  | cons c rest ih =>
    rw [IsCamel, List.isChain_cons] at h
    rw [camelList_cons_of_head? h.1, ih h.2]

/-- What camel case puts in front is what stood there, or a capital. -/
theorem head?_camelList {c x : Char} (h : x ∈ (camelList (c :: s)).head?) :
    x = c ∨ isCapital x := by
  rcases s with _ | ⟨d, rest⟩
  · exact .inl (Option.some.inj h).symm
  · rw [camelList] at h
    split at h
    · rename_i hdash
      rw [Bool.and_eq_true] at hdash
      obtain rfl := Option.some.inj h
      exact .inr (toUpper_of_isSmall hdash.2).1
    · exact .inl (Option.some.inj h).symm

theorem isCamel_camelList (s : List Char) : IsCamel (camelList s) := by
  unfold IsCamel
  fun_induction camelList s with
  | case1 => exact .nil
  | case2 c => exact .singleton c
  | case3 c d rest hdash ih =>
    rw [Bool.and_eq_true] at hdash
    refine List.isChain_cons.2 ⟨fun _ _ hd => ?_, ih⟩
    have hcapital := (toUpper_of_isSmall hdash.2).1
    rw [hd, not_isCapital_dash] at hcapital
    exact absurd hcapital Bool.false_ne_true
  | case4 c d rest hdash ih =>
    refine List.isChain_cons.2 ⟨fun x hx hc => ?_, ih⟩
    rcases head?_camelList hx with rfl | hcapital
    · simpa [hc] using hdash
    · exact isSmall_of_isCapital hcapital

/-! ## Kebab case -/

theorem kebabList_cons (c : Char) (s : List Char) :
    kebabList (c :: s) = (if isCapital c then ['-', c.toLower] else [c]) ++ kebabList s := rfl

theorem kebabList_capital {c : Char} (h : isCapital c) (s : List Char) :
    kebabList (c :: s) = '-' :: c.toLower :: kebabList s := by
  rw [kebabList_cons, if_pos h]
  rfl

theorem kebabList_plain {c : Char} (h : isCapital c = false) (s : List Char) :
    kebabList (c :: s) = c :: kebabList s := by
  rw [kebabList_cons, if_neg (by simp [h])]
  rfl

theorem noCapitals_kebabList (s : List Char) : NoCapitals (kebabList s) := by
  intro c hc
  obtain ⟨d, -, hd⟩ := List.mem_flatMap.1 hc
  split at hd
  · rename_i hcapital
    simp only [List.mem_cons, List.not_mem_nil, or_false] at hd
    rcases hd with rfl | rfl
    · exact not_isCapital_dash
    · exact (toLower_of_isCapital hcapital).2.1
  · rename_i hcapital
    obtain rfl := List.mem_singleton.1 hd
    exact Bool.eq_false_iff.2 hcapital

/-- What kebab case puts in front is what stood there, or a dash. -/
theorem head?_kebabList {x : Char} (h : x ∈ (kebabList s).head?) : x ∈ s.head? ∨ x = '-' := by
  rcases s with _ | ⟨c, rest⟩
  · simp [kebabList] at h
  · cases hc : isCapital c
    · rw [kebabList_plain hc] at h
      exact .inl h
    · rw [kebabList_capital hc] at h
      exact .inr (Option.some.inj h).symm

theorem camelList_kebabList (h : IsCamel s) : camelList (kebabList s) = s := by
  induction s with
  | nil => rfl
  | cons c rest ih =>
    rw [IsCamel, List.isChain_cons] at h
    cases hc : isCapital c
    · have hhead : ∀ d ∈ (kebabList rest).head?, c = '-' → isSmall d = false := by
        intro d hd hdash
        rcases head?_kebabList hd with hd | rfl
        · exact h.1 d hd hdash
        · decide
      rw [kebabList_plain hc, camelList_cons_of_head? hhead, ih h.2]
    · have hlower := toLower_of_isCapital hc
      rw [kebabList_capital hc, camelList_dash hlower.1, hlower.2.2, ih h.2]

theorem kebabList_camelList (h : NoCapitals s) : kebabList (camelList s) = s := by
  unfold NoCapitals at h
  fun_induction camelList s with
  | case1 => rfl
  | case2 c => rw [kebabList_plain (h c List.mem_cons_self)]; rfl
  | case3 c d rest hdash ih =>
    rw [Bool.and_eq_true, decide_eq_true_eq] at hdash
    have hrest : NoCapitals rest := fun x hx =>
      h x (List.mem_cons_of_mem c (List.mem_cons_of_mem d hx))
    have hupper := toUpper_of_isSmall hdash.2
    rw [kebabList_capital hupper.1, hupper.2, ih hrest, hdash.1]
  | case4 c d rest hdash ih =>
    rw [List.forall_mem_cons] at h
    rw [kebabList_plain h.1, ih h.2]

/-! ## Names in camel case -/

theorem mem_camelList {c : Char} (h : c ∈ camelList s) : c ∈ s ∨ isCapital c := by
  fun_induction camelList s with
  | case1 => exact .inl h
  | case2 => exact .inl h
  | case3 c' d rest hdash ih =>
    rw [Bool.and_eq_true] at hdash
    rcases List.mem_cons.1 h with rfl | h
    · exact .inr (toUpper_of_isSmall hdash.2).1
    · exact (ih h).imp_left fun h => List.mem_cons_of_mem _ (List.mem_cons_of_mem _ h)
  | case4 c' d rest hdash ih =>
    rcases List.mem_cons.1 h with rfl | h
    · exact .inl List.mem_cons_self
    · exact (ih h).imp_left (List.mem_cons_of_mem _)

theorem isNamespaced_camelCase (s : String) : isNamespaced (camelCase s) → isNamespaced s := by
  intro h
  rw [isNamespaced, camelCase, String.toList_ofList, List.contains_iff_mem] at h
  rw [isNamespaced, List.contains_iff_mem]
  exact (mem_camelList h).resolve_right (by decide)

theorem kebabCase_camelCase {s : String} (h : NoCapitals s.toList) :
    kebabCase (camelCase s) = s := by
  rw [kebabCase, camelCase, String.toList_ofList, kebabList_camelList h, String.ofList_toList]

theorem camelCase_injOn : Set.InjOn camelCase {s | NoCapitals s.toList} :=
  Set.LeftInvOn.injOn fun _ => kebabCase_camelCase

theorem dataKey_append (s : String) : dataKey (dataMark ++ s) = camelCase s := by
  rw [dataKey, camelCase, String.toList_append, List.drop_left]

theorem exists_eq_append_of_isData {s : String} (h : isData s) :
    ∃ rest : String, s = dataMark ++ rest := by
  obtain ⟨rest, hrest⟩ := List.isPrefixOf_iff_prefix.1 h
  exact ⟨String.ofList rest, by rw [← String.toList_inj, String.toList_append,
    String.toList_ofList, hrest]⟩

theorem dataKey_injOn : Set.InjOn dataKey {s | isData s ∧ NoCapitals s.toList} := by
  rintro s ⟨hs, hplain⟩ t ⟨ht, hplain'⟩ heq
  obtain ⟨rest, rfl⟩ := exists_eq_append_of_isData hs
  obtain ⟨rest', rfl⟩ := exists_eq_append_of_isData ht
  rw [dataKey_append, dataKey_append] at heq
  rw [String.toList_append] at hplain hplain'
  rw [camelCase_injOn (fun c hc => hplain c (List.mem_append_right _ hc))
    (fun c hc => hplain' c (List.mem_append_right _ hc)) heq]

end Text

/-! ## Keys of the attributes -/

namespace Entry

variable {isComponent : Bool} {key key' : String} {p p' : Property} {value value' : Code}

/-- A name with a colon is kept and camel case makes no colon, so neither meets the other. -/
theorem eq_of_groupKey (hplain : Text.NoCapitals key.toList) (hplain' : Text.NoCapitals key'.toList)
    (hdata : Text.isData key = Text.isData key')
    (heq : groupKey isComponent key = groupKey isComponent key') : key = key' := by
  unfold groupKey at heq
  rw [← hdata] at heq
  cases hd : Text.isData key
  · simp only [hd, Bool.false_eq_true, if_false, Bool.and_eq_true, Bool.not_eq_true'] at heq
    split at heq <;> split at heq
    · exact Text.camelCase_injOn hplain hplain' heq
    · rename_i hn hn'
      have hcolon : Text.isNamespaced key' := by simpa [hn.1] using hn'
      rw [← heq] at hcolon
      simp [Text.isNamespaced_camelCase key hcolon] at hn
    · rename_i hn hn'
      have hcolon : Text.isNamespaced key := by simpa [hn'.1] using hn
      rw [heq] at hcolon
      simp [Text.isNamespaced_camelCase key' hcolon] at hn'
    · exact heq
  · rw [if_pos hd, if_pos hd] at heq
    exact Text.dataKey_injOn ⟨hd, hplain⟩ ⟨hdata ▸ hd, hplain'⟩ heq

theorem ofProperty_of_group {group : Group}
    (h : (ofProperty isComponent p value).group = some group) :
    groupOf isComponent p = group ∧
      (ofProperty isComponent p value).key = groupKey isComponent p.key := by
  unfold ofProperty at h ⊢
  split at h
  · simp at h
  · rename_i htop
    rw [if_neg htop]
    exact ⟨Option.some.inj h, rfl⟩

theorem isData_of_groupOf (h : groupOf isComponent p ≠ .on) :
    Text.isData p.key = decide (groupOf isComponent p = .dataset) := by
  unfold groupOf at h ⊢
  split at h
  · exact absurd rfl h
  · rename_i hevent
    rw [if_neg hevent]
    cases Text.isData p.key <;> cases isComponent <;> rfl

/-- Two entries under one key of one group, the handlers apart. -/
def Meets {α : Type} (e e' : Entry α) : Prop :=
  ∃ group, group ≠ .on ∧ e.group = some group ∧ e'.group = some group ∧ e.key = e'.key

theorem eq_of_meets (hplain : Text.NoCapitals p.key.toList)
    (hplain' : Text.NoCapitals p'.key.toList)
    (h : (ofProperty isComponent p value).Meets (ofProperty isComponent p' value')) :
    p.key = p'.key := by
  obtain ⟨group, hne, hgroup, hgroup', hkey⟩ := h
  obtain ⟨rfl, hp⟩ := ofProperty_of_group hgroup
  obtain ⟨hsame, hp'⟩ := ofProperty_of_group hgroup'
  have hdata : Text.isData p.key = Text.isData p'.key := by
    rw [isData_of_groupOf hne, isData_of_groupOf (hsame ▸ hne), hsame]
  exact eq_of_groupKey hplain hplain' hdata (by rw [← hp, hkey, hp'])

end Entry

/-- Camel case and kebab case are inverse to each other, each on what the other makes; so camel
case, which a second time changes nothing, tells names without capitals apart, and so do the keys
that such names have in the dataset and among the properties of a component. -/
theorem Text.camelCase_inverts_kebabCase :
    (∀ k : String, dataKey (dataMark ++ kebabCase k) = k ↔ IsCamel k.toList) ∧
    (∀ n : String, kebabCase (camelCase n) = n ↔ NoCapitals n.toList) ∧
    Set.InjOn camelCase {n | NoCapitals n.toList} ∧
    (∀ (isComponent : Bool) (p p' : Property) (value value' : Code),
      NoCapitals p.key.toList → NoCapitals p'.key.toList →
      (Entry.ofProperty isComponent p value).Meets (.ofProperty isComponent p' value') →
      p.key = p'.key) ∧
    ∀ s : String, camelCase (camelCase s) = camelCase s := by
  refine ⟨fun k => ⟨fun h => ?_, fun h => ?_⟩, fun n => ⟨fun h => ?_, kebabCase_camelCase⟩,
    camelCase_injOn, fun _ _ _ _ _ => Entry.eq_of_meets, fun s => ?_⟩
  · rw [← h, dataKey_append, camelCase, String.toList_ofList]
    exact isCamel_camelList _
  · rw [dataKey_append, camelCase, kebabCase, String.toList_ofList, camelList_kebabList h,
      String.ofList_toList]
  · rw [← h, kebabCase, String.toList_ofList]
    exact noCapitals_kebabList _
  · rw [camelCase, camelCase, String.toList_ofList,
      camelList_of_isCamel (isCamel_camelList s.toList)]

end TemplateCompiler
