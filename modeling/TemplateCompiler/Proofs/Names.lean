import Mathlib.Data.List.Nodup
import Mathlib.Tactic.Push
import TemplateCompiler.Context

/-!
# Generated names

Numbered names differ if their stems or their numbers do (`numberedName_inj`,
`numberedName_ne`). An alias begins with a low line, has no numbered form and is not taken yet
(`freshAlias_free`): of the candidates only the plain one can have a numbered form, and there is one
more of the others than there are taken names.
-/

namespace TemplateCompiler

namespace CompileM

theorem toList_numberedName (stem : String) (n : Nat) :
    (numberedName stem n).toList = '_' :: (stem.toList ++ Nat.toDigits 10 n) := by
  simp [numberedName, toString]

theorem toDigits_inj {m n : Nat} (h : Nat.toDigits 10 m = Nat.toDigits 10 n) : m = n := by
  have := congrArg (fun digits => Nat.ofDigitChars 10 digits 0) h
  simpa using this

theorem numberedName_inj {stem : String} {m n : Nat}
    (h : numberedName stem m = numberedName stem n) : m = n := by
  rw [← String.toList_inj, toList_numberedName, toList_numberedName] at h
  simp only [List.cons.injEq, true_and, List.append_cancel_left_eq] at h
  exact toDigits_inj h

theorem numberedName_ne (m n : Nat) : numberedName "expr" m ≠ numberedName "loop" n := by
  intro h
  rw [← String.toList_inj, toList_numberedName, toList_numberedName] at h
  simp at h

end CompileM

namespace Component

theorem isDigit_of_mem_toDigits {n : Nat} {c : Char} (h : c ∈ Nat.toDigits 10 n) :
    Identifier.isDigit c :=
  Identifier.isDigit_of_isDigit (Nat.isDigit_of_mem_toDigits (by decide) (by decide) h)

theorem isNumbered_numberedName {stem : String} (h : stem = "expr" ∨ stem = "loop") (n : Nat) :
    isNumbered (CompileM.numberedName stem n) := by
  have hdigits : ∀ c ∈ Nat.toDigits 10 n, Identifier.isDigit c :=
    fun c hc => isDigit_of_mem_toDigits hc
  have hlen : 0 < (Nat.toDigits 10 n).length := List.length_pos_of_ne_nil Nat.toDigits_ne_nil
  have hexpr : "_expr".length = 5 := by decide
  have hloop : "_loop".length = 5 := by decide
  rcases h with rfl | rfl <;>
    simpa [isNumbered, CompileM.toList_numberedName, List.isPrefixOf, hexpr, hloop, hlen]
      using hdigits

theorem toList_plainAlias (path : String) :
    ∃ rest, (plainAlias path).toList = '_' :: rest := by
  simp [plainAlias, String.toList_append]

theorem toList_candidate (base : String) {n : Nat} (h : n ≠ 0) :
    (candidate base n).toList = base.toList ++ '_' :: Nat.toDigits 10 n := by
  simp [candidate, h, toString]

theorem candidate_inj {base : String} {m n : Nat} (hm : m ≠ 0) (hn : n ≠ 0)
    (h : candidate base m = candidate base n) : m = n := by
  rw [← String.toList_inj, toList_candidate base hm, toList_candidate base hn] at h
  simp only [List.append_cancel_left_eq, List.cons.injEq, true_and] at h
  exact CompileM.toDigits_inj h

/-- A name of numbered form has no low line but its first. -/
theorem notMem_of_isNumbered {c : Char} {rest : List Char} {name : String} (h : isNumbered name)
    (hname : name.toList = c :: rest) : '_' ∉ rest := by
  simp only [isNumbered, List.any_cons, List.any_nil, Bool.or_false, Bool.or_eq_true,
    Bool.and_eq_true, List.all_eq_true] at h
  intro hmem
  have key : ∀ stem : List Char, '_' ∉ stem → ('_' :: stem).isPrefixOf name.toList →
      (∀ x ∈ name.toList.drop ('_' :: stem).length, Identifier.isDigit x) → False := by
    intro stem hstem hpre hdigits
    obtain ⟨tail, ht⟩ := List.isPrefixOf_iff_prefix.1 hpre
    rw [hname] at ht hdigits
    obtain ⟨rfl, rfl⟩ : '_' = c ∧ stem ++ tail = rest := by simpa using ht
    rcases List.mem_append.1 hmem with h' | h'
    · exact hstem h'
    · have := hdigits '_' (by simpa using h')
      revert this
      decide
  rcases h with ⟨hp, -, hd⟩ | ⟨hp, -, hd⟩
  · exact key ['e', 'x', 'p', 'r'] (by decide) hp hd
  · exact key ['l', 'o', 'o', 'p'] (by decide) hp hd

theorem not_isNumbered_candidate {base : String} {n : Nat} (h : n ≠ 0)
    (hbase : base.toList ≠ []) : ¬ isNumbered (candidate base n) := by
  intro hn
  obtain ⟨c, rest, hc⟩ := List.exists_cons_of_ne_nil hbase
  have hlist : (candidate base n).toList = c :: (rest ++ '_' :: Nat.toDigits 10 n) := by
    rw [toList_candidate base h, hc, List.cons_append]
  exact notMem_of_isNumbered hn hlist (by simp)

theorem exists_free_candidate (taken : List String) {base : String} (hbase : base.toList ≠ []) :
    ∃ n < taken.length + 2, isFree taken (candidate base n) := by
  by_contra hnone
  push Not at hnone
  have hmem : ∀ n ∈ List.range' 1 (taken.length + 1), candidate base n ∈ taken := by
    intro n hn
    rw [List.mem_range'_1] at hn
    have hn0 : n ≠ 0 := by omega
    have := hnone n (by omega)
    simpa [isFree, not_isNumbered_candidate hn0 hbase] using this
  have hnodup : ((List.range' 1 (taken.length + 1)).map (candidate base)).Nodup := by
    rw [List.nodup_map_iff_inj_on List.nodup_range']
    intro m hm n hn h
    rw [List.mem_range'_1] at hm hn
    exact candidate_inj (by omega) (by omega) h
  have hsub : (List.range' 1 (taken.length + 1)).map (candidate base) ⊆ taken := by
    intro name hname
    obtain ⟨n, hn, rfl⟩ := List.mem_map.1 hname
    exact hmem n hn
  have hlen := hnodup.length_le_of_subset hsub
  simp only [List.length_map, List.length_range'] at hlen
  omega

/-- The alias that is chosen is the first free candidate. -/
theorem freshAlias_first (taken : List String) {base : String} (hbase : base.toList ≠ []) :
    ∃ n < taken.length + 2, freshAlias taken base = candidate base n ∧
      isFree taken (freshAlias taken base) ∧ ∀ m < n, ¬ isFree taken (candidate base m) := by
  obtain ⟨n, hn, hfree⟩ := exists_free_candidate taken hbase
  unfold freshAlias
  rcases hf : ((List.range (taken.length + 2)).map (candidate base)).find? (isFree taken) with
    _ | name
  · rw [List.find?_eq_none] at hf
    exact absurd hfree (hf _ (List.mem_map.2 ⟨n, List.mem_range.2 hn, rfl⟩))
  · obtain ⟨hname, m, hm, heq, hfirst⟩ := List.find?_eq_some_iff_getElem.1 hf
    simp only [List.getElem_map, List.getElem_range, Bool.not_eq_true'] at heq hfirst
    refine ⟨m, by simpa using hm, heq.symm, hname, fun k hk => ?_⟩
    simp [hfirst k hk]

/-- The alias that is chosen is free and is a candidate. -/
theorem freshAlias_free (taken : List String) (base : String) (hbase : base.toList ≠ []) :
    isFree taken (freshAlias taken base) ∧ ∃ n, freshAlias taken base = candidate base n := by
  obtain ⟨n, -, heq, hfree, -⟩ := freshAlias_first taken hbase
  exact ⟨hfree, n, heq⟩

theorem toList_freshAlias (taken : List String) (path : String) :
    ∃ rest, (freshAlias taken (plainAlias path)).toList = '_' :: rest := by
  obtain ⟨rest, hrest⟩ := toList_plainAlias path
  obtain ⟨-, n, hn⟩ := freshAlias_free taken (plainAlias path) (by simp [hrest])
  rw [hn]
  by_cases h0 : n = 0
  · exact ⟨rest, by simp [h0, candidate, hrest]⟩
  · exact ⟨_, by rw [toList_candidate _ h0, hrest, List.cons_append]⟩

end Component

end TemplateCompiler
