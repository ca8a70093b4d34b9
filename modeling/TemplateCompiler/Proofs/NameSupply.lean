import Mathlib.Data.List.DropRight
import TemplateCompiler.Proofs.Run

/-!
# The names one context hands out

A context is asked for component aliases, for numbered names and for memo keys, in any order and
for any paths and stems. Every request has its answer. The alias of a module is the first candidate
that is left then, and it stays the module's own; numbered names do not repeat, unless a digit at
the end of a stem runs into the number (`answers_apart`).
-/

namespace TemplateCompiler

/-- What a context can be asked a name for. -/
inductive NameRequest where
  | component (path : String)
  | numbered (stem : String)
  | memo
deriving DecidableEq, Repr

namespace NameRequest

def answer (env : Env) : NameRequest → CompileM String
  | component path => CompileM.componentAlias env path
  | numbered stem => CompileM.uniqueName stem
  | memo => CompileM.memoKey env

/-- The stem that a name is numbered within. -/
def stem? : NameRequest → Option String
  | component _ => none
  | numbered stem => some stem
  | memo => some "m"

/-- The answer that a name becomes: a memo key has the unit's label before it. -/
def shown (env : Env) : NameRequest → String → String
  | memo, name => s!"{env.label}:{name}"
  | component _, name | numbered _, name => name

end NameRequest

/-- Requests with their answers, in their order. -/
abbrev NameLog := List (NameRequest × String)

/-- An alias that may still be handed out after some requests. -/
def NameLog.Leaves (env : Env) (log : NameLog) (name : String) : Prop :=
  name ≠ env.config.bindHelper ∧ ¬ Component.isNumbered name ∧
    ∀ path, (.component path, name) ∉ log

/-- The search for the alias of a path ends, and at the first candidate that is left. -/
def NameLog.Finds (env : Env) (log : NameLog) (path name : String) : Prop :=
  ∃ n ≤ log.length + 2, name = Component.candidate (Component.plainAlias path) n ∧
    log.Leaves env name ∧
    ∀ m < n, ¬ log.Leaves env (Component.candidate (Component.plainAlias path) m)

def EndsInDigit (stem : String) : Prop :=
  ∃ c ∈ stem.toList.getLast?, c.isDigit

/-- An answer that is a numbered name, or a key with that name in it. -/
def Numbers (env : Env) (e : NameRequest × String) (stem name : String) : Prop :=
  e.1.stem? = some stem ∧ e.2 = e.1.shown env name

/-- How the names of a log are told apart. -/
structure NamesApart (env : Env) (log : NameLog) : Prop where
  alias_eq_iff : ∀ {p q a b}, (.component p, a) ∈ log → (.component q, b) ∈ log → (a = b ↔ p = q)
  alias_ne_helper : ∀ {p a}, (.component p, a) ∈ log → a ≠ env.config.bindHelper
  alias_ne_numbered : ∀ {p a stem name}, stem = "expr" ∨ stem = "loop" → (.component p, a) ∈ log →
    (.numbered stem, name) ∈ log → a ≠ name
  search_ends : ∀ {before p a after}, log = before ++ (.component p, a) :: after →
    (∀ b, (.component p, b) ∉ before) → NameLog.Finds env before p a
  numbers : ∀ e ∈ log, ∀ stem, e.1.stem? = some stem →
    ∃ n, Numbers env e stem (CompileM.numberedName stem n)
  numbers_apart : log.Pairwise fun e e' => ∀ stem stem' name, ¬ EndsInDigit stem →
    ¬ EndsInDigit stem' → Numbers env e stem name → ¬ Numbers env e' stem' name

/-! ## Numbered names -/

theorem rdropWhile_append_toDigits (stem : String) (n : Nat) :
    (stem.toList ++ Nat.toDigits 10 n).rdropWhile Char.isDigit =
      stem.toList.rdropWhile Char.isDigit := by
  rw [List.rdropWhile, List.reverse_append, List.dropWhile_append_of_pos, List.rdropWhile]
  intro c hc
  exact Nat.isDigit_of_mem_toDigits (by decide) (by decide) (List.mem_reverse.1 hc)

theorem rdropWhile_of_not_endsInDigit {stem : String} (h : ¬ EndsInDigit stem) :
    stem.toList.rdropWhile Char.isDigit = stem.toList := by
  rw [List.rdropWhile_eq_self_iff]
  intro hne hdigit
  exact h ⟨_, List.getLast?_eq_some_getLast hne, hdigit⟩

/-- A stem that does not end in a digit can be read off a name that is numbered within it. -/
theorem numberedName_stem_inj {stem stem' : String} {m n : Nat} (h : ¬ EndsInDigit stem)
    (h' : ¬ EndsInDigit stem')
    (heq : CompileM.numberedName stem m = CompileM.numberedName stem' n) : stem = stem' := by
  rw [← String.toList_inj, CompileM.toList_numberedName, CompileM.toList_numberedName,
    List.cons.injEq] at heq
  have hdropped := congrArg (List.rdropWhile Char.isDigit) heq.2
  rw [rdropWhile_append_toDigits, rdropWhile_append_toDigits, rdropWhile_of_not_endsInDigit h,
    rdropWhile_of_not_endsInDigit h'] at hdropped
  exact String.toList_inj.1 hdropped

theorem NameRequest.shown_inj {env : Env} {request : NameRequest} {name name' : String}
    (h : request.shown env name = request.shown env name') : name = name' := by
  cases request with
  | memo => simpa [shown, toString, ← String.toList_inj] using h
  | component | numbered => exact h

theorem Numbers.unique {env : Env} {e : NameRequest × String} {stem stem' name name' : String}
    (h : Numbers env e stem name) (h' : Numbers env e stem' name') :
    stem = stem' ∧ name = name' :=
  ⟨Option.some.inj (h.1.symm.trans h'.1), NameRequest.shown_inj (h.2.symm.trans h'.2)⟩

/-! ## What a context knows of its answers -/

/-- A context in which the requests of a log are answered. -/
structure Supplied (env : Env) (c : Context) (log : NameLog) : Prop where
  apart : AliasesApart env c
  keys : (c.aliases.map Prod.fst).Nodup
  mem_aliases_iff : ∀ {path name}, (path, name) ∈ c.aliases ↔ (.component path, name) ∈ log
  length_le : c.aliases.length ≤ log.length
  counted : ∀ e ∈ log, ∀ stem, e.1.stem? = some stem →
    ∃ n < c.count stem, Numbers env e stem (CompileM.numberedName stem n)
  search_ends : ∀ {before p a after}, log = before ++ (.component p, a) :: after →
    (∀ b, (.component p, b) ∉ before) → NameLog.Finds env before p a
  numbers_apart : log.Pairwise fun e e' => ∀ stem stem' name, ¬ EndsInDigit stem →
    ¬ EndsInDigit stem' → Numbers env e stem name → ¬ Numbers env e' stem' name

variable {env : Env} {c c' : Context} {log : NameLog}

theorem Supplied.initial (env : Env) : Supplied env .initial [] where
  apart := ⟨by simp [Context.initial], by simp [Context.initial]⟩
  keys := by simp [Context.initial]
  mem_aliases_iff := by simp [Context.initial]
  length_le := by simp [Context.initial]
  counted := by simp
  search_ends := by simp
  numbers_apart := .nil

/-- An alias that is left is one that the table of aliases leaves free. -/
theorem Supplied.leaves_iff (h : Supplied env c log) {name : String} :
    log.Leaves env name ↔
      Component.isFree (c.aliases.map Prod.snd ++ [env.config.bindHelper]) name := by
  have hmem : (∀ path, (.component path, name) ∉ log) ↔ name ∉ c.aliases.map Prod.snd := by
    simp [← h.mem_aliases_iff]
  simp only [NameLog.Leaves, hmem, Component.isFree, Bool.and_eq_true, Bool.not_eq_true',
    List.contains_eq_mem, List.mem_append, List.mem_singleton, decide_eq_false_iff_not, not_or,
    Bool.not_eq_true]
  tauto

theorem Supplied.finds (h : Supplied env c log) (path : String) :
    log.Finds env path (Component.freshAlias (c.aliases.map Prod.snd ++ [env.config.bindHelper])
      (Component.plainAlias path)) := by
  obtain ⟨rest, hrest⟩ := Component.toList_plainAlias path
  have hne : (Component.plainAlias path).toList ≠ [] := by simp [hrest]
  obtain ⟨n, hn, heq, hfree, hfirst⟩ := Component.freshAlias_first
    (c.aliases.map Prod.snd ++ [env.config.bindHelper]) hne
  have hlen := h.length_le
  simp only [List.length_append, List.length_map, List.length_singleton] at hn
  refine ⟨n, by omega, heq, h.leaves_iff.2 hfree, fun m hm => ?_⟩
  rw [h.leaves_iff]
  exact hfirst m hm

/-- An answered request after the others, where searches end and names differ. -/
theorem Supplied.search_ends_concat {e : NameRequest × String} (h : Supplied env c log)
    (hfinds : ∀ p a, e = (.component p, a) → (∀ b, (.component p, b) ∉ log) → log.Finds env p a)
    {before after : NameLog} {p a : String}
    (heq : log ++ [e] = before ++ (.component p, a) :: after)
    (hnew : ∀ b, (.component p, b) ∉ before) : NameLog.Finds env before p a := by
  rcases List.eq_nil_or_concat after with rfl | ⟨more, last, rfl⟩
  · obtain ⟨rfl, he⟩ := List.append_inj' heq rfl
    exact hfinds p a (List.singleton_inj.1 he) hnew
  · rw [List.concat_eq_append, ← List.cons_append, ← List.append_assoc] at heq
    exact h.search_ends (List.append_inj' heq rfl).1 hnew

theorem Supplied.numbers_apart_concat {e : NameRequest × String} (h : Supplied env c log)
    (hnew : ∀ stem name, Numbers env e stem name →
      name = CompileM.numberedName stem (c.count stem)) :
    (log ++ [e]).Pairwise fun e e' => ∀ stem stem' name, ¬ EndsInDigit stem →
      ¬ EndsInDigit stem' → Numbers env e stem name → ¬ Numbers env e' stem' name := by
  refine List.pairwise_append.2 ⟨h.numbers_apart, List.pairwise_singleton _ _, ?_⟩
  intro e₁ he₁ e' he' stem stem' name hs hs' hname hname'
  obtain rfl := List.mem_singleton.1 he'
  obtain ⟨n, hn, hnumbers⟩ := h.counted e₁ he₁ stem hname.1
  have heq : CompileM.numberedName stem n = CompileM.numberedName stem' (c.count stem') := by
    rw [← (hname.unique hnumbers).2, hnew stem' name hname']
  obtain rfl := numberedName_stem_inj hs hs' heq
  exact absurd (CompileM.numberedName_inj heq) hn.ne

/-! ## One request -/

theorem Supplied.known {path name : String} (h : Supplied env c log)
    (hlookup : c.aliases.lookup path = some name) :
    Supplied env c (log ++ [(.component path, name)]) := by
  have hmem : (path, name) ∈ c.aliases := by
    obtain ⟨before, after, heq, -⟩ := List.lookup_eq_some_iff.1 hlookup
    simp [heq]
  refine ⟨h.apart, h.keys, ?_, ?_, ?_, h.search_ends_concat ?_, h.numbers_apart_concat ?_⟩
  · intro p a
    rw [List.mem_append, ← h.mem_aliases_iff, List.mem_singleton, Prod.mk.injEq,
      NameRequest.component.injEq]
    exact ⟨.inl, fun h => h.elim id fun ⟨hp, ha⟩ => hp ▸ ha ▸ hmem⟩
  · have := h.length_le
    simp only [List.length_append, List.length_singleton]
    omega
  · intro e he stem hstem
    rcases List.mem_append.1 he with he | he
    · exact h.counted e he stem hstem
    · rw [List.mem_singleton.1 he] at hstem
      simp [NameRequest.stem?] at hstem
  · rintro p a ⟨rfl, rfl⟩ hnew
    exact absurd (h.mem_aliases_iff.1 hmem) (hnew _)
  · rintro stem name ⟨hstem, -⟩
    simp [NameRequest.stem?] at hstem

theorem Supplied.registered {path : String} (h : Supplied env c log)
    (hlookup : c.aliases.lookup path = none)
    (hcontext : c' = { c with aliases := c.aliases ++ [(path, Component.freshAlias
      (c.aliases.map Prod.snd ++ [env.config.bindHelper]) (Component.plainAlias path))] })
    (hapart : AliasesApart env c') :
    Supplied env c' (log ++ [(.component path, Component.freshAlias
      (c.aliases.map Prod.snd ++ [env.config.bindHelper]) (Component.plainAlias path))]) := by
  subst hcontext
  have hfinds := h.finds path
  set fresh := Component.freshAlias (c.aliases.map Prod.snd ++ [env.config.bindHelper])
    (Component.plainAlias path)
  refine ⟨hapart, ?_, ?_, ?_, ?_, h.search_ends_concat ?_, h.numbers_apart_concat ?_⟩
  · rw [List.map_append, List.nodup_append]
    refine ⟨h.keys, List.nodup_singleton _, ?_⟩
    rintro p hp q hq rfl
    obtain ⟨e, he, rfl⟩ := List.mem_map.1 hp
    have := List.lookup_eq_none_iff.1 hlookup e he
    simp [List.mem_singleton.1 hq] at this
  · intro p a
    simp [← h.mem_aliases_iff]
  · have := h.length_le
    simp only [List.length_append, List.length_singleton]
    omega
  · intro e he stem hstem
    rcases List.mem_append.1 he with he | he
    · exact h.counted e he stem hstem
    · rw [List.mem_singleton.1 he] at hstem
      simp [NameRequest.stem?] at hstem
  · rintro p a ⟨rfl, rfl⟩ -
    exact hfinds
  · rintro stem name ⟨hstem, -⟩
    simp [NameRequest.stem?] at hstem

theorem Supplied.numbered (request : NameRequest) {stem : String} (h : Supplied env c log)
    (hstem : request.stem? = some stem) (haliases : c'.aliases = c.aliases)
    (hcount : ∀ other, c'.count other = if other = stem then c.count stem + 1 else c.count other) :
    Supplied env c'
      (log ++ [(request, request.shown env (CompileM.numberedName stem (c.count stem)))]) := by
  have hne : ∀ path, request ≠ .component path := by
    rintro path rfl
    simp [NameRequest.stem?] at hstem
  refine ⟨⟨haliases ▸ h.apart.nodup, haliases ▸ h.apart.free⟩, haliases ▸ h.keys, ?_, ?_, ?_,
    h.search_ends_concat ?_, h.numbers_apart_concat ?_⟩
  · intro p a
    simp [haliases, h.mem_aliases_iff, (hne p).symm]
  · have := h.length_le
    rw [haliases, List.length_append]
    omega
  · intro e he other hother
    rcases List.mem_append.1 he with he | he
    · obtain ⟨n, hn, hnumbers⟩ := h.counted e he other hother
      refine ⟨n, ?_, hnumbers⟩
      rw [hcount]
      split
      · rename_i heq
        exact Nat.lt_succ_of_lt (heq ▸ hn)
      · exact hn
    · obtain rfl := List.mem_singleton.1 he
      obtain rfl := Option.some.inj (hstem.symm.trans hother)
      exact ⟨c.count stem, by simp [hcount], hstem, rfl⟩
  · rintro p a heq -
    exact absurd (congrArg Prod.fst heq) (hne p)
  · intro other name hname
    obtain ⟨rfl, rfl⟩ := hname.unique ⟨hstem, rfl⟩
    rfl

theorem exists_uniqueName (env : Env) (c : Context) (stem : String) :
    ∃ c', CompileM.Yields (CompileM.uniqueName stem) c
        (CompileM.numberedName stem (c.count stem)) c' ∧ c'.aliases = c.aliases ∧
      ∀ other, c'.count other = if other = stem then c.count stem + 1 else c.count other := by
  have hyields : CompileM.Yields (CompileM.uniqueName stem) c
      (CompileM.numberedName stem (c.count stem))
      { c with counters := (stem, c.count stem + 1) :: c.counters } := by
    simp [CompileM.uniqueName, Context.count]
  exact ⟨_, hyields, rfl, (CompileM.uniqueName_yields env hyields).2.2.2⟩

/-- A request is answered, and the context knows of the answer. -/
theorem Supplied.exists_answer (h : Supplied env c log) (request : NameRequest) :
    ∃ name c', CompileM.Yields (request.answer env) c name c' ∧
      Supplied env c' (log ++ [(request, name)]) := by
  cases request with
  | component path =>
    rcases hlookup : c.aliases.lookup path with _ | known
    · have hyields : CompileM.Yields (CompileM.componentAlias env path) c
          (Component.freshAlias (c.aliases.map Prod.snd ++ [env.config.bindHelper])
            (Component.plainAlias path))
          { c with aliases := c.aliases ++ [(path, Component.freshAlias
            (c.aliases.map Prod.snd ++ [env.config.bindHelper])
            (Component.plainAlias path))] } := by
        simp [CompileM.componentAlias, hlookup]
      have hgrows := (CompileM.componentAlias_yields hyields).2.1.grows
      exact ⟨_, _, hyields, h.registered hlookup rfl (hgrows.apart h.apart)⟩
    · refine ⟨known, c, ?_, h.known hlookup⟩
      simp [NameRequest.answer, CompileM.componentAlias, hlookup]
  | numbered stem =>
    obtain ⟨c', hyields, haliases, hcount⟩ := exists_uniqueName env c stem
    exact ⟨_, c', hyields, h.numbered (.numbered stem) rfl haliases hcount⟩
  | memo =>
    obtain ⟨c', hyields, haliases, hcount⟩ := exists_uniqueName env c "m"
    refine ⟨_, c', ?_, h.numbered .memo rfl haliases hcount⟩
    simp only [NameRequest.answer, CompileM.memoKey, CompileM.yields_bind, CompileM.yields_pure]
    exact ⟨_, _, hyields, rfl, rfl⟩

/-! ## All requests -/

/-- Answers add to what a context knows, request by request. -/
theorem Supplied.exists_answers (requests : List NameRequest) (h : Supplied env c log) :
    ∃ names c', CompileM.Yields (requests.mapM (NameRequest.answer env)) c names c' ∧
      names.length = requests.length ∧ Supplied env c' (log ++ requests.zip names) := by
  induction requests generalizing c log with
  | nil => exact ⟨[], c, by simp, rfl, by simpa using h⟩
  | cons request rest ih =>
    obtain ⟨name, c₁, hname, h₁⟩ := h.exists_answer request
    obtain ⟨names, c', hnames, hlen, h'⟩ := ih h₁
    refine ⟨name :: names, c', ?_, by simp [hlen], by simpa using h'⟩
    simp only [List.mapM_cons, CompileM.yields_bind, CompileM.yields_pure]
    exact ⟨_, _, hname, _, _, hnames, rfl, rfl⟩

theorem Supplied.namesApart (h : Supplied env c log) : NamesApart env log where
  alias_eq_iff := by
    intro p q a b hp hq
    rw [← h.mem_aliases_iff] at hp hq
    constructor
    · rintro rfl
      exact congrArg Prod.fst (List.inj_on_of_nodup_map h.apart.nodup hp hq rfl)
    · rintro rfl
      exact congrArg Prod.snd (List.inj_on_of_nodup_map h.keys hp hq rfl)
  alias_ne_helper hp := (h.apart.free _ (List.mem_map_of_mem (h.mem_aliases_iff.2 hp))).2.1
  alias_ne_numbered := by
    rintro p a stem name hstem hp hname rfl
    obtain ⟨n, -, hnumbers⟩ := h.counted _ hname stem rfl
    have hfree := h.apart.free _ (List.mem_map_of_mem (h.mem_aliases_iff.2 hp))
    refine hfree.1 ?_
    rw [show a = CompileM.numberedName stem n from hnumbers.2]
    exact Component.isNumbered_numberedName hstem n
  search_ends := h.search_ends
  numbers := fun e he stem hstem => (h.counted e he stem hstem).imp fun _ hn => hn.2
  numbers_apart := h.numbers_apart

/-- A fresh context answers any requests: the search for an alias ends, an alias is its module's
alone and is neither the bind helper nor a temporary or a loop function, and numbered names
differ. -/
theorem answers_apart (env : Env) (requests : List NameRequest) :
    ∃ names c, (requests.mapM (NameRequest.answer env)).run .initial = .ok names c ∧
      names.length = requests.length ∧ NamesApart env (requests.zip names) := by
  obtain ⟨names, c, hrun, hlen, h⟩ := (Supplied.initial env).exists_answers requests
  exact ⟨names, c, hrun, hlen, h.namesApart⟩

end TemplateCompiler
