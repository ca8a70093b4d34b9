import Mathlib.Data.List.Shortlex
import TemplateCompiler.Proofs.Validation

/-!
# Which offence an expression is refused for

The levels of an expression are what a queue gives that takes up the parts of each node at its end
(`Expr.breadthFirst_eq_walk`). The nodes come off it by the length of the way to them, and from left
to right where it is the same (`Expr.pairwise_walk`). So the first offence is the one nearest to the
root, and of those as near the one furthest left. In a source there may be more below a node that
offends; it is further from the root, and never looked at (`SourceExpr.check_expr`).
-/

namespace TemplateCompiler

/-- A way down from a node: at each step, which of the parts is next. -/
abbrev Way := List Nat

namespace Way

/-- Shorter ways first, and of two that are as long the one further left. -/
abbrev Before : Way → Way → Prop :=
  List.Shortlex (· < ·)

/-- The node at the end of a way. -/
def follow {α : Type} (parts : α → List α) : Way → α → Option α
  | [], node => some node
  | i :: way, node => (parts node)[i]?.bind (follow parts way)

theorem before_append (way : Way) (i : Nat) (more : Way) : way.Before (way ++ i :: more) :=
  .of_length_lt (by simp)

theorem lex_concat {way way' : Way} (h : List.Lex (· < ·) way way')
    (hlength : way.length = way'.length) (i j : Nat) :
    List.Lex (· < ·) (way ++ [i]) (way' ++ [j]) := by
  induction h with
  | nil => simp at hlength
  | cons h ih => exact .cons (ih (by simpa using hlength))
  | rel h => exact .rel h

theorem Before.concat {way way' : Way} (h : way.Before way') (i j : Nat) :
    (way ++ [i]).Before (way' ++ [j]) := by
  rcases List.shortlex_def.1 h with hlength | ⟨hlength, hlex⟩
  · exact .of_length_lt (by simpa using hlength)
  · exact .of_lex (by simpa using hlength) (lex_concat hlex hlength i j)

end Way

namespace Expr

def parts : Expr → List Expr
  | member _ value _ => [value]
  | index _ value key => [value, key]
  | name .. | constant .. | foreign .. => []

theorem nodes_eq (e : Expr) : e.nodes = e :: e.parts.flatMap nodes := by
  cases e <;> simp [nodes, parts]

/-! ## A queue of nodes -/

/-- A node with the way to it. -/
abbrev Visit := Way × Expr

def Visit.next (v : Visit) : List Visit :=
  v.2.parts.mapIdx fun i part => (v.1 ++ [i], part)

theorem Visit.map_next (v : Visit) : v.next.map Prod.snd = v.2.parts := by
  rw [next, List.mapIdx_eq_zipIdx_map, List.map_map]
  exact List.zipIdx_map_fst 0 v.2.parts

/-- How many nodes there are in a queue's expressions. -/
def load (queue : List Visit) : Nat :=
  (queue.map fun v => v.2.nodes.length).sum

theorem load_append (queue more : List Visit) : load (queue ++ more) = load queue + load more := by
  simp [load]

theorem load_cons (v : Visit) (queue : List Visit) :
    load (v :: queue) = v.2.nodes.length + load queue := by
  simp [load]

theorem load_next (v : Visit) : load v.next + 1 = v.2.nodes.length := by
  have hmap : v.next.map (fun v => v.2.nodes.length) = v.2.parts.map fun e => e.nodes.length := by
    rw [← v.map_next, List.map_map]
    rfl
  rw [load, hmap, nodes_eq, List.length_cons, List.length_flatMap]

/-- The nodes as they come off a queue that takes up the parts of each at its end. -/
def walk : List Visit → List Visit
  | [] => []
  | v :: queue => v :: walk (queue ++ v.next)
termination_by queue => load queue
decreasing_by
  have hnext := load_next v
  rw [load_append, load_cons]
  omega

theorem walk_append (queue : List Visit) : ∀ more : List Visit,
    walk (queue ++ more) = queue ++ walk (more ++ queue.flatMap Visit.next) := by
  induction queue with
  | nil => simp
  | cons v queue ih =>
    intro more
    rw [List.cons_append, Expr.walk, List.append_assoc, ih, List.flatMap_cons, List.append_assoc,
      List.cons_append]

/-! ## The queue and the levels -/

theorem besides_nil (rows : List (List Expr)) : besides rows [] = rows := by
  cases rows <;> rfl

theorem besides_assoc : ∀ a b c : List (List Expr),
    besides (besides a b) c = besides a (besides b c)
  | [], b, c => by rw [besides, besides]
  | _ :: _, [], c => by rw [besides_nil, besides]
  | _ :: _, _ :: _, [] => by rw [besides_nil, besides_nil]
  | x :: a, y :: b, z :: c => by
    rw [besides, besides, besides, besides, besides_assoc a b c, List.append_assoc]

/-- The levels of several expressions side by side. -/
def rowLevels (row : List Expr) : List (List Expr) :=
  row.foldr (fun e rows => besides e.levels rows) []

theorem rowLevels_append (row more : List Expr) :
    rowLevels (row ++ more) = besides (rowLevels row) (rowLevels more) := by
  induction row with
  | nil => rfl
  | cons e row ih =>
    calc rowLevels (e :: (row ++ more))
      _ = besides e.levels (rowLevels (row ++ more)) := rfl
      _ = besides (rowLevels (e :: row)) (rowLevels more) := by
        rw [ih, ← besides_assoc]
        rfl

theorem levels_eq (e : Expr) : e.levels = [e] :: rowLevels e.parts := by
  cases e <;> simp [levels, parts, rowLevels, besides_nil]

/-- The first level of a row is the row itself, and below it are the levels of its parts. -/
theorem rowLevels_cons (e : Expr) (row : List Expr) :
    rowLevels (e :: row) = (e :: row) :: rowLevels ((e :: row).flatMap parts) := by
  induction row generalizing e with
  | nil =>
    calc rowLevels [e]
      _ = e.levels := besides_nil _
      _ = [e] :: rowLevels ([e].flatMap parts) := by rw [levels_eq, List.flatMap_singleton]
  | cons d row ih =>
    calc rowLevels (e :: d :: row)
      _ = besides ([e] :: rowLevels e.parts)
          ((d :: row) :: rowLevels ((d :: row).flatMap parts)) := by
        rw [← levels_eq, ← ih d]
        rfl
      _ = (e :: d :: row) :: rowLevels ((e :: d :: row).flatMap parts) := by
        rw [besides, ← rowLevels_append, List.singleton_append, ← List.flatMap_cons]

theorem load_flatMap_next (queue : List Visit) :
    load (queue.flatMap Visit.next) + queue.length = load queue := by
  induction queue with
  | nil => rfl
  | cons v queue ih =>
    have hnext := load_next v
    rw [List.flatMap_cons, load_append, load_cons, List.length_cons]
    omega

/-- What comes off a queue are the levels of what is on it. -/
theorem map_walk (queue : List Visit) :
    (walk queue).map Prod.snd = (rowLevels (queue.map Prod.snd)).flatten := by
  rcases queue with _ | ⟨v, queue⟩
  · simp [walk, rowLevels]
  · have hwalk := walk_append (v :: queue) []
    rw [List.append_nil, List.nil_append] at hwalk
    have hnext : ((v :: queue).flatMap Visit.next).map Prod.snd =
        ((v :: queue).map Prod.snd).flatMap parts := by
      rw [List.map_flatMap, List.flatMap_map]
      exact List.flatMap_congr fun v _ => v.map_next
    have hrest := map_walk ((v :: queue).flatMap Visit.next)
    rw [hwalk, List.map_append, hrest, hnext, List.map_cons, rowLevels_cons, List.flatten_cons]
termination_by load queue
decreasing_by
  have hload := load_flatMap_next (v :: queue)
  rw [List.length_cons] at hload
  omega

theorem breadthFirst_eq_walk (e : Expr) : e.breadthFirst = (walk [([], e)]).map Prod.snd := by
  rw [map_walk, breadthFirst, List.map_singleton, rowLevels, List.foldr_cons, List.foldr_nil,
    besides_nil]

/-! ## The order of the queue -/

theorem mem_next {v u : Visit} :
    u ∈ v.next ↔ ∃ i, u.1 = v.1 ++ [i] ∧ v.2.parts[i]? = some u.2 := by
  rw [Visit.next, List.mem_mapIdx]
  constructor
  · rintro ⟨i, hi, rfl⟩
    exact ⟨i, rfl, List.getElem?_eq_getElem hi⟩
  · rintro ⟨i, hway, hpart⟩
    obtain ⟨hi, hpart⟩ := List.getElem?_eq_some_iff.1 hpart
    exact ⟨i, hi, Prod.ext hway.symm hpart⟩

/-- What comes off a queue is what is below the nodes on it. -/
theorem mem_walk {queue : List Visit} {v : Visit} :
    v ∈ walk queue ↔ ∃ u ∈ queue, ∃ way, v.1 = u.1 ++ way ∧ way.follow parts u.2 = some v.2 := by
  induction queue using walk.induct with
  | case1 => simp [walk]
  | case2 first queue ih =>
    rw [walk, List.mem_cons, ih]
    constructor
    · rintro (rfl | ⟨u, hu, way, hv, hfollow⟩)
      · exact ⟨v, List.mem_cons_self, [], (List.append_nil _).symm, rfl⟩
      rcases List.mem_append.1 hu with hu | hu
      · exact ⟨u, List.mem_cons_of_mem _ hu, way, hv, hfollow⟩
      · obtain ⟨i, hi, hpart⟩ := mem_next.1 hu
        refine ⟨first, List.mem_cons_self, i :: way, by simp [hv, hi], ?_⟩
        rw [Way.follow, hpart, Option.bind_some, hfollow]
    · rintro ⟨u, hu, way, hv, hfollow⟩
      rcases List.mem_cons.1 hu with rfl | hu
      · rcases way with _ | ⟨i, way⟩
        · rw [Way.follow, Option.some.injEq] at hfollow
          exact .inl (Prod.ext (by simpa using hv) hfollow.symm)
        · obtain ⟨part, hpart, hfollow⟩ := Option.bind_eq_some_iff.1 hfollow
          exact .inr ⟨(u.1 ++ [i], part), List.mem_append_right _ (mem_next.2 ⟨i, rfl, hpart⟩), way,
            by simp [hv], hfollow⟩
      · exact .inr ⟨u, List.mem_append_left _ hu, way, hv, hfollow⟩

/-- A queue in order: every node comes before those behind it, and before the parts of any. -/
structure Queued (queue : List Visit) : Prop where
  sorted : queue.Pairwise fun u v => u.1.Before v.1
  close : ∀ u ∈ queue, ∀ v ∈ queue, ∀ i, u.1.Before (v.1 ++ [i])

theorem pairwise_next (v : Visit) : v.next.Pairwise fun u w => u.1.Before w.1 := by
  refine List.pairwise_iff_getElem.2 fun i j hi hj hij => ?_
  simp only [Visit.next, List.getElem_mapIdx]
  exact .append_left ((List.shortlex_singleton_iff i j).2 hij) v.1

theorem Queued.step {v : Visit} {queue : List Visit} (h : Queued (v :: queue)) :
    Queued (queue ++ v.next) := by
  obtain ⟨hfirst, hrest⟩ := List.pairwise_cons.1 h.sorted
  have hclose : ∀ u ∈ queue, ∀ i, u.1.Before (v.1 ++ [i]) := fun u hu =>
    h.close u (List.mem_cons_of_mem _ hu) v List.mem_cons_self
  refine ⟨List.pairwise_append.2 ⟨hrest, pairwise_next v, fun u hu w hw => ?_⟩,
    fun u hu w hw j => ?_⟩
  · obtain ⟨i, hi, -⟩ := mem_next.1 hw
    exact hi ▸ hclose u hu i
  rcases List.mem_append.1 hu with hu | hu
  · rcases List.mem_append.1 hw with hw | hw
    · exact h.close u (List.mem_cons_of_mem _ hu) w (List.mem_cons_of_mem _ hw) j
    · obtain ⟨i, hi, -⟩ := mem_next.1 hw
      exact hi ▸ (hclose u hu i).append_right [j]
  · obtain ⟨i, hi, -⟩ := mem_next.1 hu
    rcases List.mem_append.1 hw with hw | hw
    · exact hi ▸ (hfirst w hw).concat i j
    · obtain ⟨i', hi', -⟩ := mem_next.1 hw
      exact .of_length_lt (by simp [hi, hi'])

theorem pairwise_walk {queue : List Visit} (h : Queued queue) :
    (walk queue).Pairwise fun u v => u.1.Before v.1 := by
  induction queue using walk.induct with
  | case1 => simp [walk]
  | case2 v queue ih =>
    rw [walk, List.pairwise_cons]
    refine ⟨fun w hw => ?_, ih h.step⟩
    obtain ⟨u, hu, way, hway, -⟩ := mem_walk.1 hw
    have hbefore : v.1.Before u.1 := by
      rcases List.mem_append.1 hu with hu | hu
      · exact (List.pairwise_cons.1 h.sorted).1 u hu
      · obtain ⟨i, hi, -⟩ := mem_next.1 hu
        exact hi ▸ v.1.before_append i []
    exact hway ▸ hbefore.append_right way

theorem queued_root (e : Expr) : Queued [([], e)] := by
  refine ⟨List.pairwise_singleton _ _, fun u hu v hv i => ?_⟩
  rw [List.mem_singleton.1 hu, List.mem_singleton.1 hv]
  exact Way.before_append [] i []

theorem mem_walk_root {e : Expr} {v : Visit} :
    v ∈ walk [([], e)] ↔ v.1.follow parts e = some v.2 := by
  simp [mem_walk]

/-- The search stops at the first of the offences. -/
theorem exists_first_offence {e : Expr} {offence : Offence}
    (h : e.breadthFirst.findSome? offence? = some offence) :
    ∃ way d, way.follow parts e = some d ∧ d.offence? = some offence ∧
      ∀ (way' : Way) d', way'.follow parts e = some d' → d'.offence?.isSome →
        way = way' ∨ way.Before way' := by
  rw [breadthFirst_eq_walk, List.findSome?_map, List.findSome?_eq_some_iff] at h
  obtain ⟨before, ⟨way, d⟩, after, hwalk, hoffence, hbefore⟩ := h
  have hfollow : way.follow parts e = some d :=
    mem_walk_root.1 (hwalk ▸ List.mem_append_right _ List.mem_cons_self)
  have hsorted := pairwise_walk (queued_root e)
  rw [hwalk] at hsorted
  refine ⟨way, d, hfollow, hoffence, fun way' d' hfollow' hoffends => ?_⟩
  have hmem : (way', d') ∈ before ++ (way, d) :: after := hwalk ▸ mem_walk_root.2 hfollow'
  rcases List.mem_append.1 hmem with hb | ha
  · have hnone : d'.offence? = none := hbefore _ hb
    simp [hnone] at hoffends
  · rcases List.mem_cons.1 ha with heq | ha
    · exact .inl (congrArg Prod.fst heq).symm
    · exact .inr ((List.pairwise_cons.1 (List.pairwise_append.1 hsorted).2.1).1 _ ha)

theorem exists_offence {e d : Expr} {way : Way} (h : way.follow parts e = some d)
    (hd : d.offence?.isSome) : ∃ offence, e.breadthFirst.findSome? offence? = some offence := by
  have hmem : d ∈ e.breadthFirst := by
    rw [breadthFirst_eq_walk]
    have hvisit : (way, d) ∈ walk [([], e)] := mem_walk_root.2 h
    exact List.mem_map_of_mem hvisit
  exact Option.isSome_iff_exists.1 (List.findSome?_isSome_iff.2 ⟨d, hmem, hd⟩)

end Expr

/-! ## Expressions as they are written -/

/-- An expression with all of its nodes, of whatever kind they are. -/
inductive SourceExpr where
  | name (span : Option Span) (id : String)
  | member (span : Option Span) (value : SourceExpr) (name : String)
  | index (span : Option Span) (value key : SourceExpr)
  | constant (span : Option Span) (value : Constant)
  | other (span : Option Span) (kind : String) (parts : List SourceExpr)

namespace SourceExpr

/-- What a template has of an expression: of the other nodes only their kind. -/
def expr : SourceExpr → Expr
  | name span id => .name span id
  | member span value id => .member span value.expr id
  | index span value key => .index span value.expr key.expr
  | constant span c => .constant span c
  | other span kind _ => .foreign span kind

def parts : SourceExpr → List SourceExpr
  | member _ value _ => [value]
  | index _ value key => [value, key]
  | other _ _ parts => parts
  | name .. | constant .. => []

/-- The expressions that may stand alone in a template. -/
inductive IsMember : SourceExpr → Prop where
  | name {span id} : IsMember (name span id)
  | member {span value id} : IsMember (member span value id)
  | index {span value key} : IsMember (index span value key)

inductive Allowed : SourceExpr → Prop where
  | name {span id} (h : id ≠ "self") : Allowed (name span id)
  | member {span value id} (h : Allowed value) : Allowed (member span value id)
  | index {span value key} (h : Allowed value) (hkey : Allowed key) :
      Allowed (index span value key)
  | constant {span c} : Allowed (constant span c)

def Offends : SourceExpr → Prop
  | name _ id => id = "self"
  | other .. => True
  | member .. | index .. | constant .. => False

/-- The node that an expression is refused for: of those that offend one of those nearest to the
root, and of these the one furthest left. -/
structure FirstOffence (t : SourceExpr) (way : Way) (d : SourceExpr) : Prop where
  follow : way.follow parts t = some d
  offends : d.Offends
  first : ∀ (way' : Way) d', way'.follow parts t = some d' → d'.Offends →
    way = way' ∨ way.Before way'

/-- The code and the message that a node is refused with. -/
inductive Refused : Expr.Place → SourceExpr → ErrorCode → String → Prop where
  | self {place span} :
      Refused place (name span "self") .selfReference "You can't use `self` within a template"
  | value {span kind parts} : Refused .value (other span kind parts) .disallowedExpression
      s!"Disallowed expression in attribute value: node type {kind} is not allowed"
  | child {span kind parts} : Refused .child (other span kind parts) .expressionEvaluation
      s!"Expression evaluation is not allowed (found {kind})"

theorem isMember_expr {t : SourceExpr} : t.expr.isMember ↔ t.IsMember := by
  cases t with
  | name => exact iff_of_true rfl .name
  | member => exact iff_of_true rfl .member
  | index => exact iff_of_true rfl .index
  | constant | other => exact iff_of_false Bool.false_ne_true nofun

theorem allowed_expr : ∀ t : SourceExpr, t.expr.Allowed ↔ t.Allowed
  | name .. => ⟨.name, fun | .name h => h⟩
  | member _ value _ =>
    have ih := allowed_expr value
    ⟨fun h => .member (ih.1 h), fun | .member h => ih.2 h⟩
  | index _ value key =>
    have ih := allowed_expr value
    have ihkey := allowed_expr key
    ⟨fun h => .index (ih.1 h.1) (ihkey.1 h.2), fun | .index h hkey => ⟨ih.2 h, ihkey.2 hkey⟩⟩
  | constant .. => iff_of_true trivial .constant
  | other .. => iff_of_false id nofun

theorem isSome_offence {t : SourceExpr} : t.expr.offence?.isSome ↔ t.Offends := by
  cases t with
  | name span id =>
    rw [expr, Expr.offence?, Offends, Expr.selfName]
    split <;> simp_all
  | member | index | constant | other => simp [expr, Expr.offence?, Offends]

theorem refused_of_offence {place : Expr.Place} {t : SourceExpr} {offence : Expr.Offence}
    (h : t.expr.offence? = some offence) :
    Refused place t (offence.problem place).code (offence.problem place).message := by
  cases t with
  | name span id =>
    rw [expr, Expr.offence?, Expr.selfName] at h
    split at h
    · rename_i hid
      obtain rfl := Option.some.inj h
      exact hid ▸ .self
    · simp at h
  | other span kind parts =>
    simp only [expr, Expr.offence?, Option.some.injEq] at h
    subst h
    cases place with
    | child => exact .child
    | value => exact .value
  | member | index | constant => simp [expr, Expr.offence?] at h

theorem exists_part {t : SourceExpr} {i : Nat} {e : Expr} (h : t.expr.parts[i]? = some e) :
    ∃ part, t.parts[i]? = some part ∧ part.expr = e := by
  have hparts : ∀ row : List SourceExpr, (row.map expr)[i]? = some e →
      ∃ part, row[i]? = some part ∧ part.expr = e := by
    simp
  cases t with
  | name | constant | other => simp [expr, Expr.parts] at h
  | member span value id => exact hparts [value] h
  | index span value key => exact hparts [value, key] h

/-- A node that is not under another that offends is there in what a template has. -/
theorem exists_follow : ∀ {way : Way} {t : SourceExpr} {e : Expr},
    way.follow Expr.parts t.expr = some e → ∃ d, way.follow parts t = some d ∧ d.expr = e
  | [], t, e, h => ⟨t, rfl, Option.some.inj h⟩
  | i :: way, t, e, h => by
    obtain ⟨_, hpart, hrest⟩ := Option.bind_eq_some_iff.1 h
    obtain ⟨part, hpart', rfl⟩ := exists_part hpart
    obtain ⟨d, hd, he⟩ := exists_follow hrest
    exact ⟨d, Option.bind_eq_some_iff.2 ⟨part, hpart', hd⟩, he⟩

/-- The way to a node that offends leads by an offence that a template has, if not to one. -/
theorem exists_offending_start : ∀ {way : Way} {t d : SourceExpr}, way.follow parts t = some d →
    d.Offends → ∃ start rest e, way = start ++ rest ∧ start.follow Expr.parts t.expr = some e ∧
      e.offence?.isSome
  | [], t, d, h, hd => ⟨[], [], t.expr, rfl, rfl, isSome_offence.2 (Option.some.inj h ▸ hd)⟩
  | i :: way, t, d, h, hd => by
    obtain ⟨part, hpart, hrest⟩ := Option.bind_eq_some_iff.1 h
    obtain ⟨start, rest, e, rfl, hfollow, he⟩ := exists_offending_start hrest hd
    have hdown : t.expr.parts = t.parts.map expr → ∃ (start' rest' : Way) (e' : Expr),
        i :: (start ++ rest) = start' ++ rest' ∧
          start'.follow Expr.parts t.expr = some e' ∧ e'.offence?.isSome := by
      intro hparts
      refine ⟨i :: start, rest, e, rfl, Option.bind_eq_some_iff.2 ⟨part.expr, ?_, hfollow⟩, he⟩
      rw [hparts, List.getElem?_map, hpart, Option.map_some]
    cases t with
    | other span kind parts => exact ⟨[], _, .foreign span kind, rfl, rfl, rfl⟩
    | name | member | index | constant => exact hdown rfl

theorem exists_firstOffence {t d : SourceExpr} {way : Way} (h : way.follow parts t = some d)
    (hd : d.Offends) : ∃ way d offence, t.FirstOffence way d ∧ d.expr.offence? = some offence ∧
      t.expr.breadthFirst.findSome? Expr.offence? = some offence := by
  obtain ⟨start, rest, e, rfl, hstart, he⟩ := exists_offending_start h hd
  obtain ⟨offence, hsearch⟩ := Expr.exists_offence hstart he
  obtain ⟨way, e, hfollow, hoffence, hfirst⟩ := Expr.exists_first_offence hsearch
  obtain ⟨d, hd, rfl⟩ := exists_follow hfollow
  refine ⟨way, d, offence, ⟨hd, isSome_offence.1 (by rw [hoffence, Option.isSome_some]), ?_⟩,
    hoffence, hsearch⟩
  intro way' d' hfollow' hoffends
  obtain ⟨start, rest, e', rfl, hstart, he'⟩ := exists_offending_start hfollow' hoffends
  rcases hfirst start e' hstart he' with rfl | hbefore
  · rcases rest with _ | ⟨i, rest⟩
    · exact .inl (List.append_nil _).symm
    · exact .inr (way.before_append i rest)
  · exact .inr (hbefore.append_right rest)

/-- An expression may stand in a template if it is a name or a chain of names other than self and
constants; and one that has a node that offends is refused for the first such node. -/
theorem check_expr (place : Expr.Place) (t : SourceExpr) :
    (t.expr.check place = .ok () ↔ t.IsMember ∧ t.Allowed) ∧
    ((∃ (way : Way) (d : SourceExpr), way.follow parts t = some d ∧ d.Offends) →
      ∃ way d problem, t.FirstOffence way d ∧ t.expr.check place = .error problem ∧
        Refused place d problem.code problem.message) := by
  refine ⟨by rw [Expr.check_eq_ok_iff, isMember_expr, allowed_expr], ?_⟩
  rintro ⟨way, d, hfollow, hoffends⟩
  obtain ⟨way, d, offence, hfirst, hoffence, hsearch⟩ := exists_firstOffence hfollow hoffends
  refine ⟨way, d, offence.problem place, hfirst, ?_, refused_of_offence hoffence⟩
  rw [Expr.check, hsearch]

/-- A call as a subscript, and self as a subscript further down in the value. -/
def calledExpr : SourceExpr :=
  index none (member none (index none (name none "rows") (name none "self")) "cells")
    (other none "Call" [name none "first", name none "self"])

/-- It is refused for the call, although self is written before it. -/
theorem check_expr_called :
    (∃ (way : Way) (d : SourceExpr), way.follow parts calledExpr = some d ∧ d.Offends) ∧
    ∃ way d problem, calledExpr.FirstOffence way d ∧
      calledExpr.expr.check .child = .error problem ∧
      Refused .child d problem.code problem.message ∧
      problem.message = "Expression evaluation is not allowed (found Call)" := by
  have hoffends : ∃ (way : Way) (d : SourceExpr), way.follow parts calledExpr = some d ∧
      d.Offends :=
    ⟨[0, 0, 1], name none "self", rfl, rfl⟩
  obtain ⟨way, d, problem, hfirst, hcheck, hrefused⟩ := (check_expr .child calledExpr).2 hoffends
  have hcall : calledExpr.expr.check .child = .error (.evaluatedKind "Call") := by
    decide +kernel
  obtain rfl : .evaluatedKind "Call" = problem := Except.error.inj (hcall.symm.trans hcheck)
  exact ⟨hoffends, way, d, _, hfirst, hcheck, hrefused, by decide +kernel⟩

end SourceExpr

end TemplateCompiler
