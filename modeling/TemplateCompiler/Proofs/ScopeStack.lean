import Mathlib.Data.List.Nodup
import TemplateCompiler.Proofs.Components

/-!
# A scope is a stack of name lists

Each frame of a scope keeps what is bound at its level and the declarations that are queued there.
A stack of name lists keeps neither: it numbers the lists as they are opened, and notes each
declaration under the number of the list that is innermost then. Whatever is called, the scope
answers as the stack does, and closing gives back what is noted under the list that is closed
(`scope_refines_stack`).
-/

namespace TemplateCompiler

/-- A use of the scope of a compilation. -/
inductive ScopeCall where
  | opening (names : List String)
  | closing
  | queueing (declaration : Declaration)

/-- What is called, with the declarations that it gives back where it closes a frame. -/
def ScopeCall.step : ScopeCall → CompileM (Option (List Declaration))
  | opening names => do
    CompileM.openScope names
    return none
  | closing => some <$> CompileM.closeScope
  | queueing declaration => do
    CompileM.queue declaration
    return none

/-- Where calls have come to, and what the closing ones among them have given back. -/
structure ScopeRun where
  context : Context
  returned : List (List Declaration)

namespace ScopeRun

abbrev frames (r : ScopeRun) : List Frame :=
  r.context.scope.frames

/-- One more call. After one that fails, what is called next finds the context that it has left. -/
def call (r : ScopeRun) (call : ScopeCall) : ScopeRun :=
  match call.step r.context with
  | .ok answer c => ⟨c, r.returned ++ answer.toList⟩
  | .error _ c => ⟨c, r.returned⟩

def run (r : ScopeRun) (calls : List ScopeCall) : ScopeRun :=
  calls.foldl call r

end ScopeRun

/-- The stack that calls are meant to keep. The innermost list stands first, each with the number of
its opening. -/
structure NameStack where
  lists : List (Nat × List String)
  opened : Nat
  closed : List Nat
  queued : List (Nat × Declaration)

namespace NameStack

def empty : NameStack := ⟨[], 0, [], []⟩

def call (n : NameStack) : ScopeCall → NameStack
  | .opening names => { n with lists := (n.opened, names) :: n.lists, opened := n.opened + 1 }
  | .closing =>
    match n.lists with
    | [] => n
    | (k, _) :: rest => { n with lists := rest, closed := n.closed ++ [k] }
  | .queueing declaration =>
    match n.lists with
    | [] => n
    | (k, _) :: _ => { n with queued := n.queued ++ [(k, declaration)] }

def run (n : NameStack) (calls : List ScopeCall) : NameStack :=
  calls.foldl call n

/-- The declarations that were queued while a list was the innermost. -/
def queuedIn (n : NameStack) (k : Nat) : List Declaration :=
  (n.queued.filter fun q => q.1 == k).map Prod.snd

end NameStack

/-- A scope with the answers of a stack of name lists, the innermost first. -/
structure Scope.AnswersAs (s : Scope) (lists : List (List String)) : Prop where
  depth : s.depth = lists.length
  visible : s.visible = lists.reverse.flatten.eraseDups
  nodup : s.visible.Nodup
  isBound : ∀ name, s.isBound name = true ↔ name ∈ s.visible

/-- Calls of which every one that closes matches one that opens, and none that opens is left. -/
inductive ScopeCall.Balanced : List ScopeCall → Prop
  | nil : Balanced []
  | queueing {declaration rest} (more : Balanced rest) : Balanced (.queueing declaration :: rest)
  | nested {names body rest} (inner : Balanced body) (more : Balanced rest) :
      Balanced (.opening names :: (body ++ .closing :: rest))

/-! ## What a call does -/

section Calls

variable (c : Context) (r : ScopeRun)

theorem ScopeCall.step_closing :
    closing.step c =
      match c.scope.frames with
      | [] => .error (.scope .closeWithoutFrame) c
      | frame :: rest => .ok (some frame.declarations)
          { c with scope := ⟨rest⟩
                   log := c.log ++ [.closed c.scope.depth frame.declarations.length] } := by
  rcases c with ⟨⟨_ | ⟨frame, rest⟩⟩, _, _, _, _, _⟩ <;> rfl

theorem ScopeCall.step_queueing (declaration : Declaration) :
    (queueing declaration).step c =
      match c.scope.frames with
      | [] => .error (.scope .queueWithoutFrame) c
      | _ :: _ => .ok none { c with scope := ⟨queued c.scope.frames [declaration]⟩ } := by
  rcases c with ⟨⟨_ | ⟨frame, rest⟩⟩, _, _, _, _, _⟩ <;> rfl

/-- A call that fails leaves the context as it is. -/
theorem ScopeCall.eq_of_error {call : ScopeCall} {e : Failure} {c' : Context}
    (h : call.step c = .error e c') : c' = c := by
  cases call with
  | opening names => cases h
  | closing =>
    rw [step_closing] at h
    split at h <;> cases h
    rfl
  | queueing declaration =>
    rw [step_queueing] at h
    split at h <;> cases h
    rfl

namespace ScopeRun

theorem call_opening (names : List String) :
    (r.call (.opening names)).frames = .inside r.frames names :: r.frames ∧
      (r.call (.opening names)).returned = r.returned :=
  ⟨rfl, List.append_nil _⟩

variable {r} {frame : Frame} {rest : List Frame}

theorem call_closing (h : r.frames = frame :: rest) :
    (r.call .closing).frames = rest ∧
      (r.call .closing).returned = r.returned ++ [frame.declarations] := by
  have hstep := ScopeCall.step_closing r.context
  simp only [h] at hstep
  rw [call, hstep]
  exact ⟨rfl, rfl⟩

theorem call_queueing (h : r.frames = frame :: rest) (declaration : Declaration) :
    (r.call (.queueing declaration)).frames = queued r.frames [declaration] ∧
      (r.call (.queueing declaration)).returned = r.returned := by
  have hstep := ScopeCall.step_queueing r.context declaration
  simp only [h] at hstep
  rw [call, hstep, h]
  exact ⟨rfl, List.append_nil _⟩

/-- Where no frame is open, only opening one does anything. -/
theorem call_of_nil (h : r.frames = []) {call : ScopeCall}
    (hcall : ∀ names, call ≠ .opening names) : r.call call = r := by
  cases call with
  | opening names => exact absurd rfl (hcall names)
  | closing =>
    have hstep := ScopeCall.step_closing r.context
    simp only [h] at hstep
    rw [ScopeRun.call, hstep]
  | queueing declaration =>
    have hstep := ScopeCall.step_queueing r.context declaration
    simp only [h] at hstep
    rw [ScopeRun.call, hstep]

end ScopeRun

end Calls

/-! ## What is bound -/

/-- Frames of which each binds its own names and what is bound around it. -/
def Frame.Inherit : List Frame → Prop
  | [] => True
  | frame :: rest =>
    (∀ name, name ∈ frame.bound ↔ name ∈ frame.names ∨ name ∈ boundIn rest) ∧ Inherit rest

theorem Frame.Inherit.inside {frames : List Frame} (h : Inherit frames) (names : List String) :
    Inherit (.inside frames names :: frames) :=
  ⟨fun _ => List.mem_append, h⟩

theorem Frame.Inherit.queued {frames : List Frame} (h : Inherit frames)
    (ds : List Declaration) : Inherit (queued frames ds) := by
  cases frames with
  | nil => exact h
  | cons frame rest => exact h

theorem Frame.Inherit.mem_boundIn {name : String} :
    ∀ {frames : List Frame}, Inherit frames →
      (name ∈ boundIn frames ↔ name ∈ frames.flatMap Frame.names)
  | [], _ => by simp [boundIn]
  | frame :: rest, ⟨hframe, hrest⟩ => by
    rw [boundIn, hframe, hrest.mem_boundIn, List.flatMap_cons, List.mem_append]

/-- What is visible is each name of the frames, where it first occurs from the outside in. -/
theorem Scope.visible_eq (s : Scope) :
    s.visible = (s.frames.map Frame.names).reverse.flatten.eraseDups := by
  have hall : ∀ names, unbound [] names = names := fun names => List.filter_eq_self.2 (by simp)
  rw [visible_eq_foldl, foldl_record, hall, List.nil_append, List.flatMap_def, List.map_reverse]

theorem Scope.answersAs {s : Scope} (h : Frame.Inherit s.frames) :
    s.AnswersAs (s.frames.map Frame.names) where
  depth := (List.length_map _).symm
  visible := s.visible_eq
  nodup := by
    rw [visible_eq_foldl]
    exact nodup_foldl_record _ List.nodup_nil
  isBound name := by
    rw [isBound, List.contains_iff_mem, h.mem_boundIn, visible_eq, List.mem_eraseDups]
    simp [List.mem_flatMap]

/-! ## What a run keeps -/

/-- A run has come to where the stack is: the frames hold its lists and what is noted under each,
and what is given back is what is noted under the lists that are closed. -/
structure ScopeRun.Refines (r : ScopeRun) (n : NameStack) : Prop where
  inherit : Frame.Inherit r.frames
  frames : r.frames.map (fun frame => (frame.names, frame.declarations)) =
    n.lists.map fun l => (l.2, n.queuedIn l.1)
  returned : r.returned = n.closed.map n.queuedIn
  numbers : (n.closed ++ n.lists.map Prod.fst).Perm (List.range n.opened)
  queued_lt : ∀ q ∈ n.queued, q.1 < n.opened

namespace NameStack

variable {n : NameStack}

theorem queuedIn_eq_nil (h : ∀ q ∈ n.queued, q.1 < n.opened) : n.queuedIn n.opened = [] := by
  rw [queuedIn, List.filter_eq_nil_iff.2 fun q hq => by simpa using (h q hq).ne, List.map_nil]

variable {k : Nat} {names : List String} {lists : List (Nat × List String)}

theorem call_closing (h : n.lists = (k, names) :: lists) :
    n.call .closing = { n with lists, closed := n.closed ++ [k] } := by
  rw [call, h]

theorem call_queueing (h : n.lists = (k, names) :: lists) (declaration : Declaration) :
    n.call (.queueing declaration) = { n with queued := n.queued ++ [(k, declaration)] } := by
  rw [call, h]

/-- What is queued is noted under the innermost list alone. -/
theorem queuedIn_queueing (h : n.lists = (k, names) :: lists) (declaration : Declaration)
    (j : Nat) : (n.call (.queueing declaration)).queuedIn j =
      n.queuedIn j ++ if k = j then [declaration] else [] := by
  rw [call_queueing h, queuedIn, List.filter_append, List.map_append]
  by_cases hk : k = j <;> simp [queuedIn, hk]

end NameStack

namespace ScopeRun.Refines

variable {r : ScopeRun} {n : NameStack}

theorem opening (h : Refines r n) (names : List String) :
    Refines (r.call (.opening names)) (n.call (.opening names)) := by
  obtain ⟨hframes, hreturned⟩ := r.call_opening names
  refine ⟨?_, ?_, hreturned.trans h.returned, ?_, fun q hq => Nat.lt_succ_of_lt (h.queued_lt q hq)⟩
  · rw [hframes]
    exact h.inherit.inside names
  · have hnew : n.queuedIn n.opened = [] := NameStack.queuedIn_eq_nil h.queued_lt
    rw [hframes, List.map_cons, h.frames]
    exact congrArg (fun ds => (names, ds) :: _) hnew.symm
  · rw [NameStack.call, List.map_cons, List.range_succ]
    exact List.perm_middle.trans ((h.numbers.cons _).trans (List.perm_append_singleton _ _).symm)

/-- Where a frame is open so is a list, and the frame holds what is noted under it. -/
theorem exists_list (h : Refines r n) {frame : Frame} {rest : List Frame}
    (hframes : r.frames = frame :: rest) :
    ∃ k lists, n.lists = (k, frame.names) :: lists ∧ frame.declarations = n.queuedIn k ∧
      rest.map (fun frame => (frame.names, frame.declarations)) =
        lists.map fun l => (l.2, n.queuedIn l.1) := by
  have hsame := h.frames
  rw [hframes] at hsame
  rcases hlists : n.lists with _ | ⟨⟨k, names⟩, lists⟩
  · simp [hlists] at hsame
  · simp only [hlists, List.map_cons, List.cons.injEq, Prod.mk.injEq] at hsame
    obtain ⟨⟨rfl, hds⟩, hrest⟩ := hsame
    exact ⟨k, lists, rfl, hds, hrest⟩

/-- Where no frame is open there is no list either. -/
theorem call_of_nil (h : Refines r n) (hframes : r.frames = []) {call : ScopeCall}
    (hcall : ∀ names, call ≠ .opening names) : Refines (r.call call) (n.call call) := by
  have hlists : n.lists = [] := by
    have hsame := h.frames
    rw [hframes] at hsame
    exact List.map_eq_nil_iff.1 hsame.symm
  have hstack : n.call call = n := by
    cases call with
    | opening names => exact absurd rfl (hcall names)
    | closing | queueing declaration => rw [NameStack.call, hlists]
  rw [ScopeRun.call_of_nil hframes hcall, hstack]
  exact h

theorem closing (h : Refines r n) : Refines (r.call .closing) (n.call .closing) := by
  rcases hframes : r.frames with _ | ⟨frame, rest⟩
  · exact h.call_of_nil hframes (by simp)
  obtain ⟨hrest, hreturned⟩ := call_closing hframes
  obtain ⟨k, lists, hlists, hds, htail⟩ := h.exists_list hframes
  have hinherit := h.inherit
  have hnumbers := h.numbers
  rw [hframes] at hinherit
  rw [hlists] at hnumbers
  rw [NameStack.call_closing hlists]
  refine ⟨hrest ▸ hinherit.2, hrest ▸ htail, ?_, ?_, h.queued_lt⟩
  · rw [hreturned, h.returned, hds, List.map_append]
    rfl
  · simpa using hnumbers

theorem queueing (h : Refines r n) (declaration : Declaration) :
    Refines (r.call (.queueing declaration)) (n.call (.queueing declaration)) := by
  rcases hframes : r.frames with _ | ⟨frame, rest⟩
  · exact h.call_of_nil hframes (by simp)
  obtain ⟨hqueued, hreturned⟩ := call_queueing hframes declaration
  obtain ⟨k, lists, hlists, hds, htail⟩ := h.exists_list hframes
  have hnumbers := h.numbers
  rw [hlists] at hnumbers
  -- no number is given twice, so the lists that are closed or further out keep what they have
  have hnodup : (n.closed ++ k :: lists.map Prod.fst).Nodup :=
    hnumbers.nodup_iff.2 List.nodup_range
  have hk : k ∉ n.closed ++ lists.map Prod.fst := (List.nodup_cons.1 (List.nodup_middle.1 hnodup)).1
  have hother : ∀ j ∈ n.closed ++ lists.map Prod.fst,
      (n.call (.queueing declaration)).queuedIn j = n.queuedIn j := by
    intro j hj
    rw [NameStack.queuedIn_queueing hlists, if_neg, List.append_nil]
    rintro rfl
    exact hk hj
  have hstack := NameStack.call_queueing hlists declaration
  refine ⟨hqueued ▸ h.inherit.queued _, ?_, ?_, by rw [hstack]; exact h.numbers, ?_⟩
  · have hlast : (n.call (.queueing declaration)).queuedIn k =
        frame.declarations ++ [declaration] := by
      rw [NameStack.queuedIn_queueing hlists, if_pos rfl, hds]
    have hrest : lists.map (fun l => (l.2, (n.call (.queueing declaration)).queuedIn l.1)) =
        lists.map fun l => (l.2, n.queuedIn l.1) :=
      List.map_congr_left fun l hl => by
        rw [hother l.1 (List.mem_append_right _ (List.mem_map_of_mem hl))]
    have hsame : (n.call (.queueing declaration)).lists = (k, frame.names) :: lists := by
      rw [hstack]
      exact hlists
    rw [hqueued, hframes, hsame, List.map_cons, hlast, hrest, ← htail]
    rfl
  · have hsame : (n.call (.queueing declaration)).closed = n.closed := by rw [hstack]
    rw [hreturned, h.returned, hsame]
    exact List.map_congr_left fun j hj => (hother j (List.mem_append_left _ hj)).symm
  · have hlt : k < n.opened := List.mem_range.1 (hnumbers.mem_iff.1 (by simp))
    rw [hstack]
    intro q hq
    rcases List.mem_append.1 hq with hq | hq
    · exact h.queued_lt q hq
    · rw [List.mem_singleton.1 hq]
      exact hlt

theorem call (h : Refines r n) : ∀ call : ScopeCall, Refines (r.call call) (n.call call)
  | .opening names => h.opening names
  | .closing => h.closing
  | .queueing declaration => h.queueing declaration

theorem run (h : Refines r n) (calls : List ScopeCall) : Refines (r.run calls) (n.run calls) := by
  induction calls generalizing r n with
  | nil => exact h
  | cons call rest ih => exact ih (h.call call)

theorem answersAs (h : Refines r n) :
    r.context.scope.AnswersAs (n.lists.map Prod.snd) := by
  have hnames : r.frames.map Frame.names = n.lists.map Prod.snd := by
    simpa [Function.comp_def] using congrArg (List.map Prod.fst) h.frames
  rw [← hnames]
  exact Scope.answersAs h.inherit

end ScopeRun.Refines

/-! ## Matching calls -/

theorem ScopeRun.run_append (r : ScopeRun) (calls more : List ScopeCall) :
    r.run (calls ++ more) = (r.run calls).run more :=
  List.foldl_append

/-- What is balanced leaves the frames around it, with declarations queued on the innermost. -/
theorem ScopeCall.Balanced.frames_run {body : List ScopeCall} (h : Balanced body) :
    ∀ {r : ScopeRun}, r.frames ≠ [] → ∃ ds, (r.run body).frames = queued r.frames ds := by
  induction h with
  | nil => exact fun _ => ⟨[], (queued_nil _).symm⟩
  | @queueing declaration rest _ ih =>
    intro r hr
    obtain ⟨frame, frames, hframes⟩ := List.exists_cons_of_ne_nil hr
    obtain ⟨hqueued, -⟩ := ScopeRun.call_queueing hframes declaration
    obtain ⟨ds, hds⟩ := @ih (r.call (.queueing declaration)) (by simp [hqueued, hframes, queued])
    exact ⟨declaration :: ds, hds.trans (by rw [hqueued, queued_queued]; rfl)⟩
  | @nested names body rest _ _ ihbody ihrest =>
    intro r hr
    obtain ⟨hopened, -⟩ := r.call_opening names
    obtain ⟨inner, hinner⟩ := @ihbody (r.call (.opening names)) (by simp [hopened])
    rw [hopened] at hinner
    obtain ⟨hclosed, -⟩ := ScopeRun.call_closing hinner
    have hrun : r.run (.opening names :: (body ++ .closing :: rest)) =
        (((r.call (.opening names)).run body).call .closing).run rest :=
      ScopeRun.run_append _ body _
    rw [hrun, ← hclosed]
    exact ihrest (by rw [hclosed]; exact hr)

theorem ScopeCall.Balanced.scope_run {body : List ScopeCall} (h : Balanced body)
    (r : ScopeRun) (names : List String) :
    (r.run (.opening names :: body ++ [.closing])).context.scope = r.context.scope := by
  obtain ⟨hopened, -⟩ := r.call_opening names
  obtain ⟨ds, hds⟩ := @frames_run _ h (r.call (.opening names)) (by simp [hopened])
  rw [hopened] at hds
  obtain ⟨hclosed, -⟩ := ScopeRun.call_closing hds
  rw [ScopeRun.run_append]
  exact congrArg Scope.mk hclosed

theorem ScopeCall.Balanced.append {calls more : List ScopeCall} (h : Balanced calls)
    (hmore : Balanced more) : Balanced (calls ++ more) := by
  induction h with
  | nil => exact hmore
  | queueing _ ih => exact .queueing ih
  | nested inner _ _ ih =>
    rw [List.cons_append, List.append_assoc]
    exact .nested inner ih

/-- Calls and the lists that they leave open, each by the call that opened it and what is balanced
after that. -/
inductive ScopeCall.Leave : List ScopeCall → List (Nat × List String) → Prop
  | none {calls} : Leave calls []
  | list {before body k names lists} (outer : Leave before lists) (inner : Balanced body) :
      Leave (before ++ .opening names :: body) ((k, names) :: lists)

theorem ScopeCall.Leave.append {calls body : List ScopeCall} {lists : List (Nat × List String)}
    (h : Leave calls lists) (hbody : Balanced body) : Leave (calls ++ body) lists := by
  cases h with
  | none => exact .none
  | list outer inner =>
    rw [List.append_assoc, List.cons_append]
    exact .list outer (inner.append hbody)

theorem ScopeCall.Leave.call {calls : List ScopeCall} {n : NameStack} (h : Leave calls n.lists)
    (call : ScopeCall) : Leave (calls ++ [call]) (n.call call).lists := by
  cases call with
  | opening names => exact .list h .nil
  | queueing declaration =>
    have hsame : (n.call (.queueing declaration)).lists = n.lists := by
      rw [NameStack.call]
      split <;> rfl
    rw [hsame]
    exact h.append (.queueing .nil)
  | closing =>
    rcases hlists : n.lists with _ | ⟨⟨k, names⟩, lists⟩
    · have hnone : (n.call .closing).lists = [] := by simp [NameStack.call, hlists]
      rw [hnone]
      exact .none
    · rw [NameStack.call_closing hlists]
      rw [hlists] at h
      -- with what came after its opening, the list that is closed is balanced
      cases h with
      | list outer inner =>
        rw [List.append_assoc, List.cons_append]
        exact outer.append (.nested inner .nil)

theorem ScopeCall.leave_run (calls : List ScopeCall) :
    Leave calls (NameStack.empty.run calls).lists := by
  induction calls using List.reverseRecOn with
  | nil => exact .none
  | append_singleton calls call ih =>
    rw [NameStack.run, List.foldl_append]
    exact ih.call call

/-! ## The refinement -/

/-- Whatever is called, a scope that is empty at first does what a stack of name lists does. A name
is bound if it is visible, and visible are the names of the open lists without repetition, those of
outer lists first. What the closing calls give back is, for each list in turn, what was queued while
it was the innermost; and each list that was opened is closed once or still open, so nothing that is
queued is given back twice. A list that is open was opened by a call that is not matched yet, the
call that closes it restores the scope as it was before that, and a call that fails leaves the
context as it is. -/
theorem scope_refines_stack (c : Context) (calls : List ScopeCall) :
    let r := ScopeRun.run ⟨{ c with scope := .empty }, []⟩ calls
    let n := NameStack.empty.run calls
    r.context.scope.AnswersAs (n.lists.map Prod.snd) ∧
      r.returned = n.closed.map n.queuedIn ∧
      (n.closed ++ n.lists.map Prod.fst).Perm (List.range n.opened) ∧
      (n.lists ≠ [] → ∃ before names body,
        calls = before ++ .opening names :: body ∧ ScopeCall.Balanced body) ∧
      (∀ names body, ScopeCall.Balanced body →
        (r.run (.opening names :: body ++ [.closing])).context.scope = r.context.scope) ∧
      ∀ call e c', ScopeCall.step call r.context = .error e c' → c' = r.context := by
  intro r n
  have hempty : ScopeRun.Refines ⟨{ c with scope := .empty }, []⟩ .empty :=
    ⟨trivial, rfl, rfl, .nil, by simp [NameStack.empty]⟩
  have h : ScopeRun.Refines r n := hempty.run calls
  refine ⟨h.answersAs, h.returned, h.numbers, fun hopen => ?_, fun names body hbody => ?_,
    fun call e c' hstep => ?_⟩
  · obtain ⟨⟨k, names⟩, lists, hlists⟩ := List.exists_cons_of_ne_nil hopen
    have hleave := ScopeCall.leave_run calls
    rw [hlists] at hleave
    cases hleave with
    | list _ hbody => exact ⟨_, names, _, rfl, hbody⟩
  · exact hbody.scope_run r names
  · exact ScopeCall.eq_of_error r.context hstep

/-- The inner list hides a name of the outer one and has another twice. Opening and closing a third
leaves what is visible, and where no list is open, closing fails. -/
theorem scope_refines_stack_shadowed :
    let calls : List ScopeCall := [.opening ["item", "index"], .opening ["row", "item", "row"]]
    let body : List ScopeCall := [.queueing (.assign "seen" (.constant none .null)),
      .opening ["item"], .closing]
    let start : ScopeRun := ⟨{ Context.initial with scope := .empty }, []⟩
    let r := start.run calls
    r.context.scope.visible = ["item", "index", "row"] ∧
      (∃ before names inner, calls = before ++ .opening names :: inner ∧
        ScopeCall.Balanced inner) ∧
      ScopeCall.Balanced body ∧
      (r.run (.opening ["cell"] :: body ++ [.closing])).context.scope = r.context.scope ∧
      ∃ e c', ScopeCall.step .closing start.context = .error e c' ∧ c' = start.context := by
  intro calls body start r
  have hbody : ScopeCall.Balanced body := .queueing (.nested .nil .nil)
  obtain ⟨hanswers, -, -, hopened, hrestored, -⟩ := scope_refines_stack .initial calls
  obtain ⟨-, -, -, -, -, hfailed⟩ := scope_refines_stack .initial []
  exact ⟨hanswers.visible.trans (by decide +kernel), hopened (List.cons_ne_nil _ _), hbody,
    hrestored ["cell"] body hbody, _, _, rfl, hfailed .closing _ _ rfl⟩

end TemplateCompiler
