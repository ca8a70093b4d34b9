import TemplateCompiler.Code.Module
import TemplateCompiler.Manifest

/-!
# Scopes

A stack of frames, innermost first. A frame binds names for a part of a template and gathers the
declarations that belong at the top of the function the part becomes. It takes over what is bound
around it, so the innermost frame alone tells whether a name is bound, and closing it forgets
exactly what opening it added.
-/

namespace TemplateCompiler

structure Frame where
  names : List String
  declarations : List Declaration
  /-- All names that are bound at this level, taken over or the frame's own. Their order does not
  matter. -/
  bound : List String

namespace Frame

/-- The names bound inside some frames. -/
def boundIn : List Frame → List String
  | [] => []
  | frame :: _ => frame.bound

/-- A new frame inside others. -/
def inside (around : List Frame) (names : List String) : Frame :=
  ⟨names, [], names ++ boundIn around⟩

end Frame

structure Scope where
  frames : List Frame

namespace Scope

/-- What an empty stack cannot do. -/
inductive Fault where
  | closeWithoutFrame
  | queueWithoutFrame
deriving DecidableEq, Repr

def Fault.message : Fault → String
  | closeWithoutFrame => "close_scope() called with no open scope"
  | queueWithoutFrame => "queue_declaration() called with no open scope"

def empty : Scope := ⟨[]⟩

def depth (s : Scope) : Nat :=
  s.frames.length

def enter (s : Scope) (names : List String) : Scope :=
  ⟨.inside s.frames names :: s.frames⟩

/-- The innermost frame's declarations, in the order they were queued, and the frames around it. -/
def close (s : Scope) : Except Fault (List Declaration × Scope) :=
  match s.frames with
  | [] => .error .closeWithoutFrame
  | frame :: rest => .ok (frame.declarations, ⟨rest⟩)

def queue (s : Scope) (declaration : Declaration) : Except Fault Scope :=
  match s.frames with
  | [] => .error .queueWithoutFrame
  | frame :: rest =>
    .ok ⟨{ frame with declarations := frame.declarations ++ [declaration] } :: rest⟩

def isBound (s : Scope) (name : String) : Bool :=
  (Frame.boundIn s.frames).contains name

/-- The bound names without repetition, those of outer frames first. -/
def visible (s : Scope) : List String :=
  s.frames.reverse.foldl (fun seen frame => frame.names.foldl record seen) []

@[simp]
theorem close_enter (s : Scope) (names : List String) : (s.enter names).close = .ok ([], s) := rfl

@[simp]
theorem isBound_enter (s : Scope) (names : List String) (name : String) :
    (s.enter names).isBound name = (names.contains name || s.isBound name) := by
  simp [isBound, enter, Frame.boundIn, Frame.inside]

theorem isBound_eq_contains (s : Scope) : s.isBound = (Frame.boundIn s.frames).contains := rfl

@[simp]
theorem depth_enter (s : Scope) (names : List String) : (s.enter names).depth = s.depth + 1 := rfl

theorem visible_eq_foldl (s : Scope) :
    s.visible = (s.frames.reverse.flatMap Frame.names).foldl record [] :=
  List.foldl_flatMap.symm

end Scope

end TemplateCompiler
