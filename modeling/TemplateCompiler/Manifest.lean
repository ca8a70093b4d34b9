import TemplateCompiler.Text.Quoted

/-!
# What a module depends on

The names a template reads from its instance and the component modules it refers to, each without
repetition in the order of first use. A manifest only grows.
-/

namespace TemplateCompiler

structure Manifest where
  usedNames : List String
  components : List String
deriving DecidableEq, Repr

/-- A list with one more member at its end, unless it is a member already. -/
def record (members : List String) (member : String) : List String :=
  if members.contains member then members else members ++ [member]

theorem mem_record {members : List String} {x y : String} :
    x ∈ record members y ↔ x ∈ members ∨ x = y := by
  rw [record]
  split
  · rename_i h
    rw [List.contains_iff_mem] at h
    refine ⟨Or.inl, ?_⟩
    rintro (hx | rfl)
    · exact hx
    · exact h
  · simp

theorem nodup_record {members : List String} (h : members.Nodup) (y : String) :
    (record members y).Nodup := by
  rw [record]
  split
  · exact h
  · rename_i hy
    rw [List.contains_iff_mem] at hy
    rw [List.nodup_append]
    refine ⟨h, by simp, ?_⟩
    rintro a ha b hb rfl
    exact hy (List.mem_singleton.1 hb ▸ ha)

namespace Manifest

def empty : Manifest := ⟨[], []⟩

def useName (m : Manifest) (name : String) : Manifest :=
  { m with usedNames := record m.usedNames name }

def useComponent (m : Manifest) (path : String) : Manifest :=
  { m with components := record m.components path }

def contains (m : Manifest) (name : String) : Bool :=
  m.usedNames.contains name

def display (m : Manifest) : String :=
  s!"DependencyRegistry(used_ids={Text.quotedTuple m.usedNames}, " ++
    s!"components={Text.quotedTuple m.components})"

end Manifest

end TemplateCompiler
