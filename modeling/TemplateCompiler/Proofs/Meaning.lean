import TemplateCompiler.Proofs.Locations
import TemplateCompiler.Proofs.UsedNames

/-!
# What an expression means

An expression has a value wherever its names have one. How a member and a subscript are read is left
open, and so is what else comes of reading them. With its names read from the instance it has the
value that it has where every name that is not bound is a member of the instance. Nothing is lost by
it: the members of the instance can be told from the rest (`CompileM.qualify_faithful`).
-/

namespace TemplateCompiler

universe u v

variable {m : Type u → Type v} {V : Type u}

/-- How the parts of an expression are read. -/
structure Reader (m : Type u → Type v) (V : Type u) where
  member : V → String → m V
  index : V → V → m V
  constant : Constant → m V
  foreign : String → m V

namespace Expr

def value [Monad m] (reader : Reader m V) (names : String → m V) : Expr → m V
  | .name _ id => names id
  | .member _ value id => do reader.member (← value.value reader names) id
  | .index _ value key => do
    reader.index (← value.value reader names) (← key.value reader names)
  | .constant _ c => reader.constant c
  | .foreign _ kind => reader.foreign kind

/-- The names an expression reads from the instance that are not listed yet. -/
def newNames (c : Context) (e : Expr) : List String :=
  (e.names.filter fun name => !c.scope.isBound name && !c.manifest.contains name).eraseDups

variable (inst : String) (bound : String → Bool)

/-- The expression that reads from the instance what is not bound. -/
def qualified : Expr → Expr
  | .name span id => if bound id then .name span id else .member none (.name none inst) id
  | .member span value id => .member span value.qualified id
  | .index span value key => .index span value.qualified key.qualified
  | .constant span c => .constant span c
  | .foreign span kind => .foreign span kind

def isName : Expr → Bool
  | .name _ id => id == inst
  | _ => false

/-- The expression with a bare name in place of each member of the instance. -/
def unqualified : Expr → Expr
  | .name span id => .name span id
  | .member span value id =>
    if value.isName inst then .name span id else .member span value.unqualified id
  | .index span value key => .index span value.unqualified key.unqualified
  | .constant span c => .constant span c
  | .foreign span kind => .foreign span kind

end Expr

/-- Code read as an expression, if it is one. -/
def Code.expr? : Code → Option Expr
  | .ref id => some (.name none id)
  | .name _ span id => some (.name span id)
  | .member span value id => do return .member span (← value.expr?) id
  | .index span value key => do return .index span (← value.expr?) (← key.expr?)
  | .constant span c => some (.constant span c)
  | .foreign span kind => some (.foreign span kind)
  | _ => none

namespace Expr

variable {inst : String} {bound : String → Bool}

theorem expr?_qualify (site : Site) :
    ∀ e : Expr, (e.qualify inst site bound).expr? = some (e.qualified inst bound)
  | .name _ id => by
    rw [qualify, qualified]
    split <;> rfl
  | .member _ value _ => by simp [qualify, qualified, Code.expr?, expr?_qualify site value]
  | .index _ value key => by
    simp [qualify, qualified, Code.expr?, expr?_qualify site value, expr?_qualify site key]
  | .constant .. | .foreign .. => rfl

theorem value_qualified [Monad m] (reader : Reader m V) (names : String → m V) :
    ∀ e : Expr, (e.qualified inst bound).value reader names = e.value reader fun name =>
      if bound name then names name else names inst >>= fun i => reader.member i name
  | .name _ id => by
    rw [qualified, value]
    split <;> rfl
  | .member _ value _ => by simp only [qualified, Expr.value, value_qualified reader names value]
  | .index _ value key => by
    simp only [qualified, Expr.value, value_qualified reader names value,
      value_qualified reader names key]
  | .constant .. | .foreign .. => rfl

/-- Only what is read from the instance begins with its name, which nothing else is bound to. -/
theorem isName_qualified (h : bound inst = false) (e : Expr) :
    (e.qualified inst bound).isName inst = false := by
  cases e with
  | name span id =>
    rw [qualified]
    split
    · rename_i hid
      exact beq_eq_false_iff_ne.2 fun heq => by simp [← heq, hid] at h
    · rfl
  | member | index | constant | foreign => rfl

theorem unlocated_unqualified_qualified (h : bound inst = false) :
    ∀ e : Expr, ((e.qualified inst bound).unqualified inst).unlocated = e.unlocated
  | .name _ id => by
    rw [qualified]
    split
    · rfl
    · simp [unqualified, isName, unlocated]
  | .member _ value _ => by
    rw [qualified, unqualified, isName_qualified h, if_neg Bool.false_ne_true, unlocated,
      unlocated_unqualified_qualified h value, unlocated]
  | .index _ value key => by
    rw [qualified, unqualified, unlocated, unlocated_unqualified_qualified h value,
      unlocated_unqualified_qualified h key, unlocated]
  | .constant .. | .foreign .. => rfl

end Expr

namespace CompileM

variable {env : Env} {c : Context}

theorem forM_useName_yields (names : List String) : ∀ c : Context,
    Yields (names.forM useName) c () { c with
      manifest.usedNames := names.foldl record c.manifest.usedNames } := by
  induction names with
  | nil => exact fun _ => rfl
  | cons name rest ih =>
    intro c
    rw [List.forM, yields_bind]
    exact ⟨(), _, rfl, ih _⟩

theorem qualify_yields_newNames (site : Site) (e : Expr) :
    Yields (qualify env site e) c (e.qualify env.config.instanceParam site c.scope.isBound)
      { c with manifest.usedNames := c.manifest.usedNames ++ e.newNames c } := by
  have hnames : (e.freeNames c.scope.isBound).foldl record c.manifest.usedNames =
      c.manifest.usedNames ++ e.newNames c := by
    rw [foldl_record, unbound, e.freeNames_eq_filter, List.filter_filter, Expr.newNames]
    simp only [Bool.and_comm]
    rfl
  have hused := forM_useName_yields (e.freeNames c.scope.isBound) c
  rw [hnames] at hused
  exact yields_bind.2 ⟨c, c, rfl, yields_bind.2 ⟨(), _, hused, rfl⟩⟩

/-- What is read from the instance is what the template means: the same value, whatever reading is,
and the same expression but for the instance. The names it reads are listed where they first
occur. -/
theorem qualify_faithful [Monad m] (reader : Reader m V) (site : Site) (e : Expr)
    (hinst : c.scope.isBound env.config.instanceParam = false) :
    ∃ code qualified, Yields (qualify env site e) c code
        { c with manifest.usedNames := c.manifest.usedNames ++ e.newNames c } ∧
      code.expr? = some qualified ∧
      (∀ names : String → m V, qualified.value reader names = e.value reader fun name =>
        if c.scope.isBound name then names name
        else names env.config.instanceParam >>= fun inst => reader.member inst name) ∧
      (qualified.unqualified env.config.instanceParam).unlocated = e.unlocated :=
  ⟨_, _, qualify_yields_newNames site e, e.expr?_qualify site,
    fun names => e.value_qualified reader names, e.unlocated_unqualified_qualified hinst⟩

end CompileM

/-- Reading as it is written, so that a value shows what is read for it. -/
def Reader.written : Reader Option String where
  member value name := some s!"{value}.{name}"
  index value key := some s!"{value}[{key}]"
  constant c := some c.display
  foreign _ := none

/-- Where a row is bound and the rows it is one of are listed. -/
def rowContext : Context :=
  { Context.initial with scope := Scope.empty.enter ["row"], manifest := ⟨["rows"], []⟩ }

/-- Names like that of the instance, and like that of a member. -/
def rowExpr : Expr :=
  .index none (.member none (.index none (.name none "rows") (.name none "cmp")) "row")
    (.member none (.name none "row") "cmp")

theorem CompileM.qualify_faithful_row :
    rowContext.scope.isBound "cmp" = false ∧
    ∃ code qualified, Yields (qualify .default ⟨[], false⟩ rowExpr) rowContext code
        { rowContext with manifest.usedNames := ["rows", "cmp"] } ∧
      code.expr? = some qualified ∧
      qualified.value .written (fun name => if name ∈ ["row", "cmp"] then some name else none) =
        some "cmp.rows[cmp.cmp].row[row.cmp]" ∧
      (qualified.unqualified "cmp").unlocated = rowExpr := by
  have hinst : rowContext.scope.isBound "cmp" = false := by decide +kernel
  obtain ⟨code, qualified, hyields, hexpr, hvalue, hback⟩ :=
    @qualify_faithful Option String .default rowContext _ .written ⟨[], false⟩ rowExpr hinst
  exact ⟨hinst, code, qualified, hyields, hexpr, (hvalue _).trans (by decide +kernel), hback⟩

end TemplateCompiler
