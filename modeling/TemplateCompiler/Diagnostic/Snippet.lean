import TemplateCompiler.Diagnostic.Color
import TemplateCompiler.Text.Lines

/-!
# Source snippets

The lines of a source around an error, each behind its number, the offending one marked and a caret
below it at the column of the error.
-/

namespace TemplateCompiler

/-- A number right aligned in three places. -/
def padNumber (n : Int) : String :=
  let digits := toString n
  String.ofList (List.replicate (3 - digits.length) ' ') ++ digits

/-- A caret after so many blanks. -/
def caret (column : Int) : String :=
  String.ofList (List.replicate column.toNat ' ' ++ ['^'])

/-- A source line behind its number. -/
def sourceLine (colors : Bool) (number : Int) (content : String) (isError : Bool) : String :=
  let mark := if isError then ">" else " "
  let tone := if isError then Color.brightRed else Color.dim
  let gutter := Color.paint colors [.yellow] (mark ++ padNumber number)
  s!"{gutter} | {Color.paint colors [tone] content}"

structure Snippet where
  lines : List (Int × String)
  errorLine : Int
  column : Option Int
deriving DecidableEq, Repr

namespace Snippet

/-- The lines of a source at most `context` before and after the error. -/
def ofSource (source : String) (errorLine context : Int) (column : Option Int) : Snippet :=
  let lines := Text.lines source
  let first := max 0 (errorLine - 1 - context)
  let last := min (lines.length : Int) (errorLine + context)
  let numbered := lines.zipIdx.map fun (content, i) => ((i : Int) + 1, content)
  { lines := numbered.filter fun line => first < line.1 && line.1 ≤ last
    errorLine, column }

def formatLine (colors : Bool) (s : Snippet) (line : Int × String) : List String :=
  let isError := line.1 == s.errorLine
  let shown := sourceLine colors line.1 line.2 isError
  match s.column with
  | some column =>
    if isError then
      let gutter := Color.paint colors [.dim] "     |"
      [shown, s!"{gutter} {Color.paint colors [.brightRed] (caret column)}"]
    else [shown]
  | none => [shown]

def format (colors : Bool) (s : Snippet) : String :=
  let edge := Color.paint colors [.dim] "   |"
  "\n".intercalate (edge :: s.lines.flatMap (s.formatLine colors) ++ [edge])

end Snippet

theorem mem_toString {n : Int} {c : Char} (h : c ∈ (toString n).toList) : c = '-' ∨ c.isDigit := by
  have hnat : ∀ m : Nat, c ∈ m.repr.toList → c.isDigit := fun m hm => by
    rw [Nat.repr, String.toList_ofList] at hm
    exact Nat.isDigit_of_mem_toDigits (by decide) (by decide) hm
  change c ∈ n.repr.toList at h
  cases n with
  | ofNat m => exact .inr (hnat m h)
  | negSucc m =>
    rw [Int.repr, String.toList_append] at h
    rcases List.mem_append.1 h with h | h
    · exact .inl (by simpa using h)
    · exact .inr (hnat m.succ h)

theorem mem_padNumber {n : Int} {c : Char} (h : c ∈ (padNumber n).toList) :
    c = ' ' ∨ c = '-' ∨ c.isDigit := by
  rw [padNumber, String.toList_append, String.toList_ofList] at h
  rcases List.mem_append.1 h with h | h
  · exact .inl (List.eq_of_mem_replicate h)
  · exact .inr (mem_toString h)

theorem mem_caret {column : Int} {c : Char} (h : c ∈ (caret column).toList) :
    c = ' ' ∨ c = '^' := by
  rw [caret, String.toList_ofList] at h
  rcases List.mem_append.1 h with h | h
  · exact .inl (List.eq_of_mem_replicate h)
  · exact .inr (List.mem_singleton.1 h)

end TemplateCompiler
