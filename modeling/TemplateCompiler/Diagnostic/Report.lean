import TemplateCompiler.Diagnostic.ErrorCode
import TemplateCompiler.Diagnostic.Snippet
import TemplateCompiler.Location
import TemplateCompiler.Text.Blank

/-!
# Error reports

A report is a message with what is known of its place. It is written in two ways: at length, with a
snippet of the source in colours, and compactly, with the offending line alone. Line 0 counts as no
line.
-/

namespace TemplateCompiler

structure Report where
  message : String
  code : Option ErrorCode
  pos : Position
  name : Option String
  filename : Option String
  source : Option String

namespace Report

def line? (r : Report) : Option Int :=
  r.pos.line.filter (· ≠ 0)

/-- The source and the line to show of it, where both are known. -/
def sourceLine? (r : Report) : Option (String × Int) := do
  return (← Text.given r.source, ← r.line?)

theorem sourceLine?_eq_some {r : Report} {source : String} {line : Int} :
    r.sourceLine? = some (source, line) ↔
      Text.given r.source = some source ∧ r.line? = some line := by
  simp [sourceLine?, Option.bind_eq_some_iff]

def location (r : Report) : String :=
  let unit := ((Text.given r.filename).or (Text.given r.name)).getD "<template>"
  match r.line?, r.pos.column with
  | none, _ => unit
  | some line, none => s!"{unit}:{line}"
  | some line, some column => s!"{unit}:{line}:{column}"

/-- The report at length. -/
def text (colors : Bool) (r : Report) : String :=
  let header := s!"Syntax Error: {r.message}\n  --> {Color.paint colors [.cyan] r.location}"
  match r.sourceLine? with
  | none => header
  | some (source, line) =>
    let snippet := Snippet.ofSource source line 1 r.pos.column
    if snippet.lines.isEmpty then header else s!"{header}\n{snippet.format colors}"

/-- The offending line of a source between its gutters. -/
def compactLine (source : String) (line : Int) (column : Option Int) : List String :=
  if 0 < line then
    match (Text.lines source)[line.toNat - 1]? with
    | some content =>
      ["   |", s!"{padNumber line} | {content}"] ++
        (column.map fun column => s!"   | {caret column}").toList ++ ["   |"]
    | none => []
  else []

def compact (r : Report) : String :=
  let start := match r.code with
    | some code => s!"{code.value}: {r.message}"
    | none => r.message
  let shown := match r.sourceLine? with
    | some (source, line) => compactLine source line r.pos.column
    | none => []
  "\n".intercalate (start :: s!"  --> {r.location}" :: shown)

end Report

/-- Whether a text occurs in another. -/
def occursIn (part : List Char) : List Char → Bool
  | [] => part.isEmpty
  | c :: rest => part.isPrefixOf (c :: rest) || occursIn part rest

/-- A message without a place, written compactly: without colours, and behind its code unless it
shows the code itself. -/
def compactMessage (message : String) (code : Option ErrorCode) : String :=
  let header := Color.strip message
  match code with
  | some code =>
    if occursIn code.value.toList header.toList then header else s!"{code.value}: {header}"
  | none => header

end TemplateCompiler
