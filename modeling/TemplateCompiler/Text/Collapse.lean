import TemplateCompiler.Text.Blank
import TemplateCompiler.Text.Pieces

/-!
# Collapsed text

Text between tags loses its layout: tabs become spaces, lines are trimmed at every edge that meets
another line, empty lines vanish, and the lines that stay are joined by one space. The start of the
first line and the end of the last keep their spaces.
-/

namespace TemplateCompiler.Text

/-- Anything but the spaces, tabs and carriage returns that lay a line out. -/
def isInk (c : Char) : Bool :=
  !(c = ' ' || c = '\t' || c = '\r')

def isEdge (c : Char) : Bool :=
  c = ' ' || c = '\r'

/-- A line with its tabs as spaces, trimmed where it meets another line. -/
def trimLine (first last : Bool) (line : List Char) : List Char :=
  let spaced := line.map fun c => if c = '\t' then ' ' else c
  let opened := if first then spaced else trimLeft isEdge spaced
  if last then opened else trimRight isEdge opened

/-- The index of the last line that holds more than layout, or else of the first line. -/
def lastInked (lines : List (List Char)) : Nat :=
  ((lines.zipIdx.filter fun line => line.1.any isInk).getLast?.map Prod.snd).getD 0

/-- Every line that stays, but for the last inked one, is followed by the space that joins it to
the next. -/
def collapseLines (lines : List (List Char)) : List Char :=
  let last := lastInked lines
  lines.zipIdx.flatMap fun (line, i) =>
    let kept := trimLine (i == 0) (i + 1 == lines.length) line
    if kept.isEmpty || i == last then kept else kept ++ [' ']

def collapse (s : String) : String :=
  String.ofList (collapseLines (pieces '\n' s.toList))

end TemplateCompiler.Text
