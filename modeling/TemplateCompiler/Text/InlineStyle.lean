import TemplateCompiler.Text.Blank
import TemplateCompiler.Text.Dashed
import TemplateCompiler.Text.Pieces

/-!
# Inline styles

A style is a list of declarations between semicolons, each a property and a value around the first
colon. A declaration without a colon or without a property is skipped; a property written twice
keeps its first place and takes its last value.
-/

namespace TemplateCompiler.Text

/-- One declaration, with its property in camel case. -/
def styleEntry? (declaration : List Char) : Option (String × String) :=
  match cut ':' declaration with
  | (property, some value) =>
    if (strip property).isEmpty then none
    else some (String.ofList (camelList (strip property)), String.ofList (strip value))
  | (_, none) => none

/-- The entries with one more put in: a known key keeps its place and changes its value. -/
def putEntry (entries : List (String × String)) (entry : String × String) :
    List (String × String) :=
  if entries.any fun old => old.1 == entry.1 then
    entries.map fun old => if old.1 == entry.1 then entry else old
  else entries ++ [entry]

def inlineStyle (s : String) : List (String × String) :=
  ((pieces ';' s.toList).filterMap styleEntry?).foldl putEntry []

end TemplateCompiler.Text
