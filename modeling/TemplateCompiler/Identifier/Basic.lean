import TemplateCompiler.Identifier.Continue
import TemplateCompiler.Text.Pieces

/-!
# Identifiers

The names that may stand in a generated module: an identifier's shape is one start character and
any number of continuing ones, and an identifier is a text of that shape that is no keyword. A
dotted path is a row of identifiers.
-/

namespace TemplateCompiler

namespace Identifier

def keywords : List String :=
  ["False", "None", "True", "and", "as", "assert", "async", "await", "break", "class", "continue",
   "def", "del", "elif", "else", "except", "finally", "for", "from", "global", "if", "import",
   "in", "is", "lambda", "nonlocal", "not", "or", "pass", "raise", "return", "try", "while", "with",
   "yield"]

def hasShape (s : String) : Bool :=
  match s.toList with
  | [] => false
  | c :: rest => isStart c && rest.all isContinue

end Identifier

def isIdentifier (s : String) : Bool :=
  Identifier.hasShape s && !Identifier.keywords.contains s

/-- The segments of a dotted path, if each of them is an identifier. -/
def identifierPath? (s : String) : Option (List String) :=
  let segments := Text.split '.' s
  if segments.all isIdentifier then some segments else none

end TemplateCompiler
