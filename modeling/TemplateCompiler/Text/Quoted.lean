import TemplateCompiler.Text.Printable

/-!
# Quoted texts in messages

A text in a message stands in single quotes, or in double quotes if it holds single ones only. The
quote in use and the backslash are escaped, as is every character that is not shown as it is. A
tuple with one member keeps a comma after it.
-/

namespace TemplateCompiler.Text

/-- A number in `width` hexadecimal digits at least. -/
def hexDigits (width n : Nat) : List Char :=
  let digits := Nat.toDigits 16 n
  List.replicate (width - digits.length) '0' ++ digits

/-- The escape of a character by its code point, in the shortest of three widths. -/
def escapeCode (n : Nat) : List Char :=
  if n < 0x100 then '\\' :: 'x' :: hexDigits 2 n
  else if n < 0x10000 then '\\' :: 'u' :: hexDigits 4 n
  else '\\' :: 'U' :: hexDigits 8 n

def quoteChar (quote c : Char) : List Char :=
  if c = quote || c = '\\' then ['\\', c]
  else if c = '\n' then ['\\', 'n']
  else if c = '\r' then ['\\', 'r']
  else if c = '\t' then ['\\', 't']
  else if isPrintable c then [c]
  else escapeCode c.toNat

/-- The quote that a text is shown in. -/
def quoteFor (s : List Char) : Char :=
  if s.contains '\x27' && !s.contains '\x22' then '\x22' else '\x27'

def quotedList (s : List Char) : List Char :=
  quoteFor s :: (s.flatMap (quoteChar (quoteFor s)) ++ [quoteFor s])

def quoted (s : String) : String :=
  String.ofList (quotedList s.toList)

/-- A tuple of members that are already written out. -/
def tuple : List String → String
  | [] => "()"
  | [member] => s!"({member},)"
  | members => "(" ++ ", ".intercalate members ++ ")"

/-- A tuple of texts. -/
def quotedTuple (members : List String) : String :=
  tuple (members.map quoted)

end TemplateCompiler.Text
