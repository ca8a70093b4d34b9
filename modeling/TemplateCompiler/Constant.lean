import TemplateCompiler.Text.Quoted

/-!
# Constants

The constants of template expressions and attribute values. A compiler passes them on as they are,
so a floating-point number is kept as the text it was written with; only messages show them.
-/

namespace TemplateCompiler

inductive Constant where
  | text (s : String)
  | bool (b : Bool)
  | null
  | int (n : Int)
  | float (literal : String)
  | bytes (data : List UInt8)
  | complex (imaginary : String)
  | ellipsis
deriving DecidableEq

namespace Constant

def text? : Constant → Option String
  | text s => some s
  | _ => none

/-- A byte as it stands between quotes: like a character of ASCII, and escaped past it. -/
def quoteByte (quote : Char) (b : UInt8) : List Char :=
  if b.toNat < 0x80 then Text.quoteChar quote (Char.ofNat b.toNat) else Text.escapeCode b.toNat

def quotedBytes (data : List UInt8) : String :=
  let quote := Text.quoteFor (data.map fun b => Char.ofNat b.toNat)
  String.ofList ('b' :: quote :: (data.flatMap (quoteByte quote) ++ [quote]))

/-- An imaginary part drops a zero fraction. -/
def imaginaryText (literal : String) : String :=
  let digits := literal.toList
  let kept :=
    if ['0', '.'].isPrefixOf digits.reverse then digits.take (digits.length - 2) else digits
  String.ofList (kept ++ ['j'])

/-- How a message shows a constant. -/
def display : Constant → String
  | text s => Text.quoted s
  | bool true => "True"
  | bool false => "False"
  | null => "None"
  | int n => toString n
  | float literal => literal
  | bytes data => quotedBytes data
  | complex imaginary => imaginaryText imaginary
  | ellipsis => "Ellipsis"

end Constant

end TemplateCompiler
