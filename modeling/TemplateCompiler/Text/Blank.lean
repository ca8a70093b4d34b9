/-!
# White space

The white space of Unicode together with the four information separators. Trimming and stripping
work on lists of characters; `String.stripped` is the same on a text.
-/

namespace TemplateCompiler

/-- White space: the bidirectional classes WS, B and S, and the space separators. -/
def isBlank (c : Char) : Bool :=
  let n := c.toNat
  (9 ≤ n && n ≤ 13) || (28 ≤ n && n ≤ 32) || n == 0x85 || n == 0xA0 || n == 0x1680 ||
    (0x2000 ≤ n && n ≤ 0x200A) || n == 0x2028 || n == 0x2029 || n == 0x202F || n == 0x205F ||
    n == 0x3000

namespace Text

def trimLeft (p : Char → Bool) (s : List Char) : List Char :=
  s.dropWhile p

def trimRight (p : Char → Bool) (s : List Char) : List Char :=
  (s.reverse.dropWhile p).reverse

def strip (s : List Char) : List Char :=
  trimRight isBlank (trimLeft isBlank s)

def stripped (s : String) : String :=
  String.ofList (strip s.toList)

/-- A text that is given and not empty. -/
def given (s : Option String) : Option String :=
  s.filter fun t => !t.isEmpty

theorem mem_of_mem_given {s : Option String} {t : String} (h : t ∈ given s) : t ∈ s :=
  (Option.filter_eq_some_iff.1 h).1

end Text

end TemplateCompiler
