/-!
# Dashed names

Attribute names are written with dashes and read in camel case: a dash and the small ASCII letter
after it become that letter's capital. All other dashes stay.
-/

namespace TemplateCompiler.Text

def isSmall (c : Char) : Bool :=
  'a' ≤ c && c ≤ 'z'

def camelList : List Char → List Char
  | [] => []
  | [c] => [c]
  | c :: d :: rest =>
    if c = '-' && isSmall d then d.toUpper :: camelList rest
    else c :: camelList (d :: rest)

def camelCase (s : String) : String :=
  String.ofList (camelList s.toList)

/-- What the name of a data attribute begins with. -/
def dataMark : String := "data-"

def isData (s : String) : Bool :=
  dataMark.toList.isPrefixOf s.toList

/-- A data attribute's key in the element's dataset: the name past its mark, in camel case. -/
def dataKey (s : String) : String :=
  String.ofList (camelList (s.toList.drop dataMark.toList.length))

/-- A name with a colon keeps its dashes. -/
def isNamespaced (s : String) : Bool :=
  s.toList.contains ':'

theorem camelList_cons {c : Char} (hc : c ≠ '-') (s : List Char) :
    camelList (c :: s) = c :: camelList s := by
  cases s with
  | nil => simp [camelList]
  | cons d rest => simp [camelList, hc]

theorem length_camelList_le (s : List Char) : (camelList s).length ≤ s.length := by
  fun_induction camelList s with
  | case1 => simp
  | case2 => simp
  | case3 c d rest _ ih =>
    simp only [List.length_cons]
    omega
  | case4 c d rest _ ih =>
    simp only [List.length_cons] at ih ⊢
    omega

end TemplateCompiler.Text
