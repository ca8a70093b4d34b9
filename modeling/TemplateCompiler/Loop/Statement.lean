import TemplateCompiler.Identifier.Basic
import TemplateCompiler.Text.Blank
import TemplateCompiler.Text.Quoted

/-!
# For statements

The text of an iteration, such as "(row, i) of table.rows": a target, the word in or of between
white space, and the iterable. The separator is the leftmost that has a text before it. The target
is one identifier, or two or three between round brackets.
-/

namespace TemplateCompiler

structure ForStatement where
  iterable : String
  parameters : List String
deriving DecidableEq, Repr

namespace ForStatement

inductive Fault where
  | noSeparator (text : String)
  | badParameter (parameter text : String)
  | sameParameters (text : String)
deriving DecidableEq, Repr

def Fault.message : Fault → String
  | noSeparator text => s!"For-loop value syntax is not correct: {Text.quoted text}"
  | badParameter parameter text =>
    s!"Invalid for-loop argument {Text.quoted parameter} in {Text.quoted text}"
  | sameParameters text => s!"Duplicate for-loop argument in {Text.quoted text}"

/-- What follows the word at the head of a text, if the word ends there in white space. -/
def afterWord : List Char → Option (List Char)
  | 'i' :: 'n' :: c :: rest | 'o' :: 'f' :: c :: rest =>
    if isBlank c then some (rest.dropWhile isBlank) else none
  | _ => none

/-- What follows the separator at the head of a text. -/
def afterSeparator (s : List Char) : Option (List Char) :=
  match s with
  | [] => none
  | c :: rest => if isBlank c then afterWord (rest.dropWhile isBlank) else none

/-- The texts before and after the first separator. -/
def splitSeparator : List Char → Option (List Char × List Char)
  | [] => none
  | c :: rest =>
    match afterSeparator (c :: rest) with
    | some tail => some ([], tail)
    | none => (splitSeparator rest).map fun (head, tail) => (c :: head, tail)

/-- A member of a bracketed target without its white space; of a blank one the last character
stays. -/
def groupMember (part : List Char) : List Char :=
  if part.all isBlank then part.drop (part.length - 1) else Text.strip part

/-- The members of a target in brackets. -/
def groupMembers? (target : List Char) : Option (List (List Char)) :=
  match target with
  | '(' :: rest =>
    if rest.getLast? = some ')' then
      let inner := rest.dropLast
      let parts := Text.pieces ',' inner
      if (parts.length == 2 || parts.length == 3) && parts.all (fun part => !part.isEmpty) &&
          !inner.contains '(' && !inner.contains ')' then
        some (parts.map groupMember)
      else none
    else none
  | _ => none

/-- The parameters a target names, well formed or not. -/
def targetParameters (target : List Char) : List String :=
  ((groupMembers? target).getD [target]).map String.ofList

def parse (text : String) : Except Fault ForStatement :=
  match splitSeparator (Text.trimLeft isBlank text.toList) with
  | none => .error (.noSeparator text)
  | some (target, rest) =>
    let iterable := Text.trimRight isBlank rest
    if iterable.isEmpty then .error (.noSeparator text)
    else
      let parameters := targetParameters target
      match parameters.find? fun p => !isIdentifier p with
      | some p => .error (.badParameter p text)
      | none =>
        if parameters.Nodup then .ok ⟨String.ofList iterable, parameters⟩
        else .error (.sameParameters text)

end ForStatement

end TemplateCompiler
