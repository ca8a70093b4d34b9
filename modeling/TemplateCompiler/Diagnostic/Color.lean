/-!
# Terminal colours

A coloured text stands between the control sequences of its colours and the one that ends them.
Stripping removes every control sequence: an escape and one more character, or an escape, an
opening bracket, parameters, intermediates and a final character.
-/

namespace TemplateCompiler

inductive Color where
  | reset
  | bold
  | dim
  | yellow
  | cyan
  | brightRed
deriving DecidableEq, Repr

namespace Color

def parameter : Color → String
  | reset => "0"
  | bold => "1"
  | dim => "2"
  | yellow => "33"
  | cyan => "36"
  | brightRed => "91"

def escape : Char := '\x1b'

def sequence (c : Color) : String :=
  String.ofList [escape, '['] ++ c.parameter ++ "m"

def ofName? : String → Option Color
  | "reset" => some reset
  | "bold" => some bold
  | "dim" => some dim
  | "yellow" => some yellow
  | "cyan" => some cyan
  | "bright_red" => some brightRed
  | _ => none

/-- A text in some colours, where colours are on. -/
def paint (on : Bool) (colors : List Color) (text : String) : String :=
  if on && !colors.isEmpty then String.join (colors.map sequence) ++ text ++ reset.sequence
  else text

/-- Whether to use colours: a non-empty demand or, failing that, refusal decides, and then the
terminal. -/
def wanted (force no : Option String) (terminal : Bool) : Bool :=
  if force.any fun s => !s.isEmpty then true
  else if no.any fun s => !s.isEmpty then false
  else terminal

def between (first last : Nat) (c : Char) : Bool :=
  first ≤ c.toNat && c.toNat ≤ last

/-- How much of the text after an escape belongs to its control sequence, if it starts one. -/
def sequenceLength? : List Char → Option Nat
  | [] => none
  | c :: rest =>
    if c = '[' then
      let parameters := rest.takeWhile (between 0x30 0x3F)
      let more := rest.drop parameters.length
      let intermediates := more.takeWhile (between 0x20 0x2F)
      match more.drop intermediates.length with
      | final :: _ =>
        if between 0x40 0x7E final then some (parameters.length + intermediates.length + 2)
        else none
      | [] => none
    else if between 0x40 0x5F c then some 1
    else none

/-- A text less the `skip` characters at its head and the control sequences after them. -/
def stripFrom (skip : Nat) : List Char → List Char
  | [] => []
  | c :: rest =>
    match skip with
    | skip + 1 => stripFrom skip rest
    | 0 =>
      if c = escape then
        match sequenceLength? rest with
        | some n => stripFrom n rest
        | none => c :: stripFrom 0 rest
      else c :: stripFrom 0 rest

def strip (text : String) : String :=
  String.ofList (stripFrom 0 text.toList)

end Color

end TemplateCompiler
