import HeaderBind.CommandLine.Flag
import HeaderBind.Text.Digit
/-!
What a single argument is taken for. An argument that starts with a dash is a flag when it spells
one, spells one before an equals sign, or has a value glued to a flag's letter; other arguments with
a dash belong to someone else, except a lone dash, a negative number and anything with a blank in it,
which are plain words.
-/
namespace HeaderBind.CommandLine

inductive Word where
  /-- Not a flag; may be the value of one. -/
  | plain
  /-- A flag of another program. -/
  | foreign
  /-- A flag, spelled with one dash or with two, and what stands behind its spelling: nothing, an equals
  sign and a value, or text glued to its letter. -/
  | flag (f : Flag) (short : Bool) (tail : List Char)
  deriving DecidableEq

namespace Word

/-- An optional point among digits, digits at the end. -/
def isDecimal (s : List Char) : Bool :=
  let fraction := s.dropWhile Text.isDecimalDigit
  match fraction with
  | [] => !s.isEmpty
  | '.' :: digits => !digits.isEmpty && digits.all Text.isDecimalDigit
  | _ => false

/-- A number after a dash; one line end may follow it. -/
def isNegativeNumber (s : List Char) : Bool :=
  match s with
  | '-' :: digits =>
    isDecimal digits || (digits.getLast? == some '\n' && isDecimal digits.dropLast)
  | _ => false

/-- A flag before an equals sign. -/
def withEquals? (s : List Char) : Option Word :=
  match s.dropWhile (· != '=') with
  | '=' :: value =>
    let spelled := s.takeWhile (· != '=')
    (Flag.ofSpelling? (String.ofList spelled)).map fun f =>
      flag f (spelled.length == 2) ('=' :: value)
  | _ => none

/-- A flag's letter with text glued to it. -/
def glued? (s : List Char) : Option Word :=
  match s with
  | '-' :: c :: text => (Flag.ofLetter? c).map fun f => flag f true text
  | _ => none

def classify (argument : String) : Word :=
  let s := argument.toList
  match s with
  | '-' :: _ :: _ =>
    match Flag.ofSpelling? argument with
    | some f => flag f (s.length == 2) []
    | none =>
      (withEquals? s <|> glued? s).getD
        (if isNegativeNumber s || s.contains ' ' then plain else foreign)
  | _ => plain

end Word

end HeaderBind.CommandLine
