import HeaderBind.CommandLine.Bundle
/-!
A command line taken apart: the flags given, in order, and the arguments left over for the C parser.
Everything from a free double dash on is left over as it is.
-/
namespace HeaderBind.CommandLine

structure Parsed where
  given : List Given
  left : List String
  deriving DecidableEq

/-- Why the command line is not followed to its end. -/
inductive Halt where
  | refused (e : UsageError)
  | helped
  deriving DecidableEq

/-- Halts at the first flag that asks for help or has a value outside its choices. -/
def checkGiven : List Given → Except Halt Unit
  | [] => .ok ()
  | (.help, _) :: _ => .error .helped
  | (f, value) :: rest =>
    match f.choices?, value with
    | some choices, some v =>
      if choices.contains v then checkGiven rest else .error (.refused (.invalidChoice f v))
    | _, _ => checkGiven rest

/-- Whether an argument can be the value of the flag before it. -/
def isValue (argument : String) : Bool :=
  argument != "--" && Word.classify argument == .plain

namespace Parsed

def withGiven (more : List Given) (p : Parsed) : Parsed := { p with given := more ++ p.given }

def withLeft (argument : String) (p : Parsed) : Parsed := { p with left := argument :: p.left }

/-- Takes the arguments apart. -/
def read (release : Release) : List String → Except Halt Parsed
  | [] => .ok ⟨[], []⟩
  | argument :: rest =>
    if argument = "--" then .ok ⟨[], argument :: rest⟩
    else match Word.classify argument with
      | .plain | .foreign => (read release rest).map (withLeft argument)
      | .flag f short tail =>
        match Bundle.ofFlag release f short tail with
        | .error e => .error (.refused e)
        | .ok ⟨complete, .done⟩ => do
          checkGiven complete
          (read release rest).map (withGiven complete)
        | .ok ⟨complete, .stray text⟩ => do
          checkGiven complete
          (read release rest).map fun p => (p.withGiven complete).withLeft (Bundle.remnant text)
        | .ok ⟨complete, .waits g⟩ =>
          match rest with
          | [] => .error (.refused (.noValue g))
          | value :: rest =>
            if isValue value then do
              let given := complete ++ [(g, some value)]
              checkGiven given
              (read release rest).map (withGiven given)
            else .error (.refused (.noValue g))

/-- Takes the arguments apart by the early rules. -/
def ofArguments : List String → Except Halt Parsed := read .early

def has (p : Parsed) (f : Flag) : Bool := p.given.any (·.1 == f)

def count (p : Parsed) (f : Flag) : Nat := p.given.countP (·.1 == f)

/-- What was given for a flag each time, in order. -/
def values (p : Parsed) (f : Flag) : List (Option String) :=
  (p.given.filter (·.1 == f)).map (·.2)

/-- What was given for a flag the last time. -/
def value? (p : Parsed) (f : Flag) : Option (Option String) := (p.values f).getLast?

/-- The value given for a flag the last time, unless that was empty or no value at all. -/
def nonempty? (p : Parsed) (f : Flag) : Option String :=
  (p.value? f).join.filter (!·.isEmpty)

/-- The arguments for the C parser: those left over, without the first double dash. -/
def parserArgs (p : Parsed) : List String := p.left.erase "--"

end Parsed

end HeaderBind.CommandLine
