import HeaderBind.CommandLine.Help
import HeaderBind.CommandLine.Word
import HeaderBind.Text.Quoted
/-!
The flags in a single argument. Text behind a flag's spelling is its value, or, behind a letter without one,
the letters of further flags. What becomes of letters that are no flags, of an equals sign behind a flag
without a value, and of an attached double dash is not the same in all releases of these rules.
-/
namespace HeaderBind.CommandLine

/-- The releases of the rules by which arguments are taken apart. -/
inductive Release where
  /-- From 3.11.0 to 3.11.8. -/
  | early
  /-- From 3.11.9 on. -/
  | late
  deriving DecidableEq, Repr

/-- Why a command line is refused. -/
inductive UsageError where
  | noValue (f : Flag)
  /-- Text attached to a flag that has no use for it. -/
  | unused (f : Flag) (attached : List Char)
  | invalidChoice (f : Flag) (value : String)
  | noHeader
  deriving DecidableEq

def UsageError.message : UsageError → String
  | noValue f => "argument " ++ f.title ++ ": expected one argument"
  | unused f attached =>
    "argument " ++ f.title ++ ": ignored explicit argument " ++
      Text.quoted (String.ofList attached)
  | invalidChoice f value =>
    "argument " ++ f.title ++ ": invalid choice: " ++ Text.quoted value ++ " (choose from " ++
      ", ".intercalate ((f.choices?.getD []).map Text.quoted) ++ ")"
  | noHeader => "no input header given"

/-- What is shown for a refused command line. -/
def UsageError.report (e : UsageError) : String :=
  usage ++ "ctbindgen: error: " ++ e.message ++ "\n"

/-- A flag as it was given, with its value if it has one. -/
abbrev Given := Flag × Option String

namespace Bundle

/-- How the flags of an argument end. -/
inductive End where
  | done
  /-- With a flag that waits for a value in the next argument. -/
  | waits (f : Flag)
  /-- In front of letters that are no flags. -/
  | stray (text : List Char)
  deriving DecidableEq

end Bundle

/-- The flags in one argument: those complete in it, and how they end. -/
structure Bundle where
  complete : List Given
  ending : Bundle.End
  deriving DecidableEq

namespace Bundle

/-- What is left over of an argument that has letters in it that are no flags. -/
def remnant (text : List Char) : String := String.ofList ('-' :: text)

/-- A flag by itself. -/
def single (f : Flag) : Bundle :=
  if f.takesValue then ⟨[], .waits f⟩ else ⟨[(f, none)], .done⟩

/-- A flag with its value attached; by the early rules an attached double dash is no value. -/
def valued (release : Release) (f : Flag) (text : List Char) : Bundle :=
  ⟨[(f, if release = .early ∧ text = ['-', '-'] then none else some (String.ofList text))], .done⟩

/-- The bundle behind a flag without a value. -/
def behind (f : Flag) (b : Bundle) : Bundle := { b with complete := (f, none) :: b.complete }

/-- A flag with text attached by the early rules: its value, or the letters of further flags, every one of
which has to be a flag. What follows a letter is attached to it as it is. -/
def openEarly? (f : Flag) : (text : List Char) → Except UsageError Bundle
  | text@(c :: rest) =>
    if f.takesValue then .ok (valued .early f text)
    else match Flag.ofLetter? c with
      | none => .error (.unused f text)
      | some g => (if rest.isEmpty then .ok (single g) else openEarly? g rest).map (behind f)
  | [] => if f.takesValue then .ok (valued .early f []) else .error (.unused f [])

/-- A flag with what stands behind it by the late rules. An equals sign announces a value, also behind a
letter among others; the flags end in front of a letter that is none. -/
def openLate? (f : Flag) : (tail : List Char) → Except UsageError Bundle
  | [] => .ok (single f)
  | '=' :: value => if f.takesValue then .ok (valued .late f value) else .error (.unused f value)
  | text@(c :: rest) =>
    if f.takesValue then .ok (valued .late f text)
    else if c = '-' then .error (.unused f text)
    else match Flag.ofLetter? c with
      | none => .ok ⟨[(f, none)], .stray text⟩
      | some g => (openLate? g rest).map (behind f)

/-- The flags of an argument that was taken for a flag. -/
def ofFlag (release : Release) (f : Flag) (short : Bool) (tail : List Char) :
    Except UsageError Bundle :=
  match release, tail with
  | .late, tail => openLate? f tail
  | .early, [] => .ok (single f)
  | .early, '=' :: value =>
    if short || f.takesValue then openEarly? f value else .error (.unused f value)
  | .early, text => openEarly? f text

end Bundle

end HeaderBind.CommandLine
