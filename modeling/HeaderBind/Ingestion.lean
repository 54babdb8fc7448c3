import HeaderBind.Cursor
import HeaderBind.Journal
/-!
Taking in what the C parser answers. Its diagnostics are passed on by severity; the run goes on unless
one of them is fatal or the parser gave no unit at all.
-/
namespace HeaderBind

/-- A remark of the parser. -/
structure Diagnostic where
  severity : Int
  text : String
  location : Option Location
  deriving DecidableEq, Repr

namespace Diagnostic

/-- Severities from which on a diagnostic is a warning, an error, or the end of the run. -/
def warningAt : Int := 2

def errorAt : Int := 3

def fatalAt : Int := 4

/-- The word for the severity; numbers without a word count as notes. -/
def word (d : Diagnostic) : String :=
  if d.severity = 0 then "ignored"
  else if d.severity = warningAt then "warning"
  else if d.severity = errorAt then "error"
  else if d.severity = fatalAt then "fatal"
  else "note"

def place (d : Diagnostic) : String :=
  match d.location with
  | some ⟨some file, line, column⟩ => file ++ ":" ++ toString line ++ ":" ++ toString column
  | _ => "<command line>"

def line (d : Diagnostic) : String := d.place ++ ": " ++ d.word ++ ": " ++ d.text

def isFatal (d : Diagnostic) : Bool := fatalAt ≤ d.severity

/-- How the user hears of it, if at all. -/
def event? (d : Diagnostic) : Option Event :=
  if errorAt ≤ d.severity then some (.error d.line)
  else if d.severity = warningAt then some (.warning d.line)
  else none

end Diagnostic

/-- What the parser gives back. -/
inductive ParserAnswer where
  | refused (reason : String)
  | unit (table : CursorTable) (diagnostics : List Diagnostic)

inductive IngestionError where
  | refused (arguments : List String) (reason : String)
  | fatal (diagnostics : List Diagnostic)
  deriving DecidableEq

namespace IngestionError

def message : IngestionError → String
  | refused arguments reason =>
    "clang could not parse `" ++ " ".intercalate arguments ++ "`: " ++ reason
  | fatal _ => "clang reported a fatal error"

def diagnostics : IngestionError → List Diagnostic
  | refused _ _ => []
  | fatal ds => ds

end IngestionError

/-- A unit that was taken in. -/
structure ParsedUnit where
  table : CursorTable
  diagnostics : List Diagnostic

/-- Takes in the answer to a call with the arguments. Every diagnostic is told before a fatal one
ends the run. -/
def ingest (arguments : List String) :
    ParserAnswer → Except IngestionError ParsedUnit × List Event
  | .refused reason =>
    let e := IngestionError.refused arguments reason
    (.error e, [.error e.message])
  | .unit table diagnostics =>
    let told := diagnostics.filterMap Diagnostic.event?
    if diagnostics.any Diagnostic.isFatal then (.error (.fatal diagnostics), told)
    else (.ok ⟨table, diagnostics⟩, told ++ [.trace .info Reporter.toolchain
      ("Parsed translation unit with " ++ toString diagnostics.length ++ " diagnostics")])

end HeaderBind
