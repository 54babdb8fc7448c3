/-!
What a run tells: diagnostics meant for the user and a trace of the run itself. Both go into one
journal in the order they arise; each entry carries the phase that it arose in.
-/
namespace HeaderBind

inductive Level where
  | debug | info | warning | error | critical
  deriving DecidableEq, Repr

namespace Level

def rank : Level → Nat
  | debug => 10 | info => 20 | warning => 30 | error => 40 | critical => 50

def name : Level → String
  | debug => "DEBUG" | info => "INFO" | warning => "WARNING" | error => "ERROR"
  | critical => "CRITICAL"

def ofName? (name : String) : Option Level :=
  [debug, info, warning, error, critical].find? (·.name == name)

/-- Whether something at this level is shown where `threshold` is the lowest level shown. -/
def passes (level threshold : Level) : Bool := threshold.rank ≤ level.rank

end Level

/-! The names in which the parts of the program report. -/

namespace Reporter

def program : String := "ctbindgen"

def toolchain : String := "ctbindgen.frontend"

def collector : String := "ctbindgen.resolver"

def binder : String := "ctbindgen.gen"

def writer : String := "ctbindgen.writer"

def runFile : String := "ctbindgen.settings"

def commandLine : String := "ctbindgen.cli"

def clock : String := "ctbindgen.log"

end Reporter

inductive Event where
  /-- Something the user should know and may act on. -/
  | warning (message : String)
  | error (message : String)
  /-- A step of the run, as the part of the program named `source` reports it. -/
  | trace (level : Level) (source message : String)
  deriving DecidableEq, Repr

namespace Event

def level : Event → Level
  | warning _ => .warning
  | error _ => .error
  | trace level _ _ => level

/-- Diagnostics are reported in the name of the whole program. -/
def source : Event → String
  | warning _ | error _ => Reporter.program
  | trace _ source _ => source

def message : Event → String
  | warning message | error message | trace _ _ message => message

def isDiagnostic : Event → Bool
  | warning _ | error _ => true
  | trace _ _ _ => false

end Event

/-- The phase of everything that happens outside a phase. -/
def noPhase : String := "-"

structure Entry where
  phase : String
  event : Event
  deriving DecidableEq, Repr

abbrev Journal := List Entry

/-- The events of one phase as entries. -/
def Journal.of (phase : String) (events : List Event) : Journal :=
  events.map fun event => ⟨phase, event⟩

/-- A line of the structured log. -/
def Entry.line (runId : String) (e : Entry) : String :=
  "ctbindgen[" ++ runId ++ "] " ++ e.phase ++ " " ++ e.event.level.name ++ " " ++
    e.event.source ++ ": " ++ e.event.message

/-- Steps that may fail and tell events on the way; what was told stays told. -/
abbrev Telling (ε α : Type) := ExceptT ε (StateM (List Event)) α

namespace Telling

variable {ε α : Type}

def tell (e : Event) : Telling ε Unit := modify (· ++ [e])

/-- Runs the steps; gives the outcome and what was told. -/
def run (steps : Telling ε α) : Except ε α × List Event :=
  let (outcome, events) := (ExceptT.run steps).run []
  (outcome, events)

end Telling

end HeaderBind
