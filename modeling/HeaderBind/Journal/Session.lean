import HeaderBind.Journal.Duration
import HeaderBind.Text.Search
/-!
The structured log of a process. At most one handler writes lines, to the stream configured last; each
line carries the run and the phase it belongs to. Diagnostics are kept whether or not they are
shown.
-/
namespace HeaderBind.Journal

/-- Phases are open from the innermost out, each with the time of its start. -/
structure Session where
  runId : String
  phases : List (String × Int)
  clock : Int
  /-- The lowest level shown and the stream shown on. -/
  handler : Option (Level × String)
  streams : List (String × String)
  records : Journal
  deriving DecidableEq

namespace Session

def start : Session := ⟨"-", [], 0, none, [], []⟩

def phase (s : Session) : String :=
  match s.phases with
  | (name, _) :: _ => name
  | [] => noPhase

/-- Sends the log to a stream from a level up, in place of what was configured before. -/
def configure (s : Session) (level : Level) (stream : String) : Session :=
  { s with
    handler := some (level, stream)
    streams := if (s.streams.lookup stream).isSome then s.streams else s.streams ++ [(stream, "")] }

/-- Whether messages of a source belong to this log. -/
def isOurs (source : String) : Bool :=
  source == Reporter.program || Text.startsWith source (Reporter.program ++ ".")

/-- Writes a line for an event when it belongs to this log and is shown. -/
def write (s : Session) (e : Event) : Session :=
  match s.handler with
  | none => s
  | some (threshold, stream) =>
    if isOurs e.source && e.level.passes threshold then
      let line := (Entry.mk s.phase e).line s.runId ++ "\n"
      { s with streams := s.streams.map fun (name, text) =>
          if name == stream then (name, text ++ line) else (name, text) }
    else s

/-- Keeps a diagnostic and shows it. -/
def report (s : Session) (e : Event) : Session :=
  let kept : Session := { s with records := s.records ++ [⟨s.phase, e⟩] }
  kept.write e

def enter (s : Session) (name : String) : Session :=
  { s with phases := (name, s.clock) :: s.phases }

/-- Leaves the innermost phase; the log tells how long it took. -/
def leave (s : Session) : Session :=
  match s.phases with
  | [] => s
  | (name, since) :: outer =>
    { s.write (finished name (s.clock - since)) with phases := outer }

def tick (s : Session) (milliseconds : Int) : Session :=
  { s with clock := s.clock + milliseconds }

/-- Names the run; without a name of its own it gets the fresh one. -/
def setRunId (s : Session) (given : Option String) (fresh : String) : Session :=
  { s with runId := (given.filter (!·.isEmpty)).getD fresh }

/-- The messages of the errors among the records. -/
def errors (s : Session) : List String :=
  s.records.filterMap fun entry =>
    match entry.event with
    | .error message => some message
    | _ => none

def warnings (s : Session) : List String :=
  s.records.filterMap fun entry =>
    match entry.event with
    | .warning message => some message
    | _ => none

end Session

end HeaderBind.Journal
