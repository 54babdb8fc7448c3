import HeaderBind.CommandLine.Settings
import HeaderBind.Output
import HeaderBind.Pipeline
/-!
A run of the command line. Its stages come in a fixed order; the first that fails ends the run and
decides its exit code, unless an error that nothing looks for ends it otherwise. The bindings go to the
output that was asked for, all else to standard error.
-/
namespace HeaderBind.CommandLine

inductive Stage where
  | runFile | input | output | toolchain | parse | resolve | generate | write
  deriving DecidableEq, Repr

namespace Stage

/-- The order of the stages. -/
def all : List Stage := [runFile, input, output, toolchain, parse, resolve, generate, write]

/-- The exit code of a run that ends at the stage. -/
def exitCode : Stage → Nat
  | runFile => 3 | input => 2 | output => 3 | toolchain => 3 | parse => 4 | resolve => 5
  | generate => 6 | write => 7

def ofPhase : Phase → Stage
  | .configure => toolchain
  | .ingest => parse
  | .resolve => resolve
  | .generate => generate

end Stage

/-- An error that nothing in a run looks for: it ends the run, and is shown by what runs the program. -/
inductive Escape where
  /-- What is at the path of the run file cannot be read. -/
  | reading (path reason : String)
  /-- The path of the output is none that could be opened. -/
  | opening (path reason : String)
  /-- An expression for a typedef that is not bound has no end. -/
  | endless (key : String)
  | closing (path : String) (fault : WriteFault)
  deriving DecidableEq

def Escape.message : Escape → String
  | reading _ reason | opening _ reason => reason
  | endless key => (GenerationError.endless key).message
  | closing _ fault => fault.reason

/-- What ends a run before its end. -/
inductive Break where
  | failed (s : Stage)
  | escaped (e : Escape)
  deriving DecidableEq

namespace Break

/-- Of an error that escapes, whatever runs the program makes exit code one. -/
def exitCode : Break → Nat
  | failed s => s.exitCode
  | escaped _ => 1

def escape? : Break → Option Escape
  | failed _ => none
  | escaped e => some e

/-- A problem that readers look for fails the stage. -/
def ofProblem : RunFile.Problem → Break
  | .unreadable path reason => escaped (.reading path reason)
  | _ => failed .runFile

/-- A failure of the pipeline fails the stage of its phase; an expression without end is none. -/
def ofFailure : Failure → Break
  | .generation (.endless key) => escaped (.endless key)
  | failure => failed (Stage.ofPhase failure.phase)

end Break

/-- The exit code of a run that ends so. -/
def exitCode : Except Break Unit → Nat
  | .ok _ => 0
  | .error b => b.exitCode

/-- The error that ends a run without being looked for. -/
def escape? : Except Break Unit → Option Escape
  | .ok _ => none
  | .error b => b.escape?

/-- The world around a run. -/
structure World where
  /-- The rules by which the arguments are taken apart. -/
  release : Release := .early
  runFileAt : String → RunFile.Content
  /-- The environment variable that asks for strict reading of run files. -/
  strictness : Option String
  openFault? : String → Option OpenFault
  /-- Why a path is none that the system could be asked to open, as one with a zero character in it. -/
  pathFault? : String → Option String := fun _ => none
  tools : Pipeline.Tools
  standardOutput : Option WriteFault
  /-- What is wrong with a file that could be opened. -/
  fileFault? : String → Option WriteFault := fun _ => none
  /-- What closing a file runs into when a text was written to it in vain. Closing writes again what is kept
  of that. The text is empty where nothing was written or all of it went well. -/
  closeFault? : String → String → Option WriteFault := fun _ _ => none

/-- Something that a run shows on standard error. -/
inductive Shown where
  | entry (e : Entry)
  | text (s : String)
  deriving DecidableEq

/-- What a run leaves behind so far: the stages it came to, what it showed, the calls of the parser, the
output it opened, where the module went, and the text that was written in vain. -/
structure Traces where
  stages : List Stage
  shown : List Shown
  calls : List (List String)
  opened : Option String
  printed : Option String
  filed : Option String
  vain : String

/-- What a run leaves behind before it starts. -/
def Traces.blank : Traces := ⟨[], [], [], none, none, none, ""⟩

abbrev Steps (α : Type) := ExceptT Break (StateM Traces) α

namespace Steps

/-- Comes to a stage. -/
def reach (s : Stage) : Steps Unit := modify fun r => { r with stages := r.stages ++ [s] }

def present (more : List Shown) : Steps Unit := modify fun r => { r with shown := r.shown ++ more }

/-- Tells something outside all phases. -/
def tell (events : List Event) : Steps Unit :=
  present ((Journal.of noPhase events).map .entry)

def log (level : Level) (message : String) : Steps Unit :=
  tell [.trace level Reporter.commandLine message]

end Steps

variable (w : World)

/-- The options and output of the run. -/
def settle (p : Parsed) : Steps (BindOptions × Option String) := do
  Steps.reach .runFile
  let (outcome, events) := (p.options w.runFileAt w.strictness).run
  Steps.tell events
  match outcome with
  | .ok (o, output) => return (o, output.filter (!·.isEmpty))
  | .error problem =>
    match Break.ofProblem problem with
    | .escaped e => throw (.escaped e)
    | .failed s =>
      Steps.log .error (ConfigurationError.runFile problem).message
      throw (.failed s)

def checkInput (o : BindOptions) : Steps Unit := do
  Steps.reach .input
  if o.parserArgs.isEmpty then
    Steps.present [.text UsageError.noHeader.report]
    throw (.failed .input)

/-- Opens the output; from then on it is there, if only empty. -/
def openOutput (output : Option String) : Steps Unit := do
  Steps.reach .output
  match output with
  | none => pure ()
  | some path =>
    match w.pathFault? path, w.openFault? path with
    | some reason, _ => throw (.escaped (.opening path reason))
    | none, some fault =>
      Steps.log .error (ConfigurationError.unopenable path fault).message
      throw (.failed .output)
    | none, none => modify fun r => { r with opened := some path }

/-- How a failure of the pipeline is told once more at the end of the run. -/
def farewell : Failure → Level × String
  | .configuration e => (.error, e.message)
  | .ingestion e => (.error, e.message)
  | .resolution e => (.debug, "resolution failed: " ++ e.message)
  | .generation e => (.debug, "generation failed: " ++ e.message)

/-- Makes the bindings, phase by phase. -/
def generate (o : BindOptions) : Steps Bindings := do
  let (outcome, progress) := Pipeline.run w.tools o
  modify fun r => { r with
    stages := r.stages ++ progress.phases.map Stage.ofPhase
    shown := r.shown ++ progress.journal.map .entry
    calls := r.calls ++ progress.calls }
  match outcome with
  | .ok b => return b
  | .error failure =>
    match Break.ofFailure failure with
    | .escaped e => throw (.escaped e)
    | .failed s =>
      let (level, message) := farewell failure
      Steps.log level message
      throw (.failed s)

/-- What is wrong with the output that is asked for. -/
def writeFault? : Option String → Option WriteFault
  | some path => w.fileFault? path
  | none => w.standardOutput

/-- Hands over the module. -/
def deliver (output : Option String) (b : Bindings) : Steps Unit := do
  Steps.present (b.tree.toList.map .text)
  Steps.reach .write
  match Output.toStream (writeFault? w output) b.text with
  | .error fault =>
    modify fun r => { r with vain := b.text }
    Steps.log .error ("Unable to write bindings: " ++ fault.message)
    throw (.failed .write)
  | .ok text =>
    match output with
    | some _ => modify fun r => { r with filed := some text }
    | none => modify fun r => { r with printed := some text }

/-- Closes the output if it is a file. -/
def closeOutput (output : Option String) : Steps Unit := do
  match output with
  | none => pure ()
  | some path =>
    match w.closeFault? path (← get).vain with
    | some fault => throw (.escaped (.closing path fault))
    | none => pure ()

/-- All stages in order. Once the output is open it is closed however they end, and only then it is told
that all is written. -/
def stages (p : Parsed) : Steps Unit := do
  let (o, output) ← settle w p
  checkInput o
  openOutput w output
  try
    let b ← generate w o
    deliver w output b
  finally closeOutput w output
  match output with
  | some path => Steps.log .info ("wrote " ++ path)
  | none => pure ()

/-- How a run ended. -/
structure Ending where
  exitCode : Nat
  calls : List (List String)
  standardOutput : String
  standardError : String
  /-- The file that was opened, with what was written to it. -/
  file : Option (String × String)
  /-- The error that ended the run without being looked for. -/
  escaped : Option Escape
  deriving DecidableEq

/-- What is shown of a run to someone who wants to see entries from a level up. -/
def Shown.visible (runId : String) (threshold : Level) : Shown → String
  | .entry e => if e.event.level.passes threshold then e.line runId ++ "\n" else ""
  | .text s => s

/-- A run with arguments that were taken apart. -/
def runParsed (runId : String) (p : Parsed) : Ending :=
  let (outcome, r) := (ExceptT.run (stages w p)).run .blank
  { exitCode := exitCode outcome
    calls := r.calls
    standardOutput := r.printed.getD ""
    standardError := "".intercalate (r.shown.map (Shown.visible runId p.logLevel))
    file := r.opened.map fun path => (path, r.filed.getD "")
    escaped := escape? outcome }

/-- Runs the command line. -/
def run (runId : String) (arguments : List String) : Ending :=
  match Parsed.read w.release arguments with
  | .ok p => runParsed w runId p
  | .error (.refused e) => ⟨2, [], "", e.report, none, none⟩
  | .error .helped => ⟨0, [], helpText, "", none, none⟩

end HeaderBind.CommandLine
