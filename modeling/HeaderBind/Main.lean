import HeaderBind.CommandLine.Run
/-!
The program. It has no C parser and no reader for run files of its own, so it goes as far as a run
can go without them.
-/
namespace HeaderBind.CommandLine

/-- What stands at the path of a run file. -/
def runFileContent (path : String) : IO RunFile.Content := do
  try
    let _ ← IO.FS.readFile path
    return .malformed "no reader for run files"
  catch
    | .noFileOrDirectory .. => return .missing
    | e => return .unreadable (toString e)

/-- What keeps the system from opening a path. -/
def openFault (e : IO.Error) : OpenFault :=
  match e with
  | .noFileOrDirectory .. => .missing
  | .inappropriateType _ 20 _ => .notDirectory
  | .inappropriateType _ 21 _ => .isDirectory
  | .invalidArgument _ 36 _ => .nameTooLong
  | e => .other (toString e)

/-- The run file that the arguments name, with what stands at its path. -/
def namedRunFile (arguments : List String) : IO RunFile.Content := do
  match Parsed.read .late arguments with
  | .ok p =>
    match p.runFile? with
    | some path => runFileContent path
    | none => return .missing
  | .error _ => return .missing

/-- Writes a text, or tells why it cannot be written. -/
def put (stream : IO.FS.Stream) (text : String) : IO (Option WriteFault) := do
  try
    stream.putStr text
    stream.flush
    return none
  catch e => return some (.other (toString e))

/-- Does what a run does with its output, and gives the run as it goes with what was met on that. The run is
looked at first as it goes where nothing stands in the way of its output; that output is opened only if this
comes to the stage for it. -/
def carryOut (world : World) (runId : String) (arguments : List String) : IO Ending := do
  let outlook := run world runId arguments
  match outlook.file with
  | none =>
    match ← put (← IO.getStdout) outlook.standardOutput with
    | some fault => return run { world with standardOutput := some fault } runId arguments
    | none => return outlook
  | some (path, text) =>
    try
      let handle ← IO.FS.Handle.mk path .write
      match ← put (.ofHandle handle) text with
      | some fault => return run { world with fileFault? := fun _ => some fault } runId arguments
      | none => return outlook
    catch e => return run { world with openFault? := fun _ => some (openFault e) } runId arguments

/-- Runs the program and shows what the run shows. -/
def program (arguments : List String) : IO UInt32 := do
  let content ← namedRunFile arguments
  let strictness ← IO.getEnv "CTBINDGEN_STRICT_CONFIG"
  let world : World := {
    release := .late
    runFileAt := fun _ => content
    strictness := strictness
    openFault? := fun _ => none
    tools := ⟨(.error .noLibrary, []), fun _ => .refused "no parser", fun _ => 0⟩
    standardOutput := none }
  let ending ← carryOut world (toString (← IO.rand 10000000 99999999)) arguments
  IO.eprint ending.standardError
  match ending.escaped with
  | some e => throw (.userError e.message)
  | none => return ending.exitCode.toUInt32

end HeaderBind.CommandLine

/-- The program's entry. -/
def main (arguments : List String) : IO UInt32 :=
  HeaderBind.CommandLine.program arguments
