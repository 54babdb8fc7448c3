import HeaderBind.CommandLine.Parsed
import HeaderBind.RunFile
/-!
The options that a command line and its run file ask for. The run file comes first, so the command line
wins wherever both set one thing, and its entries stand behind those of the file.
-/
namespace HeaderBind.CommandLine

/-- Flags that turn something on or off. -/
def switches : List (Flag × Switch × Bool) :=
  [(.builtins, .builtins, true), (.allowUnknownTypes, .failOnUnknownType, false),
    (.constantEnums, .nativeEnums, false), (.noFunctions, .functions, false),
    (.noEnums, .enums, false), (.noObjects, .objects, false), (.noTypes, .types, false),
    (.noDeriveDebug, .deriveDebug, false), (.noDeriveCopy, .deriveCopy, false),
    (.noLayoutChecks, .layoutChecks, false), (.dumpTree, .dumpTree, true)]

namespace Parsed

/-- The settings of the command line itself. -/
def settings (p : Parsed) : List Setting :=
  p.parserArgs.map .parserArg ++
    (p.values .pattern).map .pattern ++
    (p.values .link).map (fun name => .link (name, .dynamic)) ++
    (p.values .staticLink).map (fun name => .link (name, .static)) ++
    (p.values .frameworkLink).map (fun name => .link (name, .framework)) ++
    ((p.value? .symbolLead).map .symbolLead).toList ++
    ((p.value? .enumOverride).map .enumOverride).toList ++
    (switches.filter fun s => p.has s.1).map fun (_, which, on) => .switch which on

/-- The run file to read. -/
def runFile? (p : Parsed) : Option String := p.nonempty? .runFile

/-- The lowest level shown: each mention of verbosity shows one level more. -/
def logLevel (p : Parsed) : Level :=
  match p.count .verbose with
  | 0 => .warning
  | 1 => .info
  | _ => .debug

/-- The options and output of the run file, if one is named; else the defaults. -/
def fromRunFile (p : Parsed) (contentAt : String → RunFile.Content) (strict : Bool) :
    Telling RunFile.Problem (BindOptions × Option String) := do
  match p.runFile? with
  | none => return (.default, none)
  | some path =>
    let es ← RunFile.load strict path (contentAt path)
    let (o, problem, warnings) := RunFile.apply strict es .default
    warnings.forM Telling.tell
    match problem with
    | some problem => throw problem
    | none => return (o, ← RunFile.outputOf strict es)

/-- The options and output that the command line asks for. -/
def options (p : Parsed) (contentAt : String → RunFile.Content) (environment : Option String) :
    Telling RunFile.Problem (BindOptions × Option String) := do
  let strict := p.has .strict || RunFile.strictByEnvironment environment false
  let (o, output) ← p.fromRunFile contentAt strict
  return (o.applyAll p.settings, p.nonempty? .output <|> output)

end Parsed

end HeaderBind.CommandLine
