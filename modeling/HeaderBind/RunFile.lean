import HeaderBind.Journal
import HeaderBind.Options
import HeaderBind.RunFile.Value
import HeaderBind.Text.Blank
import HeaderBind.Text.LowerCase
/-!
Run files: the settings of a run as a mapping. What a mapping asks for is a list of steps that does
not depend on how strict the reader is; a strict reader stops at the first problem, a lenient one
warns of each and goes on without it. A file that cannot be read at all is a stop for both.
-/
namespace HeaderBind.RunFile

inductive Problem where
  | missing (path : String)
  | malformed (path reason : String)
  /-- Something is at the path that cannot be read as text. -/
  | unreadable (path reason : String)
  | notMapping (kind : String)
  | unknownKey (key : String)
  | notTexts (key : String)
  | notLinks
  | invalidLink (entry : Value)
  | unknownLinkKind (kind library : String)
  | notBoolean (key : String)
  | notText (key : String)
  | notEmitMapping
  | invalidEmit (key : String) (value : Value)
  deriving DecidableEq

namespace Problem

def message : Problem → String
  | missing path => "Run file not found: " ++ path
  | malformed path reason => "Failed to parse run file YAML at " ++ path ++ ": " ++ reason
  | unreadable _ reason => reason
  | notMapping kind => "Unexpected run file payload type: " ++ kind
  | unknownKey key => "unknown run file key `" ++ key ++ "`"
  | notTexts key => "`" ++ key ++ "` must be a list of strings"
  | notLinks => "`links` must be a list"
  | invalidLink entry => "invalid link entry " ++ entry.quoted
  | unknownLinkKind kind library => "unknown link kind `" ++ kind ++ "` for `" ++ library ++ "`"
  | notBoolean key => "`" ++ key ++ "` must be a boolean"
  | notText key => "`" ++ key ++ "` must be a string"
  | notEmitMapping => "`emit` must be a mapping"
  | invalidEmit key value => "invalid emit entry `" ++ key ++ ": " ++ value.quoted ++ "`"

/-- Whether no reader looks for the problem, strict or lenient, so that it ends the run. -/
def escapes : Problem → Bool
  | unreadable _ _ => true
  | _ => false

/-- What a lenient reader does instead. -/
def remedy : Problem → String
  | missing _ | malformed _ _ | notMapping _ => "; continuing with defaults"
  | unreadable _ _ => ""
  | _ => "; ignoring it"

/-- The warning of a lenient reader. -/
def warning (p : Problem) : Event :=
  .trace .warning Reporter.runFile (p.message ++ p.remedy)

end Problem

/-- What is found at the path of a run file. -/
inductive Content where
  | missing
  /-- A text that is no value. -/
  | malformed (reason : String)
  /-- Something that is not read as text to its end: a directory, a file that may not be read, bytes that
  are no text, or a text on which the reader of values itself fails. -/
  | unreadable (reason : String)
  | value (v : Value)
  deriving DecidableEq

/-- The mapping in the file; an empty file is an empty mapping. -/
def mapping (path : String) : Content → Except Problem Entries
  | .missing => .error (.missing path)
  | .malformed reason => .error (.malformed path reason)
  | .unreadable reason => .error (.unreadable path reason)
  | .value .null => .ok .nil
  | .value (.map es) => .ok es
  | .value v => .error (.notMapping v.kindWord)

/-- One thing that a mapping asks for, or something in it that cannot be followed. -/
inductive Step where
  | change (s : Setting)
  | problem (p : Problem)
  deriving DecidableEq

/-- Keys of switches at the top of a run file. -/
def switches : List (String × Switch) :=
  [("builtins", .builtins), ("emit_ast", .dumpTree), ("derive_debug", .deriveDebug),
    ("derive_copy", .deriveCopy), ("native_enums", .nativeEnums), ("layout_checks", .layoutChecks)]

/-- Keys of switches under the key for what to emit. -/
def emitSwitches : List (String × Switch) :=
  [("functions", .functions), ("enums", .enums), ("globals", .objects), ("types", .types)]

def knownKeys : List String :=
  switches.map (·.1) ++ ["headers", "clang_args", "match", "links", "link_prefix",
    "allow_unknown_types", "override_enum_type", "emit", "output"]

def unknownKeySteps (es : Entries) : List Step :=
  (es.toList.filter fun e => !knownKeys.contains e.1).map fun e => .problem (.unknownKey e.1)

/-- A list of texts under a key; a single text stands for a list of one. -/
def textSteps (es : Entries) (key : String) (setting : String → Setting) : List Step :=
  match es.get? key with
  | none => []
  | some (.text s) => [.change (setting s)]
  | some (.list vs) =>
    match vs.texts? with
    | some texts => texts.map fun s => .change (setting s)
    | none => [.problem (.notTexts key)]
  | some _ => [.problem (.notTexts key)]

/-- A link: the name of a dynamic library, or a mapping with a name and perhaps a kind. -/
def linkOf (entry : Value) : Except Problem Link :=
  match entry with
  | .text name => .ok (some name, .dynamic)
  | .map es =>
    match es.get? "name" with
    | some (.text name) =>
      let kind := Text.lower ((es.get? "kind").map Value.plain |>.getD "dynamic")
      match LinkKind.ofWord? kind with
      | some kind => .ok (some name, kind)
      | none => .error (.unknownLinkKind kind name)
    | _ => .error (.invalidLink entry)
  | _ => .error (.invalidLink entry)

/-- The links; all problems among them come before the first link that is set. -/
def linkSteps (es : Entries) : List Step :=
  match es.get? "links" with
  | none => []
  | some (.list vs) =>
    let links := vs.toList.map linkOf
    (links.filterMap fun
      | .error p => some (.problem p)
      | .ok _ => none) ++
    links.filterMap fun
      | .ok link => some (.change (.link link))
      | .error _ => none
  | some _ => [.problem .notLinks]

/-- A boolean under a key. -/
def boolSteps (es : Entries) (key : String) (setting : Bool → Setting) : List Step :=
  match es.get? key with
  | none => []
  | some (.bool b) => [.change (setting b)]
  | some _ => [.problem (.notBoolean key)]

def wordSteps (es : Entries) (key : String) (setting : String → Setting) : List Step :=
  match es.get? key with
  | none => []
  | some (.text s) => [.change (setting s)]
  | some _ => [.problem (.notText key)]

def emitStep (key : String) (value : Value) : Step :=
  match emitSwitches.lookup key, value with
  | some which, .bool on => .change (.switch which on)
  | _, _ => .problem (.invalidEmit key value)

def emitSteps (es : Entries) : List Step :=
  match es.get? "emit" with
  | none => []
  | some (.map entries) => entries.toList.map fun (key, value) => emitStep key value
  | some _ => [.problem .notEmitMapping]

/-- What the mapping asks for, in the order it takes effect. -/
def steps (es : Entries) : List Step :=
  unknownKeySteps es ++
    textSteps es "clang_args" .parserArg ++
    textSteps es "headers" .parserArg ++
    textSteps es "match" (.pattern ∘ some) ++
    linkSteps es ++
    switches.flatMap (fun (key, which) => boolSteps es key (.switch which)) ++
    boolSteps es "allow_unknown_types" (fun allow => .switch .failOnUnknownType !allow) ++
    wordSteps es "link_prefix" (.symbolLead ∘ some) ++
    wordSteps es "override_enum_type" (.enumOverride ∘ some) ++
    emitSteps es

/-- The output that the mapping names. -/
def output (es : Entries) : Except Problem (Option String) :=
  match es.get? "output" with
  | none | some .null => .ok none
  | some (.text path) => .ok (some path)
  | some _ => .error (.notText "output")

/-- Follows the steps up to the first problem. -/
def applyStrict : List Step → BindOptions → BindOptions × Option Problem
  | [], o => (o, none)
  | .change s :: rest, o => applyStrict rest (o.apply s)
  | .problem p :: _, o => (o, some p)

def changes (steps : List Step) : List Setting :=
  steps.filterMap fun
    | .change s => some s
    | .problem _ => none

def problems (steps : List Step) : List Problem :=
  steps.filterMap fun
    | .problem p => some p
    | .change _ => none

/-- Follows all steps but the problems, and warns of each of those. -/
def applyLenient (steps : List Step) (o : BindOptions) : BindOptions × List Event :=
  (o.applyAll (changes steps), (problems steps).map Problem.warning)

/-- Sets the options as the mapping asks; with the options reached comes the problem that stopped a
strict reader, and the warnings of a lenient one. -/
def apply (strict : Bool) (es : Entries) (o : BindOptions) :
    BindOptions × Option Problem × List Event :=
  if strict then
    let (o, problem) := applyStrict (steps es) o
    (o, problem, [])
  else
    let (o, warnings) := applyLenient (steps es) o
    (o, none, warnings)

/-- A result that a lenient reader replaces by `instead`, with a warning, if the problem is one that readers
look for. -/
def excuse {α : Type} (strict : Bool) (instead : α) : Except Problem α → Telling Problem α
  | .ok a => return a
  | .error p => do
    if strict || p.escapes then throw p
    Telling.tell p.warning
    return instead

/-- The mapping at a path. -/
def load (strict : Bool) (path : String) (content : Content) : Telling Problem Entries :=
  excuse strict .nil (mapping path content)

/-- The output that the mapping names, for a strict or a lenient reader. -/
def outputOf (strict : Bool) (es : Entries) : Telling Problem (Option String) :=
  excuse strict none (output es)

/-- Whether the value of the environment variable asks for strict reading. -/
def strictByEnvironment (value : Option String) (otherwise : Bool) : Bool :=
  match value with
  | none => otherwise
  | some s =>
    ["1", "true", "yes", "on"].contains (Text.lower (String.ofList (Text.trim s.toList)))

end HeaderBind.RunFile
