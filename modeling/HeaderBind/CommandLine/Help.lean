import HeaderBind.CommandLine.Flag
/-! The text that explains the command line: one entry to a flag, in two columns. -/
namespace HeaderBind.CommandLine

def usage : String := "usage: ctbindgen [options] header... [clang args]\n"

namespace Flag

/-- What stands for the value of a flag. -/
def placeholder? : Flag → Option String
  | output => some "OUTPUT"
  | link | staticLink | frameworkLink | pattern => some "NAME"
  | symbolLead => some "LINK_PREFIX"
  | enumOverride => some ("\x7b" ++ ",".intercalate (enumOverrides.map (·.1)) ++ "\x7d")
  | runFile => some "CONFIG"
  | _ => none

/-- The right column of the entry, line by line. -/
def purpose : Flag → List String
  | help => ["show this help message and exit"]
  | output => ["write bindings to this file (default stdout)"]
  | link => ["link to a dynamic library (repeatable)"]
  | staticLink => ["link to a static library"]
  | frameworkLink => ["link to a framework"]
  | symbolLead => ["prefix applied to every linked symbol name"]
  | pattern => ["only bind declarations from files whose name contains", "NAME (repeatable, OR)"]
  | builtins => ["also bind compiler builtin declarations"]
  | allowUnknownTypes =>
    ["replace unsupported types by opaque placeholders", "instead of failing"]
  | enumOverride => ["underlying integer type for every enum"]
  | constantEnums => ["emit enums as integer constants"]
  | noFunctions => ["don't emit functions"]
  | noEnums => ["don't emit enums"]
  | noObjects => ["don't emit global variables"]
  | noTypes => ["don't emit types"]
  | noDeriveDebug => ["don't add __repr__ to records"]
  | noDeriveCopy => ["don't add copy/clone to records"]
  | noLayoutChecks => ["don't verify record layouts at import"]
  | dumpTree => ["print the clang AST to stderr (debugging)"]
  | runFile => ["YAML run file"]
  | strict => ["fail on any run file problem"]
  | verbose => ["more logging (repeatable)"]

/-- The left column of the entry: every spelling with the value it takes. -/
def invocation (f : Flag) : String :=
  let value := match f.placeholder? with
    | some p => " " ++ p
    | none => ""
  ", ".intercalate (f.spellings.map (· ++ value))

/-- Where the right column starts. -/
def column : Nat := 24

/-- The lines of an entry. A left column that is too wide has a line of its own. -/
def entry (f : Flag) : List String :=
  let left := "  " ++ f.invocation
  let right := f.purpose.map fun line => String.ofList (List.replicate column ' ') ++ line
  match f.purpose with
  | first :: _ =>
    if left.length + 2 ≤ column then
      (left ++ String.ofList (List.replicate (column - left.length) ' ') ++ first) :: right.drop 1
    else left :: right
  | [] => [left]

end Flag

/-- The whole text. -/
def helpText : String :=
  usage ++ "\nGenerate Python ctypes bindings from C headers.\n\noptions:\n" ++
    "\n".intercalate (Flag.all.flatMap Flag.entry) ++
    "\n\nHeaders and options not listed above are passed to clang in the order given;\n" ++
    "use `--` to pass the rest verbatim.\n"

end HeaderBind.CommandLine
