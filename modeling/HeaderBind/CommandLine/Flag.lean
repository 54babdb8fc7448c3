import HeaderBind.Scalar
/-! The flags of the command line: how each is spelled and whether a value follows it. -/
namespace HeaderBind.CommandLine

inductive Flag where
  | help | output | link | staticLink | frameworkLink | symbolLead | pattern | builtins
  | allowUnknownTypes | enumOverride | constantEnums | noFunctions | noEnums | noObjects | noTypes
  | noDeriveDebug | noDeriveCopy | noLayoutChecks | dumpTree | runFile | strict | verbose
  deriving DecidableEq, Repr

namespace Flag

def all : List Flag :=
  [help, output, link, staticLink, frameworkLink, symbolLead, pattern, builtins,
    allowUnknownTypes, enumOverride, constantEnums, noFunctions, noEnums, noObjects, noTypes,
    noDeriveDebug, noDeriveCopy, noLayoutChecks, dumpTree, runFile, strict, verbose]

/-- The letter of a flag that can be written with one dash. -/
def letter? : Flag → Option Char
  | help => some 'h'
  | output => some 'o'
  | link => some 'l'
  | verbose => some 'v'
  | _ => none

/-- The word of a flag, written with two dashes. -/
def word : Flag → String
  | help => "help"
  | output => "output"
  | link => "link"
  | staticLink => "static-link"
  | frameworkLink => "framework-link"
  | symbolLead => "link-prefix"
  | pattern => "match"
  | builtins => "builtins"
  | allowUnknownTypes => "allow-unknown-types"
  | enumOverride => "override-enum-type"
  | constantEnums => "constified-enums"
  | noFunctions => "no-functions"
  | noEnums => "no-enums"
  | noObjects => "no-globals"
  | noTypes => "no-types"
  | noDeriveDebug => "no-derive-debug"
  | noDeriveCopy => "no-derive-copy"
  | noLayoutChecks => "no-layout-checks"
  | dumpTree => "emit-clang-ast"
  | runFile => "config"
  | strict => "strict-config"
  | verbose => "verbose"

def takesValue : Flag → Bool
  | output | link | staticLink | frameworkLink | symbolLead | pattern | enumOverride | runFile =>
    true
  | _ => false

/-- The values that a flag is limited to. -/
def choices? : Flag → Option (List String)
  | enumOverride => some (enumOverrides.map (·.1))
  | _ => none

/-- Every spelling of the flag, the short one first. -/
def spellings (f : Flag) : List String :=
  (f.letter?.map fun c => String.ofList ['-', c]).toList ++ ["--" ++ f.word]

/-- The flag as messages mention it. -/
def title (f : Flag) : String := "/".intercalate f.spellings

def ofSpelling? (s : String) : Option Flag :=
  all.find? fun f => f.spellings.contains s

def ofLetter? (c : Char) : Option Flag :=
  all.find? fun f => f.letter? == some c

end Flag

end HeaderBind.CommandLine
