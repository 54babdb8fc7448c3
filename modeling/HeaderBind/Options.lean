import HeaderBind.Binding.Rendering
import HeaderBind.Collect.State
/-!
The options of a run and the settings that change them. Whoever asks for something, be it a program, a
run file or a command line, says so in settings; a later setting wins where both set one thing, and
where the option is a list both are kept in order.
-/
namespace HeaderBind

/-- A text is `none` where an option was asked for without one. `enumOverride` is kept as it was
written; the empty text overrides nothing. -/
structure BindOptions where
  patterns : List (Option String)
  builtins : Bool
  nativeEnums : Bool
  links : List Link
  dumpTree : Bool
  failOnUnknownType : Bool
  enumOverride : Option String
  parserArgs : List String
  deriveDebug : Bool
  deriveCopy : Bool
  symbolLead : Option String
  functions : Bool
  enums : Bool
  objects : Bool
  types : Bool
  layoutChecks : Bool
  deriving DecidableEq

def BindOptions.default : BindOptions :=
  ⟨[], false, true, [], false, true, some "", [], true, true, some "", true, true, true, true, true⟩

/-- Options that are on or off. -/
inductive Switch where
  | builtins | nativeEnums | dumpTree | failOnUnknownType | deriveDebug | deriveCopy | functions
  | enums | objects | types | layoutChecks
  deriving DecidableEq, Repr

inductive Setting where
  /-- One more argument for the C parser: a header or an option of the parser. -/
  | parserArg (arg : String)
  | pattern (text : Option String)
  | link (target : Link)
  | symbolLead (text : Option String)
  | enumOverride (name : Option String)
  | switch (which : Switch) (on : Bool)
  deriving DecidableEq

namespace BindOptions

def turn (o : BindOptions) (which : Switch) (on : Bool) : BindOptions :=
  match which with
  | .builtins => { o with builtins := on }
  | .nativeEnums => { o with nativeEnums := on }
  | .dumpTree => { o with dumpTree := on }
  | .failOnUnknownType => { o with failOnUnknownType := on }
  | .deriveDebug => { o with deriveDebug := on }
  | .deriveCopy => { o with deriveCopy := on }
  | .functions => { o with functions := on }
  | .enums => { o with enums := on }
  | .objects => { o with objects := on }
  | .types => { o with types := on }
  | .layoutChecks => { o with layoutChecks := on }

def apply (o : BindOptions) : Setting → BindOptions
  | .parserArg arg => { o with parserArgs := o.parserArgs ++ [arg] }
  | .pattern text => { o with patterns := o.patterns ++ [text] }
  | .link target => { o with links := o.links ++ [target] }
  | .symbolLead text => { o with symbolLead := text }
  | .enumOverride name => { o with enumOverride := name }
  | .switch which on => o.turn which on

/-- The options after the settings, in order. -/
def applyAll (o : BindOptions) (settings : List Setting) : BindOptions :=
  settings.foldl apply o

/-- The kind that the enum override names, if it is one of those known. -/
def enumKind? (o : BindOptions) : Except String (Option IntKind) :=
  match o.enumOverride.filter (!·.isEmpty) with
  | none => .ok none
  | some name =>
    match enumOverrides.lookup name with
    | some kind => .ok (some kind)
    | none => .error name

/-- What to collect, with the kind of every enumeration settled. -/
def collecting (o : BindOptions) (enumOverride : Option IntKind) : CollectOptions :=
  ⟨o.patterns, o.builtins, o.failOnUnknownType, enumOverride⟩

def emitting (o : BindOptions) : EmitOptions :=
  ⟨o.nativeEnums, o.deriveCopy, o.deriveDebug, o.links, o.symbolLead, o.functions, o.enums,
    o.objects, o.types, o.layoutChecks⟩

end BindOptions

end HeaderBind
