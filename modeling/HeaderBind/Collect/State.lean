import HeaderBind.Cursor.BareName
import HeaderBind.Cursor.Query
import HeaderBind.Decl.Embedding
import HeaderBind.Journal
import HeaderBind.Text.FreshName
/-!
What collecting declarations keeps while it walks the cursors: the graph so far, the names that are
spelled or made up, which anonymous tags belong to which record, where definitions stood, and which
keys are folded into others.
-/
namespace HeaderBind

/-- What to collect and how. A declaration is bound when the name of its file holds some pattern, or
when there are no patterns. No name holds a pattern that was asked for without a text. -/
structure CollectOptions where
  patterns : List (Option String)
  builtins : Bool
  failOnUnknownType : Bool
  enumOverride : Option IntKind
  deriving DecidableEq

def CollectOptions.default : CollectOptions := ⟨[], false, true, none⟩

/-- Declarations that compilers bring along. -/
def builtinNames : List String :=
  ["__va_list_tag", "__va_list", "__builtin_va_list", "__builtin_ms_va_list", "__int128_t",
    "__uint128_t", "__NSConstantString", "__NSConstantString_tag"]

inductive Tag where
  | struct | union | enum
  deriving DecidableEq, Repr

def Tag.word : Tag → String
  | struct => "struct" | union => "union" | enum => "enum"

/-- From where a type is looked at. An anonymous type found there is named after `owner` and
`member` and is bound when `retain` holds; unknown types are no failure inside a builtin. -/
structure Site where
  place : String
  owner : String
  member : String
  retain : Bool
  builtin : Bool
  deriving DecidableEq

def Site.at (s : Site) (owner member : String) : Site := { s with owner := owner, member := member }

namespace Collect

structure State where
  graph : DeclGraph
  /-- Keys of anonymous tags that a typedef names, with that name. -/
  adopted : List (String × String)
  /-- Names that the headers spell. -/
  spelled : List String
  /-- Names made up so far. -/
  synthesized : List String
  /-- Anonymous tags outside records, in the order they were numbered. -/
  numbered : List Tag
  /-- Keys of typedefs seen at the top. -/
  seenTypedefs : List String
  /-- Records with the anonymous tags declared inside them. -/
  nested : List (String × String)
  /-- Places of definitions, with the key first defined there. -/
  definedAt : List (String × String)
  /-- Keys whose definition repeats that of another key. -/
  folded : List (String × String)
  events : List Event

def State.start : State := ⟨.empty, [], [], [], [], [], [], [], [], []⟩

end Collect

/-- Steps of collecting; what was collected and told before a failure stays. -/
abbrev Collect (α : Type) := ExceptT ResolutionError (StateM Collect.State) α

namespace Collect

def fail {α : Type} (e : ResolutionError) : Collect α := throw e

def tell (e : Event) : Collect Unit := modify fun s => { s with events := s.events ++ [e] }

def trace (level : Level) (message : String) : Collect Unit :=
  tell (.trace level Reporter.collector message)

def find? (key : String) : Collect (Option Decl) := return (← get).graph.get? key

/-- Adds a declaration whose key is free. -/
def add (d : Decl) : Collect Unit := do
  match (← get).graph.add d with
  | .ok (_, g) => modify fun s => { s with graph := g }
  | .error e => fail e

def setBody (key : String) (body : Decl.Body) : Collect Unit :=
  modify fun s => { s with graph := s.graph.setBody key body }

/-- The key under which the definition of a key is kept. -/
def redirect (key : String) : Collect String :=
  return ((← get).folded.lookup key).getD key

def fold (key target : String) : Collect Unit :=
  modify fun s => { s with folded := (key, target) :: s.folded }

def unfold (key : String) : Collect Unit :=
  modify fun s => { s with folded := s.folded.filter (·.1 != key) }

/-- Makes up a name that nothing else has. -/
def unique (base : String) : Collect String := do
  let s ← get
  let name := Text.freshName (s.spelled ++ s.synthesized) base
  set { s with synthesized := s.synthesized ++ [name] }
  return name

def addNested (owner key : String) : Collect Unit :=
  modify fun s => { s with nested := s.nested ++ [(owner, key)] }

end Collect

/-- What stays the same throughout: the parsed unit and the options. -/
structure Collector where
  table : CursorTable
  options : CollectOptions

namespace Collector

variable (w : Collector)

/-- Whether the options ask for declarations from where the cursor stands. -/
def wants (c : Cursor) : Bool :=
  match c.origin with
  | none => true
  | some file =>
    w.options.patterns.isEmpty || file.isEmpty ||
      w.options.patterns.any (·.any (Text.holds file))

def retains (c : Cursor) (builtin : Bool) : Bool :=
  (!builtin || w.options.builtins) && w.wants c

/-- The site of a declaration at the top of a file or record. -/
def siteOf (c : CursorId) (builtin : Bool) : Site :=
  let cursor := w.table.cursor c
  let name := bareName cursor.name
  let place := if name.isEmpty then cursor.place else cursor.place ++ ": `" ++ name ++ "`"
  ⟨place, "", "", false, builtin⟩

/-- A name for an anonymous tag: the typedef's that adopts it, else one made from the record and
member it stands in, else a number. -/
def anonymousName (decl : CursorId) (tag : Tag) (site : Site) : Collect String := do
  let s ← get
  let adopted := (s.adopted.lookup (w.table.keyOf decl)).getD ""
  if !adopted.isEmpty then return adopted
  if !site.owner.isEmpty && !site.member.isEmpty then
    Collect.unique (site.owner ++ "_" ++ site.member)
  else
    set { s with numbered := s.numbered ++ [tag] }
    Collect.unique ("anon_" ++ tag.word ++ "_" ++ toString (s.numbered.count tag))

/-- Remembers that the key is defined where the cursor stands; the first definition at a place
stays. -/
def noteDefined (decl : CursorId) (key : String) : Collect Unit := do
  let cursor := w.table.cursor decl
  if (cursor.origin.getD "").isEmpty then return
  let s ← get
  if (s.definedAt.lookup cursor.place).isNone then
    set { s with definedAt := s.definedAt ++ [(cursor.place, key)] }

/-- What was first defined where the cursor stands, under another key. A header included twice
defines its records again at the same place; the parser then drops the name of the second
definition and gives it an identifier of its own. -/
def definedBefore (decl : CursorId) (key : String) : Collect (Option Decl) := do
  let cursor := w.table.cursor decl
  if (cursor.origin.getD "").isEmpty || !cursor.defines then return none
  let s ← get
  match s.definedAt.lookup cursor.place with
  | none => return none
  | some first =>
    if first = key then return none
    match s.graph.get? first with
    | none => return none
    | some d =>
      let spelled := bareName cursor.name
      if !spelled.isEmpty && spelled != d.name then return none
      return some d

end Collector

end HeaderBind
