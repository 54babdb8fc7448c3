import HeaderBind.Binding.Module
import HeaderBind.Collect
import HeaderBind.Cursor.Dump
import HeaderBind.Ingestion
import HeaderBind.Journal.Duration
import HeaderBind.Source.Module
import HeaderBind.Source.Preamble
import HeaderBind.Toolchain
/-!
From options to bindings in four phases. Each phase is current while it runs, so that its events are told
under its name, and ends with how long it took, also when it fails; none runs after one that failed.
-/
namespace HeaderBind

inductive Phase where
  | configure | ingest | resolve | generate
  deriving DecidableEq, Repr

def Phase.name : Phase → String
  | configure => "configure" | ingest => "ingest" | resolve => "resolve" | generate => "generate"

/-- Why a run of the pipeline ended without bindings. -/
inductive Failure where
  | configuration (e : ConfigurationError)
  | ingestion (e : IngestionError)
  | resolution (e : ResolutionError)
  | generation (e : GenerationError)
  deriving DecidableEq

namespace Failure

def message : Failure → String
  | configuration e => e.message
  | ingestion e => e.message
  | resolution e => e.message
  | generation e => e.message

/-- The phase that failed. -/
def phase : Failure → Phase
  | configuration _ => .configure
  | ingestion _ => .ingest
  | resolution _ => .resolve
  | generation _ => .generate

end Failure

/-- What a run makes: the items of the module, and the tree of cursors if it was asked for. -/
structure Bindings where
  items : List (Item Expr)
  tree : Option String

/-- The text of the whole module. -/
def Bindings.text (b : Bindings) : String := Source.textOf Preamble.parts b.items

namespace Pipeline

/-- What a run has to work with. -/
structure Tools where
  /-- What comes of looking for a toolchain, and what is told meanwhile. -/
  toolchain : Except ConfigurationError Toolchain × List Event
  parse : List String → ParserAnswer
  /-- Milliseconds that a phase takes. -/
  took : Phase → Nat

/-- What a run leaves behind so far: what was told, which phase is current, which phases ran, and with
which arguments the parser was called. -/
structure Progress where
  journal : Journal
  current : String
  phases : List Phase
  calls : List (List String)

abbrev Steps (α : Type) := ExceptT Failure (StateM Progress) α

namespace Steps

/-- Tells an event in the phase that is current. -/
def tell (e : Event) : Steps Unit :=
  modify fun s => { s with journal := s.journal ++ [⟨s.current, e⟩] }

def makeCurrent (phase : String) : Steps Unit := modify fun s => { s with current := phase }

end Steps

variable (t : Tools)

/-- Makes a phase current for some steps. Whether or not they fail, the log tells how long they took,
and the phase that was current before is so again. -/
def within {α : Type} (p : Phase) (steps : Steps α) : Steps α := do
  let outer := (← get).current
  Steps.makeCurrent p.name
  modify fun s => { s with phases := s.phases ++ [p] }
  try steps
  finally
    Steps.tell (Journal.finished p.name (t.took p))
    Steps.makeCurrent outer

/-- A phase that tells events and then ends as its outcome says. -/
def phase {ε α : Type} (p : Phase) (failure : ε → Failure)
    (result : Except ε α × List Event) : Steps α := within t p do
  result.2.forM Steps.tell
  match result.1 with
  | .ok a => return a
  | .error e => throw (failure e)

/-- The options are looked at before the toolchain is. -/
def configured (o : BindOptions) :
    Except ConfigurationError (Option IntKind × Toolchain) × List Event :=
  match o.enumKind? with
  | .error name => (.error (.unknownEnumOverride name), [])
  | .ok kind =>
    match t.toolchain with
    | (.ok f, events) => (.ok (kind, f), events)
    | (.error e, events) => (.error e, events)

/-- All phases in order. -/
def steps (o : BindOptions) : Steps Bindings := do
  let (kind, toolchain) ← phase t .configure .configuration (configured t o)
  let arguments := toolchain.arguments ++ o.parserArgs
  modify fun s => { s with calls := s.calls ++ [arguments] }
  let unit ← phase t .ingest .ingestion (ingest arguments (t.parse arguments))
  let graph ← phase t .resolve .resolution (unit.table.declarations (o.collecting kind))
  let items ← phase t .generate .generation (Binder.items ⟨graph, o.emitting⟩)
  return ⟨items, if o.dumpTree then some (unit.table.dump fun _ => true) else none⟩

/-- Runs all phases while some phase is current; gives the outcome and what the run left behind. -/
def runFrom (outer : String) (o : BindOptions) : Except Failure Bindings × Progress :=
  (ExceptT.run (steps t o)).run ⟨[], outer, [], []⟩

/-- Runs all phases outside any other. -/
def run (o : BindOptions) : Except Failure Bindings × Progress := runFrom t noPhase o

end Pipeline

end HeaderBind
