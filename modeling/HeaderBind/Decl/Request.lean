import HeaderBind.Decl.Embedding
/-!
Requests to one declaration graph, one after another. A request that fails leaves the graph as it
was; of those that do not, only adding and freezing change it.
-/
namespace HeaderBind.DeclGraph

inductive Request where
  | add (d : Decl)
  | get (key : String)
  | has (key : String)
  | lookup (key : String)
  | canonical (type : CType)
  | valueKeys (key : String)
  | check
  | freeze

inductive Answer where
  | decl (d : Decl)
  | found (d : Option Decl)
  | flag (b : Bool)
  | type (t : CType)
  | keys (ks : List String)
  | nothing

/-- The declaration that a request asks to add. -/
def Request.added? : Request → Option Decl
  | .add d => some d
  | _ => none

/-- The answer to a request, and the graph afterwards. -/
def answer (g : DeclGraph) : Request → Except ResolutionError Answer × DeclGraph
  | .add d =>
    match g.add d with
    | .ok (first, g') => (.ok (.decl first), g')
    | .error e => (.error e, g)
  | .get key => (.ok (.found (g.get? key)), g)
  | .has key => (.ok (.flag (g.contains key)), g)
  | .lookup key => ((g.lookup key).map .decl, g)
  | .canonical type => ((g.canonical type).map .type, g)
  | .valueKeys key => ((g.lookup key).map fun d => .keys d.valueKeys, g)
  | .check => (g.check.map fun _ => .nothing, g)
  | .freeze =>
    match g.freeze with
    | .ok g' => (.ok (.flag true), g')
    | .error e => (.error e, g)

/-- The graph after the requests. -/
def after (g : DeclGraph) (requests : List Request) : DeclGraph :=
  requests.foldl (fun g request => (g.answer request).2) g

end HeaderBind.DeclGraph
