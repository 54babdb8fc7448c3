import HeaderBind.Decl.Graph
import HeaderBind.DepthFirst
/-!
The check that a graph is whole: every key it mentions is there, and no declaration holds itself by
value.
-/
namespace HeaderBind.DeclGraph

/-- The keys that the declaration with the key holds by value. -/
def valueKeys (g : DeclGraph) (key : String) : List String :=
  match g.get? key with
  | some d => d.valueKeys
  | none => []

/-- The first mention of a key that is not in the graph. -/
def firstDangling (g : DeclGraph) : Option ResolutionError :=
  g.decls.findSome? fun d =>
    (d.mentions.find? fun key => !g.contains key).map (.dangling d)

/-- The fault of a cycle, reported for the declaration it comes back to. -/
def cycleError (g : DeclGraph) (cycle : List String) : ResolutionError :=
  let key := cycle.getLast?.getD ""
  match g.get? key with
  | some d => .embeddingCycle d (cycle.filterMap fun k => (g.get? k).map Decl.name)
  | none => .unresolved key

/-- Fails at the first dangling mention, else at the first cycle of holding by value. -/
def check (g : DeclGraph) : Except ResolutionError Unit :=
  match g.firstDangling with
  | some e => .error e
  | none =>
    match DepthFirst.order g.valueKeys g.keys with
    | .ok _ => .ok ()
    | .error cycle => .error (g.cycleError cycle)

/-- Closes the graph to further declarations once it is whole. -/
def freeze (g : DeclGraph) : Except ResolutionError DeclGraph :=
  match g.check with
  | .ok _ => .ok { g with frozen := true }
  | .error e => .error e

end HeaderBind.DeclGraph
