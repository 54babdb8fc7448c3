/-!
Depth-first search along `next`. Every node is left after all that it leads to, so the nodes left,
last first, are in order unless some node leads back to itself. `unopened` holds the nodes that are
not on the current path; it shrinks with every step down, which bounds the search.
-/
namespace HeaderBind.DepthFirst

variable {α : Type} [DecidableEq α]

/-- Visits the nodes in order, and before each what it leads to. `left` lists the nodes already left,
last first. Gives the longer list, or the first cycle as a path from a node back to it. -/
def visit (next : α → List α) (unopened path left : List α) :
    List α → Except (List α) (List α)
  | [] => .ok left
  | node :: rest =>
    if node ∈ left then visit next unopened path left rest
    else if opens : node ∈ unopened then
      have := List.length_erase_of_mem opens
      have := List.length_pos_of_mem opens
      match visit next (unopened.erase node) (path ++ [node]) left (next node) with
      | .ok left => visit next unopened path (node :: left) rest
      | .error cycle => .error cycle
    else .error (path.drop (path.idxOf node) ++ [node])
termination_by nodes => (unopened.length, nodes.length)
decreasing_by
  · exact Prod.Lex.right _ (by simp)
  · exact Prod.Lex.left _ _ (by omega)
  · exact Prod.Lex.right _ (by simp)

/-- The nodes in an order in which each follows what it leads to, or a cycle among them. -/
def order (next : α → List α) (nodes : List α) : Except (List α) (List α) :=
  (visit next nodes [] [] nodes).map List.reverse

end HeaderBind.DepthFirst
