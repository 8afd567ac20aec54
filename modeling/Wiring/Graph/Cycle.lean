import Wiring.Graph.Basic

/-!
# Search for a cycle

`Graph.cycle?` searches the graph depth first, from each node in turn and along the successors of
a node in ascending order. The search keeps the path to the node it stands on and the nodes it has
finished. A successor that lies on the path closes a cycle, which is reported from there on, with
its first node repeated at the end; finished nodes are not entered again.
-/

namespace Wiring.Graph

/-- The cycle closed by reaching `node` again, given the path to it with the latest node first. -/
def closedPath (path : List Node) (node : Node) : List Node :=
  node :: ((path.takeWhile (· ≠ node)).reverse ++ [node])

/-- Visits a node at the end of `path` (latest node first): the cycle found, or the nodes finished
by then. A path never repeats a node, so `fuel` is not exhausted if it exceeds the number of nodes
that are not on the path. -/
def visit (g : Graph) : Nat → List Node → List Node → Node → Except (List Node) (List Node)
  | 0, _, finished, _ => .ok finished
  | fuel + 1, path, finished, node =>
    if node ∈ path then .error (closedPath path node)
    else if node ∈ finished then .ok finished
    else
      match (g.next node).foldlM (fun finished node' => visit g fuel (node :: path) finished node')
          finished with
      | .ok finished => .ok (node :: finished)
      | .error cycle => .error cycle

/-- The first cycle of the search, as a closed path of nodes. -/
def cycle? (g : Graph) : Option (List Node) :=
  match g.nodes.foldlM (fun finished node => g.visit (g.nodes.length + 1) [] finished node) [] with
  | .ok _ => none
  | .error cycle => some cycle

end Wiring.Graph
