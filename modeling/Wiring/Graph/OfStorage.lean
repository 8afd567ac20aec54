import Wiring.Graph.Basic
import Wiring.Storage

/-!
# The graph of a storage

Every entry contributes its edges: the slots of its parameters or fields come before a provider, a
constructor comes before the slots of its outputs, and whatever needs nothing comes after the root.
-/

namespace Wiring

/-- The node that a request for a type leads to. -/
def ComponentType.requestNode (t : ComponentType) : Node := .key t.request.address

/-- The node where a component of a type is stored. -/
def ComponentType.outputNode (t : ComponentType) : Node := .key t.descriptor.address

/-- The edges into a node from the slots of its requirements, or from the root if there are
none. -/
def requirementEdges (node : Node) : List ComponentType → List (Node × Node)
  | [] => [(.root, node)]
  | types => types.map fun t => (t.requestNode, node)

/-- The edges of an entry. -/
def Entry.edges (e : Entry) : List (Node × Node) :=
  let node := Node.key e.address
  match e.payload with
  | .value _ => [(.root, node)]
  | .constructor c =>
    requirementEdges node c.callable.params ++
      c.callable.outputs.map fun t => (node, t.outputNode)
  | .template t => requirementEdges node (t.fields.map Field.type)

/-- The graph of a list of entries. -/
def Graph.ofEntries (entries : List Entry) : Graph :=
  Graph.empty.addEdges (entries.flatMap Entry.edges)

/-- The graph of the entries in a storage. -/
def Storage.graph (s : Storage) : Graph := Graph.ofEntries s.entries

end Wiring
