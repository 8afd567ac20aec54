import Wiring.Export.Tree
import Wiring.Graph.OfStorage
import Wiring.Graph.Order

/-!
# Snapshots of the dependency graph

A `Snapshot` lists the nodes and edges of the graph of a storage together with what is stored at the
nodes, the order of the graph, and counts. Nodes have short ids, by which the edges refer to them:
the root has its own, and every other node is numbered by its position.
-/

namespace Wiring.Export

/-- A node of a snapshot: the root, a stored entry, or an address where nothing is stored. -/
structure SnapshotNode where
  id : String
  label : String
  /-- `none` if nothing is stored at the address. -/
  kind : Option Kind
  relation : Option Relation
  service : Option ServiceState
  typeName : Option String
  deriving DecidableEq, Repr, Inhabited

/-- Whether a node stands for an address where nothing is stored. -/
def SnapshotNode.isMissing (n : SnapshotNode) : Bool :=
  n.kind.isNone && n.label ≠ Node.root.label

/-- An edge between the ids of two nodes. -/
structure SnapshotEdge where
  source : String
  target : String
  deriving DecidableEq, Repr, Inhabited

/-- What a snapshot says of itself. -/
structure Metadata where
  /-- The name of the container. -/
  container : String
  entryCount : Nat
  edgeCount : Nat
  serviceCount : Nat
  constructorCount : Nat
  hasCycle : Bool
  /-- When the snapshot was taken; empty if that is not told. -/
  exportedAt : String
  version : String
  deriving DecidableEq, Repr, Inhabited

/-- A snapshot of a dependency graph. -/
structure Snapshot where
  nodes : List SnapshotNode
  edges : List SnapshotEdge
  /-- The order of the addresses, empty if the graph has a cycle. -/
  order : List String
  metadata : Metadata
  deriving DecidableEq, Repr, Inhabited

/-- The version of the snapshots taken here. -/
def snapshotVersion : String := "1.0"

/-- The id of the root. -/
def rootId : String := "root"

/-- The id of a node at a position in the list of nodes. -/
def nodeId (position : Nat) : Node → String
  | .root => rootId
  | .key _ => "n" ++ toString position

namespace Snapshot

/-- The node of a snapshot for a node of the graph. -/
def describeNode (descriptors : List EntryDescriptor) (node : Node) (id : String) : SnapshotNode :=
  let entry? := node.address?.bind fun a => descriptors.find? fun d => d.address = a
  { id
    label := node.label
    kind := entry?.map EntryDescriptor.kind
    relation := entry?.map EntryDescriptor.relation
    service := entry?.map EntryDescriptor.service
    typeName := entry?.map EntryDescriptor.typeName }

/-- The nodes of a snapshot. -/
def describeNodes (descriptors : List EntryDescriptor) (nodes : List Node) : List SnapshotNode :=
  nodes.mapIdx fun position node => describeNode descriptors node (nodeId position node)

/-- The id that is found for a label; of several nodes with one label the last one counts. -/
def idOf? (nodes : List SnapshotNode) (label : String) : Option String :=
  (nodes.reverse.find? fun n => n.label = label).map SnapshotNode.id

/-- The edges of a snapshot, by the ids of their ends. -/
def describeEdges (nodes : List SnapshotNode) (edges : List (Node × Node)) : List SnapshotEdge :=
  edges.filterMap fun edge => do
    some { source := ← idOf? nodes edge.1.label, target := ← idOf? nodes edge.2.label }

/-- Takes a snapshot of a storage, for the container with the given name. -/
def ofStorage (container : String) (s : Storage) : Except Error Snapshot := do
  let descriptors := s.descriptors
  let graph := s.graph
  let nodes := describeNodes descriptors graph.nodes
  let (order, hasCycle) ← match graph.order with
    | .ok order => pure (order.map Address.text, false)
    | .error (.cycle _) => pure ([], true)
    | .error e => throw e
  return {
    nodes
    edges := describeEdges nodes graph.edges
    order
    metadata := {
      container
      entryCount := descriptors.length
      edgeCount := graph.edgeCount
      serviceCount := (descriptors.filter EntryDescriptor.isService).length
      constructorCount := (descriptors.filter EntryDescriptor.isConstructor).length
      hasCycle
      exportedAt := ""
      version := snapshotVersion } }

end Snapshot

/-! ## Snapshots as trees -/

/-- A node as a tree. -/
def SnapshotNode.tree (n : SnapshotNode) : Tree :=
  .record [
    ("id", .text n.id),
    ("label", .text n.label),
    ("kind", .ofText? (n.kind.map Kind.name)),
    ("relation", .ofText? (n.relation.map Relation.name)),
    ("service", .ofText? (n.service.map ServiceState.name)),
    ("type_name", .ofText? n.typeName)]

/-- An edge as a tree. -/
def SnapshotEdge.tree (e : SnapshotEdge) : Tree :=
  .record [("from", .text e.source), ("to", .text e.target)]

/-- Metadata as a tree. -/
def Metadata.tree (m : Metadata) : Tree :=
  .record [
    ("container", .text m.container),
    ("entry_count", .number m.entryCount),
    ("edge_count", .number m.edgeCount),
    ("service_count", .number m.serviceCount),
    ("constructor_count", .number m.constructorCount),
    ("has_cycle", .flag m.hasCycle),
    ("exported_at", .text m.exportedAt),
    ("version", .text m.version)]

/-- A snapshot as a tree. -/
def Snapshot.tree (s : Snapshot) : Tree :=
  .record [
    ("nodes", .list (s.nodes.map SnapshotNode.tree)),
    ("edges", .list (s.edges.map SnapshotEdge.tree)),
    ("order", .list (s.order.map Tree.text)),
    ("metadata", s.metadata.tree)]

end Wiring.Export
