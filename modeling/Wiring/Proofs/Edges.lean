import Wiring.Graph.OfStorage
import Wiring.Proofs.Slots

/-!
# Edges of a graph

The nodes and successors of a graph that is built from edges (`Graph.edge_addEdges`,
`Graph.mem_nodes_addEdges`), that such a graph is `Graph.Proper`, and which edges the graph of a
sound storage has (`Storage.Sound.edge_graph`).
-/

namespace Wiring

namespace Graph

/-- There is an edge between two nodes. -/
def Edge (g : Graph) (a b : Node) : Prop := b ∈ g.next a

/-- Nodes and successors are ascending, and every successor is a node. -/
structure Proper (g : Graph) : Prop where
  ascending_nodes : g.nodes.Pairwise (· < ·)
  ascending_next : ∀ a, (g.next a).Pairwise (· < ·)
  target_mem : ∀ {a b}, g.Edge a b → b ∈ g.nodes

theorem nodup_of_ascending {nodes : List Node} (h : nodes.Pairwise (· < ·)) : nodes.Nodup :=
  h.imp fun {a b} hlt => by
    rintro rfl
    exact Std.Irrefl.irrefl (r := (· < ·)) a hlt

namespace Proper

variable {g : Graph}

theorem nodup_nodes (h : g.Proper) : g.nodes.Nodup := nodup_of_ascending h.ascending_nodes

theorem nodup_next (h : g.Proper) (a : Node) : (g.next a).Nodup := nodup_of_ascending (h.ascending_next a)

end Proper

/-- A node with a successor is a node of the graph. -/
theorem Edge.source {g : Graph} {a b : Node} (h : g.Edge a b) : a ∈ g.nodes := by
  refine Table.mem_keys.2 ?_
  cases hget : g.successors.get? a with
  | some targets => rfl
  | none => simp [Edge, next, hget] at h

/-! ## Adding edges -/

theorem next_addNode (g : Graph) (node a : Node) : (g.addNode node).next a = g.next a := by
  unfold addNode
  split
  · rfl
  · next hget =>
    simp only [next, Table.get?_put]
    split
    · next heq => simp [← heq, hget]
    · rfl

theorem mem_nodes_addNode {g : Graph} {node a : Node} :
    a ∈ (g.addNode node).nodes ↔ a = node ∨ a ∈ g.nodes := by
  unfold addNode
  split
  · next targets hget =>
    have hmem : node ∈ g.nodes := Table.mem_keys.2 (by simp [hget])
    exact ⟨.inr, fun h => h.elim (fun heq => heq ▸ hmem) id⟩
  · rw [nodes, Table.keys_put, mem_insertAscending]
    rfl

theorem next_addEdge (g : Graph) (source target a : Node) : (g.addEdge source target).next a =
    if source = a then insertAscending target (g.next source) else g.next a := by
  simp only [addEdge]
  rw [next, Table.get?_put, next_addNode]
  split
  · rfl
  · exact next_addNode g target a

theorem mem_nodes_addEdge {g : Graph} {source target a : Node} :
    a ∈ (g.addEdge source target).nodes ↔ a = source ∨ a = target ∨ a ∈ g.nodes := by
  rw [addEdge, nodes, Table.keys_put, mem_insertAscending]
  exact or_congr_right mem_nodes_addNode

theorem edge_addEdge {g : Graph} {source target a b : Node} :
    (g.addEdge source target).Edge a b ↔ (a, b) = (source, target) ∨ g.Edge a b := by
  rw [Edge, next_addEdge]
  split
  · next heq =>
    subst heq
    rw [mem_insertAscending]
    simp [Edge]
  · next hne =>
    simp [Edge, Ne.symm hne]

theorem Proper.addNode {g : Graph} (h : g.Proper) (node : Node) : (g.addNode node).Proper := by
  refine ⟨?_, fun a => ?_, fun {a b} hedge => ?_⟩
  · unfold Graph.addNode
    split
    · exact h.ascending_nodes
    · rw [Graph.nodes, Table.keys_put]
      exact pairwise_insertAscending _ h.ascending_nodes
  · rw [next_addNode]
    exact h.ascending_next a
  · rw [Edge, next_addNode] at hedge
    exact mem_nodes_addNode.2 (.inr (h.target_mem hedge))

theorem Proper.addEdge {g : Graph} (h : g.Proper) (source target : Node) :
    (g.addEdge source target).Proper := by
  refine ⟨?_, fun a => ?_, fun {a b} hedge => ?_⟩
  · rw [Graph.addEdge, Graph.nodes, Table.keys_put]
    exact pairwise_insertAscending _ (h.addNode target).ascending_nodes
  · rw [next_addEdge]
    split
    · exact pairwise_insertAscending _ (h.ascending_next source)
    · exact h.ascending_next a
  · rw [mem_nodes_addEdge]
    rcases edge_addEdge.1 hedge with heq | hedge
    · exact .inr (.inl (congrArg Prod.snd heq))
    · exact .inr (.inr (h.target_mem hedge))

/-- An edge of a graph with edges added was there or is one of those. -/
theorem edge_addEdges {g : Graph} {edges : List (Node × Node)} {a b : Node} :
    (g.addEdges edges).Edge a b ↔ g.Edge a b ∨ (a, b) ∈ edges := by
  induction edges generalizing g with
  | nil => simp [addEdges]
  | cons edge edges ih =>
    rw [addEdges, List.foldl_cons, ← addEdges, ih, edge_addEdge, List.mem_cons, or_assoc,
      or_left_comm]

/-- A node of a graph with edges added was there or is an end of one of those. -/
theorem mem_nodes_addEdges {g : Graph} {edges : List (Node × Node)} {a : Node} :
    a ∈ (g.addEdges edges).nodes ↔ a ∈ g.nodes ∨ ∃ edge ∈ edges, a = edge.1 ∨ a = edge.2 := by
  induction edges generalizing g with
  | nil => simp [addEdges]
  | cons edge edges ih =>
    rw [addEdges, List.foldl_cons, ← addEdges, ih, mem_nodes_addEdge]
    simp only [List.mem_cons, exists_eq_or_imp]
    grind

/-- The edges of a graph that is built from nothing are those that were added. -/
theorem edge_empty_addEdges (edges : List (Node × Node)) :
    (Graph.empty.addEdges edges).Edge = fun a b => (a, b) ∈ edges := by
  funext a b
  exact propext (edge_addEdges.trans (or_iff_right fun h => by cases h))

theorem Proper.addEdges {g : Graph} (h : g.Proper) (edges : List (Node × Node)) :
    (g.addEdges edges).Proper := by
  induction edges generalizing g with
  | nil => exact h
  | cons edge edges ih => exact ih (h.addEdge edge.1 edge.2)

theorem Proper.empty : Graph.empty.Proper :=
  ⟨.nil, fun _ => .nil, fun h => by cases h⟩

theorem Proper.ofEntries (entries : List Entry) : (Graph.ofEntries entries).Proper :=
  Proper.empty.addEdges _

/-- The edges of the graph of entries are those of the entries. -/
theorem edge_ofEntries {entries : List Entry} {a b : Node} :
    (Graph.ofEntries entries).Edge a b ↔ ∃ e ∈ entries, (a, b) ∈ e.edges := by
  simp only [Graph.ofEntries, edge_empty_addEdges, List.mem_flatMap]

end Graph

/-! ## The graph of a storage -/

namespace Entry

/-- The types that a provider requests. -/
def requirements (e : Entry) : List ComponentType :=
  match e.payload with
  | .value _ => []
  | .constructor c => c.callable.params
  | .template t => t.fields.map Field.type

/-- The types of the outputs of a constructor. -/
def outputs (e : Entry) : List ComponentType :=
  match e.payload with
  | .constructor c => c.callable.outputs
  | _ => []

theorem edges_eq (e : Entry) : e.edges =
    requirementEdges (.key e.address) e.requirements ++
      e.outputs.map fun t => (Node.key e.address, t.outputNode) := by
  obtain ⟨address, _ | _ | _, relation, service, shadowed⟩ := e <;>
    simp [edges, requirements, outputs, requirementEdges]

/-- An entry puts its requirements before it and its outputs behind it. -/
theorem key_mem_edges {e : Entry} {a b : Address} : (Node.key a, Node.key b) ∈ e.edges ↔
    (b = e.address ∧ ∃ t ∈ e.requirements, t.request.address = a) ∨
      (a = e.address ∧ ∃ t ∈ e.outputs, t.descriptor.address = b) := by
  rw [edges_eq, List.mem_append]
  refine or_congr ?_ ?_
  · cases e.requirements with
    | nil => simp [requirementEdges]
    | cons t types =>
      simp only [requirementEdges, List.mem_map, Prod.mk.injEq, ComponentType.requestNode,
        Node.key.injEq]
      grind
  · simp only [List.mem_map, Prod.mk.injEq, ComponentType.outputNode, Node.key.injEq]
    grind

/-- The root comes before an entry that requests nothing. -/
theorem root_mem_edges {e : Entry} {a : Address} : (Node.root, Node.key a) ∈ e.edges ↔
    a = e.address ∧ e.requirements = [] := by
  rw [edges_eq, List.mem_append]
  cases e.requirements <;> simp [requirementEdges, ComponentType.requestNode]

/-- Nothing comes before the root. -/
theorem not_mem_edges_root {e : Entry} {a : Node} : (a, Node.root) ∉ e.edges := by
  rw [edges_eq, List.mem_append, not_or]
  constructor
  · cases e.requirements <;> simp [requirementEdges]
  · simp [ComponentType.outputNode]

theorem address_mem_edges (e : Entry) :
    ∃ edge ∈ e.edges, Node.key e.address = edge.1 ∨ Node.key e.address = edge.2 := by
  rw [edges_eq]
  cases h : e.requirements with
  | nil => exact ⟨(.root, .key e.address), by simp [requirementEdges], .inr rfl⟩
  | cons t types => exact ⟨(t.requestNode, .key e.address), by simp [requirementEdges], .inr rfl⟩

end Entry

/-- Every stored entry is at a node. -/
theorem Storage.Indexed.key_mem_nodes {s : Storage} {a : Address} {e : Entry} (h : s.Indexed)
    (hget : s.get? a = some e) : Node.key a ∈ s.graph.nodes := by
  have haddr := h.addressed hget
  obtain ⟨edge, hmem, hends⟩ := e.address_mem_edges
  rw [haddr] at hends
  refine Graph.mem_nodes_addEdges.2 (.inr ⟨edge, ?_, hends⟩)
  exact List.mem_flatMap.2 ⟨e, h.mem_entries.2 (haddr ▸ hget), hmem⟩

namespace Storage.Sound

variable {s : Storage} {a b : Address}

/-- The edges between slots: from a requirement to the provider in a slot, and from a constructor
to an output. -/
theorem edge_graph (h : s.Sound) : s.graph.Edge (.key a) (.key b) ↔
    (∃ e, s.get? b = some e ∧ ∃ t ∈ e.requirements, t.request.address = a) ∨
      ∃ e, s.get? a = some e ∧ ∃ t ∈ e.outputs, t.descriptor.address = b := by
  rw [Storage.graph, Graph.edge_ofEntries]
  constructor
  · rintro ⟨e, hmem, hedge⟩
    have hget := h.mem_entries.1 hmem
    rcases Entry.key_mem_edges.1 hedge with ⟨rfl, ht⟩ | ⟨rfl, ht⟩
    · exact .inl ⟨e, hget, ht⟩
    · exact .inr ⟨e, hget, ht⟩
  · rintro (⟨e, hget, ht⟩ | ⟨e, hget, ht⟩)
    · have haddr := (h.fits hget).address_eq
      exact ⟨e, h.mem_entries.2 (haddr ▸ hget), Entry.key_mem_edges.2 (.inl ⟨haddr.symm, ht⟩)⟩
    · have haddr := (h.fits hget).address_eq
      exact ⟨e, h.mem_entries.2 (haddr ▸ hget), Entry.key_mem_edges.2 (.inr ⟨haddr.symm, ht⟩)⟩

/-- The root comes before the slots of what requests nothing. -/
theorem edge_root (h : s.Sound) : s.graph.Edge .root (.key a) ↔
    ∃ e, s.get? a = some e ∧ e.requirements = [] := by
  rw [Storage.graph, Graph.edge_ofEntries]
  constructor
  · rintro ⟨e, hmem, hedge⟩
    obtain ⟨rfl, hnone⟩ := Entry.root_mem_edges.1 hedge
    exact ⟨e, h.mem_entries.1 hmem, hnone⟩
  · rintro ⟨e, hget, hnone⟩
    have haddr := (h.fits hget).address_eq
    exact ⟨e, h.mem_entries.2 (haddr ▸ hget), Entry.root_mem_edges.2 ⟨haddr.symm, hnone⟩⟩

theorem key_mem_nodes {e : Entry} (h : s.Sound) (hget : s.get? a = some e) :
    Node.key a ∈ s.graph.nodes :=
  h.indexed.key_mem_nodes hget

end Storage.Sound

theorem Storage.not_edge_root {s : Storage} {a : Node} : ¬ s.graph.Edge a .root := by
  rw [Storage.graph, Graph.edge_ofEntries]
  rintro ⟨e, _, hedge⟩
  exact Entry.not_mem_edges_root hedge

theorem Storage.graph_proper (s : Storage) : s.graph.Proper := .ofEntries _

end Wiring
