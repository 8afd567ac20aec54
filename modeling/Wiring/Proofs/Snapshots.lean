import Mathlib.Data.List.Find
import Mathlib.Data.List.Forall2
import Wiring.Proofs.Arrangement
import Wiring.Proofs.Distinctness

/-!
# Snapshots of containers

A snapshot can be taken of a container at any moment (`Program.moments_snapshot`). It lists the nodes
of the graph in their order under ids of their own and shows at each of them what is stored there, and
its order, its word on cycles and its counts are those of the graph and of the entries
(`Snapshot.Pictures`).

The edges refer to the nodes by ids that are found through labels, and a node that stands for nothing
stored is told from the root by its label. An address whose text is the label of the root is therefore
taken for the root. Unless it is a node of the graph, the edges are those of the graph, and exactly the
addresses without an entry count as missing (`Snapshot.Joins`).
-/

namespace Wiring

namespace Graph

variable {g : Graph} {a b : Node}

/-- The edges of a graph are listed. -/
theorem Proper.mem_edges (hg : g.Proper) : (a, b) ∈ g.edges ↔ g.Edge a b := by
  have hrow : ∀ targets, (a, targets) ∈ g.successors.rows ↔ g.successors.get? a = some targets :=
    fun targets => (Table.get?_eq_some_iff hg.nodup_nodes).symm
  simp only [edges, List.mem_flatMap, List.mem_map, Prod.mk.injEq, Edge, next]
  constructor
  · rintro ⟨⟨c, targets⟩, hmem, d, hd, rfl, rfl⟩
    rw [(hrow targets).1 hmem]
    exact hd
  · intro hedge
    cases hget : g.successors.get? a with
    | none => simp [hget] at hedge
    | some targets =>
      exact ⟨(a, targets), (hrow targets).2 hget, b, by simpa [hget] using hedge, rfl, rfl⟩

/-- Every node of the graph of a storage is an end of an edge. -/
theorem exists_edge_of_mem {s : Storage} (ha : a ∈ s.graph.nodes) :
    ∃ edge ∈ s.graph.edges, a = edge.1 ∨ a = edge.2 := by
  rcases mem_nodes_addEdges.1 ha with hnone | ⟨edge, hmem, hends⟩
  · cases hnone
  · refine ⟨edge, s.graph_proper.mem_edges.2 ?_, hends⟩
    rw [Storage.graph, ofEntries, edge_empty_addEdges]
    exact hmem

end Graph

namespace Storage

variable {s : Storage}

/-- The entry at a node. -/
def entryAt? (s : Storage) (node : Node) : Option Entry := node.address?.bind s.get?

/-- The first descriptor with an address is that of the entry there. -/
theorem Indexed.find?_descriptors (h : s.Indexed) (a : Address) :
    (s.descriptors.find? fun d => d.address = a) = (s.get? a).map Entry.descriptor := by
  rw [descriptors, entries, Table.values, get?, Table.get?, List.find?_map, List.find?_map]
  congr 2
  refine List.find?_congr fun row hrow => ?_
  simp [Entry.descriptor, h.address_row hrow]

/-- The entries at the nodes of the graph, in their order, are those of the storage. -/
theorem Indexed.filterMap_entryAt? (h : s.Indexed) :
    s.graph.nodes.filterMap s.entryAt? = s.entries := by
  have hat : ∀ {node e}, s.entryAt? node = some e ↔ node = .key e.address ∧ s.get? e.address = some e := by
    intro node e
    rw [entryAt?, Option.bind_eq_some_iff]
    constructor
    · rintro ⟨a, hnode, hget⟩
      obtain rfl := h.addressed hget
      cases node <;> cases hnode
      exact ⟨rfl, hget⟩
    · rintro ⟨rfl, hget⟩
      exact ⟨_, rfl, hget⟩
  refine eq_of_ascending Entry.address ?_ ?_ fun e => ?_
  · refine s.graph_proper.ascending_nodes.filterMap _ ?_
    intro node node' hlt e he e' he'
    rw [(hat.1 he).1, (hat.1 he').1] at hlt
    exact Node.key_lt_key.1 hlt
  · rw [← List.pairwise_map (f := Entry.address), h.map_address_entries]
    exact h.ascending
  · rw [h.mem_entries, List.mem_filterMap]
    constructor
    · rintro ⟨node, -, hentry⟩
      exact (hat.1 hentry).2
    · intro hget
      exact ⟨_, h.key_mem_nodes hget, hat.2 ⟨rfl, hget⟩⟩

end Storage

namespace Export

/-! ## Ids -/

/-- A node that is no root is not given the id of the root. -/
theorem nodeId_key_ne (i : Nat) (a : Address) : nodeId i (.key a) ≠ rootId := by
  intro h
  simpa [nodeId, rootId] using congrArg String.toList h

/-- Different nodes in different positions have different ids. -/
theorem nodeId_ne {i j : Nat} {a b : Node} (hij : i ≠ j) (hab : a ≠ b) : nodeId i a ≠ nodeId j b := by
  cases a with
  | root =>
    cases b with
    | root => exact absurd rfl hab
    | key b => exact (nodeId_key_ne j b).symm
  | key a =>
    cases b with
    | root => exact nodeId_key_ne i a
    | key b =>
      intro h
      refine hij (toDigits_injective ?_)
      simpa [nodeId, Nat.toString_eq_repr] using congrArg String.toList h

namespace Snapshot

/-- What a node of a snapshot says of an entry: everything but the label is empty if there is none. -/
structure Shows (n : SnapshotNode) (node : Node) (stored? : Option Entry) : Prop where
  label : n.label = node.label
  kind : n.kind = stored?.map Entry.kind
  relation : n.relation = stored?.map Entry.relation
  service : n.service = stored?.map Entry.service
  typeName : n.typeName = stored?.map fun e => e.descriptor.typeName

/-- The node of a snapshot in the position of a node of the graph. -/
def At (snapshot : Snapshot) (g : Graph) (node : Node) (n : SnapshotNode) : Prop :=
  ∃ i : Nat, g.nodes[i]? = some node ∧ snapshot.nodes[i]? = some n

/-- The descriptor that a node of a snapshot carries, if it is that of an entry. -/
def descriptor? (n : SnapshotNode) : Option EntryDescriptor := do
  return {
    address := ⟨n.label⟩
    relation := ← n.relation
    kind := ← n.kind
    service := ← n.service
    typeName := ← n.typeName }

/-- A snapshot has one node for each node of the graph, in their order and with different ids, and at
each it shows what is stored there. So every entry is shown at exactly one node. The order is that of
the graph, there is none exactly if the graph has a cycle, and the counts are right. -/
structure Pictures (snapshot : Snapshot) (c : Container) : Prop where
  length_nodes : snapshot.nodes.length = c.graph.nodes.length
  nodup_ids : (snapshot.nodes.map SnapshotNode.id).Nodup
  shows : ∀ ⦃node n⦄, snapshot.At c.graph node n → Shows n node (c.storage.entryAt? node)
  entries : snapshot.nodes.filterMap descriptor? = c.descriptors
  hasCycle : snapshot.metadata.hasCycle = true ↔ c.graph.Cyclic
  order_cyclic : c.graph.Cyclic → snapshot.order = []
  order_acyclic : ¬ c.graph.Cyclic →
    ∃ order, c.graph.order = .ok order ∧ snapshot.order = order.map Address.text
  edgeCount : snapshot.metadata.edgeCount = snapshot.edges.length
  entryCount : snapshot.metadata.entryCount = c.storage.entries.length
  serviceCount : snapshot.metadata.serviceCount =
    c.storage.entries.countP fun e => e.service ≠ .notAService
  constructorCount : snapshot.metadata.constructorCount =
    c.storage.entries.countP fun e => e.kind = .callable

/-- The edges of a snapshot are those of the graph, between the ids of their ends, and the nodes that
count as missing are the addresses where nothing is stored. -/
structure Joins (snapshot : Snapshot) (c : Container) : Prop where
  edges : List.Forall₂ (fun edge e => ∃ n n', snapshot.At c.graph edge.1 n ∧
    snapshot.At c.graph edge.2 n' ∧ e = ⟨n.id, n'.id⟩) c.graph.edges snapshot.edges
  isMissing : ∀ ⦃node n⦄, snapshot.At c.graph node n →
    (n.isMissing = true ↔ ∃ a, node = .key a ∧ c.storage.get? a = none)

/-! ## Taking a snapshot -/

variable {snapshot : Snapshot} {s : Storage} {node : Node} {n : SnapshotNode}

/-- How a snapshot is made of a storage. -/
structure Taken (snapshot : Snapshot) (s : Storage) : Prop where
  nodes : snapshot.nodes = describeNodes s.descriptors s.graph.nodes
  edges : snapshot.edges = describeEdges snapshot.nodes s.graph.edges
  hasCycle : snapshot.metadata.hasCycle = true ↔ s.graph.Cyclic
  order_cyclic : s.graph.Cyclic → snapshot.order = []
  order_acyclic : ¬ s.graph.Cyclic →
    ∃ order, s.graph.order = .ok order ∧ snapshot.order = order.map Address.text
  edgeCount : snapshot.metadata.edgeCount = s.graph.edges.length
  entryCount : snapshot.metadata.entryCount = s.descriptors.length
  serviceCount : snapshot.metadata.serviceCount =
    (s.descriptors.filter EntryDescriptor.isService).length
  constructorCount : snapshot.metadata.constructorCount =
    (s.descriptors.filter EntryDescriptor.isConstructor).length

/-- A snapshot can be taken of every storage: that the graph has a cycle is the only error of an
order, and this one is told in the snapshot. -/
theorem exists_taken (container : String) (s : Storage) :
    ∃ snapshot, ofStorage container s = .ok snapshot ∧ Taken snapshot s := by
  have hg := s.graph_proper
  cases horder : s.graph.order with
  | ok order =>
    have hacyclic : ¬ s.graph.Cyclic := Graph.not_cyclic_of_order hg horder
    refine ⟨_, by simp only [ofStorage, horder]; rfl, rfl, rfl, ?_, ?_, ?_, rfl, rfl, rfl, rfl⟩
    · exact iff_of_false Bool.false_ne_true hacyclic
    · intro hcyclic
      exact absurd hcyclic hacyclic
    · intro _
      exact ⟨order, horder, rfl⟩
  | error e =>
    obtain ⟨path, rfl⟩ := Graph.order_eq_error hg horder
    have hcyclic : s.graph.Cyclic := by
      by_contra hacyclic
      obtain ⟨order, hok⟩ := Graph.exists_order hg hacyclic
      cases horder.symm.trans hok
    refine ⟨_, by simp only [ofStorage, horder]; rfl, rfl, rfl, ?_, ?_, ?_, rfl, rfl, rfl, rfl⟩
    · exact iff_of_true rfl hcyclic
    · intro _
      rfl
    · intro hacyclic
      exact absurd hcyclic hacyclic

/-- The nodes of a snapshot are described one by one. -/
theorem getElem?_describeNodes (descriptors : List EntryDescriptor) (nodes : List Node) (i : Nat) :
    (describeNodes descriptors nodes)[i]? =
      nodes[i]?.map fun node => describeNode descriptors node (nodeId i node) := by
  rw [describeNodes, List.getElem?_mapIdx]

/-- The description of a node shows what is stored there. -/
theorem shows_describeNode (h : s.Indexed) (node : Node) (id : String) :
    Shows (describeNode s.descriptors node id) node (s.entryAt? node) := by
  have hfound : (node.address?.bind fun a => s.descriptors.find? fun d => d.address = a) =
      (s.entryAt? node).map Entry.descriptor := by
    cases node with
    | root => rfl
    | key a => exact h.find?_descriptors a
  refine ⟨rfl, ?_, ?_, ?_, ?_⟩ <;>
    (simp only [describeNode, hfound, Option.map_map]; rfl)

/-- A node that shows an entry carries its descriptor. -/
theorem Shows.descriptor?_eq (hn : Shows n node (s.entryAt? node)) (h : s.Indexed) :
    descriptor? n = (s.entryAt? node).map Entry.descriptor := by
  obtain ⟨hlabel, hkind, hrelation, hservice, htypeName⟩ := hn
  cases hentry : s.entryAt? node with
  | none =>
    rw [hentry] at hrelation
    simp [descriptor?, hrelation]
  | some e =>
    obtain ⟨a, hnode, hget⟩ := Option.bind_eq_some_iff.1 hentry
    obtain rfl := h.addressed hget
    have hlabel : n.label = e.address.text := by cases node <;> cases hnode; exact hlabel
    simp only [descriptor?, hlabel, hkind, hrelation, hservice, htypeName, hentry]
    rfl

namespace Taken

theorem at_iff (h : Taken snapshot s) : snapshot.At s.graph node n ↔
    ∃ i : Nat, s.graph.nodes[i]? = some node ∧ n = describeNode s.descriptors node (nodeId i node) := by
  simp only [At, h.nodes, getElem?_describeNodes]
  constructor
  · rintro ⟨i, hnode, hn⟩
    rw [hnode] at hn
    exact ⟨i, hnode, (Option.some.inj hn).symm⟩
  · rintro ⟨i, hnode, rfl⟩
    exact ⟨i, hnode, by rw [hnode]; rfl⟩

/-- Each node of the graph has a node of the snapshot in its position. -/
theorem exists_at (h : Taken snapshot s) (hnode : node ∈ s.graph.nodes) :
    ∃ n ∈ snapshot.nodes, snapshot.At s.graph node n := by
  obtain ⟨i, hi⟩ := List.mem_iff_getElem?.1 hnode
  have hn : snapshot.nodes[i]? = some (describeNode s.descriptors node (nodeId i node)) := by
    rw [h.nodes, getElem?_describeNodes, hi]
    rfl
  exact ⟨_, List.mem_of_getElem? hn, i, hi, hn⟩

theorem shows (h : Taken snapshot s) (hs : s.Indexed) (hat : snapshot.At s.graph node n) :
    Shows n node (s.entryAt? node) := by
  obtain ⟨i, -, rfl⟩ := h.at_iff.1 hat
  exact shows_describeNode hs node _

theorem nodup_ids (h : Taken snapshot s) : (snapshot.nodes.map SnapshotNode.id).Nodup := by
  rw [h.nodes, List.Nodup, List.pairwise_map, List.pairwise_iff_getElem]
  intro i j hi hj hlt
  have hne := List.pairwise_iff_getElem.1 s.graph_proper.nodup_nodes i j
  simp only [describeNodes, List.length_mapIdx] at hi hj
  simp only [describeNodes, List.getElem_mapIdx, describeNode]
  exact nodeId_ne (Nat.ne_of_lt hlt) (hne hi hj hlt)

/-- The entries that the nodes carry are those of the storage, each of them once. -/
theorem filterMap_descriptor? (h : Taken snapshot s) (hs : s.Indexed) :
    snapshot.nodes.filterMap descriptor? = s.descriptors := by
  have hcarries : ∀ node id, descriptor? (describeNode s.descriptors node id) =
      (s.entryAt? node).map Entry.descriptor := by
    intro node id
    exact (shows_describeNode hs node id).descriptor?_eq hs
  calc
    snapshot.nodes.filterMap descriptor?
      = s.graph.nodes.zipIdx.filterMap (fun row => (s.entryAt? row.1).map Entry.descriptor) := by
        rw [h.nodes, describeNodes, List.mapIdx_eq_zipIdx_map, List.filterMap_map]
        exact List.filterMap_congr fun row _ => hcarries _ _
    _ = (s.graph.nodes.zipIdx.map Prod.fst).filterMap fun node =>
          (s.entryAt? node).map Entry.descriptor := by
        rw [List.filterMap_map]
        rfl
    _ = s.descriptors := by
        rw [List.zipIdx_map_fst, ← List.map_filterMap, hs.filterMap_entryAt?, Storage.descriptors]

/-! ## What is found through labels -/

/-- Every node of a snapshot is in the position of a node of the graph. -/
theorem exists_node (h : Taken snapshot s) (hn : n ∈ snapshot.nodes) :
    ∃ node ∈ s.graph.nodes, snapshot.At s.graph node n := by
  obtain ⟨i, hi⟩ := List.mem_iff_getElem?.1 hn
  have hdescribed := hi
  rw [h.nodes, getElem?_describeNodes, Option.map_eq_some_iff] at hdescribed
  obtain ⟨node, hnode, -⟩ := hdescribed
  exact ⟨node, List.mem_of_getElem? hnode, i, hnode, hi⟩

/-- For the label of a node an id is found, of that node or of another one with the label. -/
theorem exists_idOf? (h : Taken snapshot s) (hs : s.Indexed) (hnode : node ∈ s.graph.nodes) :
    ∃ node' ∈ s.graph.nodes, ∃ n, snapshot.At s.graph node' n ∧ node'.label = node.label ∧
      idOf? snapshot.nodes node.label = some n.id := by
  obtain ⟨n, hn, hat⟩ := h.exists_at hnode
  cases hfind : snapshot.nodes.reverse.find? fun n => n.label = node.label with
  | none =>
    have hnone := List.find?_eq_none.1 hfind n (List.mem_reverse.2 hn)
    simp [(h.shows hs hat).label] at hnone
  | some n' =>
    have hlabel : n'.label = node.label := by simpa using List.find?_some hfind
    obtain ⟨node', hnode', hat'⟩ :=
      h.exists_node (List.mem_reverse.1 (List.mem_of_find?_eq_some hfind))
    exact ⟨node', hnode', n', hat', (h.shows hs hat').label.symm.trans hlabel, by rw [idOf?, hfind]; rfl⟩

end Taken

/-- What every element of a list is turned into is related to it if it is so one by one. -/
theorem forall₂_filterMap_iff {α β : Type} {f : α → Option β} {R : α → β → Prop} {xs : List α}
    (hsome : ∀ x ∈ xs, ∃ y, f x = some y) :
    List.Forall₂ R xs (xs.filterMap f) ↔ ∀ x ∈ xs, ∀ y, f x = some y → R x y := by
  induction xs with
  | nil => simp
  | cons x xs ih =>
    obtain ⟨y, hy⟩ := hsome x List.mem_cons_self
    rw [List.filterMap_cons_some hy, List.forall₂_cons, List.forall_mem_cons,
      ih fun x hx => hsome x (List.mem_cons_of_mem _ hx)]
    refine and_congr_left fun _ => ?_
    simp [hy]

namespace Taken

/-- Every edge of the graph has an edge of the snapshot, between what is found for the labels of its
ends. -/
theorem forall₂_edges (h : Taken snapshot s) (hs : s.Indexed) {R : Node × Node → SnapshotEdge → Prop} :
    List.Forall₂ R s.graph.edges snapshot.edges ↔ ∀ edge ∈ s.graph.edges, ∀ source target,
      idOf? snapshot.nodes edge.1.label = some source →
      idOf? snapshot.nodes edge.2.label = some target → R edge ⟨source, target⟩ := by
  rw [h.edges, describeEdges, forall₂_filterMap_iff]
  · refine forall₂_congr fun edge _ => ?_
    simp only [Option.bind_eq_bind, Option.bind_eq_some_iff, Option.some.injEq]
    constructor
    · intro hR source target hsource htarget
      exact hR _ ⟨source, hsource, target, htarget, rfl⟩
    · rintro hR y ⟨source, hsource, target, htarget, rfl⟩
      exact hR source target hsource htarget
  · intro edge hedge
    have hedge := s.graph_proper.mem_edges.1 hedge
    obtain ⟨-, -, n, -, -, hsource⟩ := h.exists_idOf? hs hedge.source
    obtain ⟨-, -, n', -, -, htarget⟩ := h.exists_idOf? hs (s.graph_proper.target_mem hedge)
    exact ⟨⟨n.id, n'.id⟩, by simp [hsource, htarget]⟩

/-- An address that has not the label of the root shares its label with no other node. -/
theorem eq_of_label (hroot : Node.key ⟨Node.root.label⟩ ∉ s.graph.nodes) {a b : Node}
    (ha : a ∈ s.graph.nodes) (hb : b ∈ s.graph.nodes) (h : a.label = b.label) : a = b := by
  cases a with
  | root =>
    cases b with
    | root => rfl
    | key b =>
      obtain rfl : Address.mk Node.root.label = b := congrArg Address.mk h
      exact absurd hb hroot
  | key a =>
    cases b with
    | root =>
      obtain rfl : a = Address.mk Node.root.label := congrArg Address.mk h
      exact absurd ha hroot
    | key b => exact congrArg (fun text => Node.key ⟨text⟩) h

/-- The root and an address do not have the same id. -/
theorem id_ne (h : Taken snapshot s) {a : Address} {n n' : SnapshotNode}
    (hat : snapshot.At s.graph .root n) (hat' : snapshot.At s.graph (.key a) n') : n.id ≠ n'.id := by
  obtain ⟨i, -, rfl⟩ := h.at_iff.1 hat
  obtain ⟨j, -, rfl⟩ := h.at_iff.1 hat'
  exact (nodeId_key_ne j a).symm

/-- The snapshot is joined as the graph is unless an address has the label of the root. -/
theorem joins_of_notMem {c : Container} (h : Taken snapshot c.storage) (hs : c.storage.Indexed)
    (hroot : Node.key ⟨Node.root.label⟩ ∉ c.graph.nodes) : snapshot.Joins c := by
  have hid : ∀ {node id}, node ∈ c.graph.nodes → idOf? snapshot.nodes node.label = some id →
      ∃ n, snapshot.At c.graph node n ∧ n.id = id := by
    intro node id hnode hid
    obtain ⟨node', hnode', n, hat, hlabel, hid'⟩ := h.exists_idOf? hs hnode
    obtain rfl := eq_of_label hroot hnode' hnode hlabel
    exact ⟨n, hat, Option.some.inj (hid'.symm.trans hid)⟩
  refine ⟨(h.forall₂_edges hs).2 ?_, ?_⟩
  · intro edge hedge source target hsource htarget
    have hedge := c.storage.graph_proper.mem_edges.1 hedge
    obtain ⟨n, hat, rfl⟩ := hid hedge.source hsource
    obtain ⟨n', hat', rfl⟩ := hid (c.storage.graph_proper.target_mem hedge) htarget
    exact ⟨n, n', hat, hat', rfl⟩
  · intro node n hat
    have hshows := h.shows hs hat
    cases node with
    | root => simp [SnapshotNode.isMissing, hshows.label]
    | key a =>
      obtain ⟨i, hi, -⟩ := hat
      have hne : a.text ≠ Node.root.label := by
        rintro htext
        exact hroot (htext ▸ List.mem_of_getElem? hi)
      have hkind : n.kind = (c.storage.get? a).map Entry.kind := hshows.kind
      have hlabel : n.label = a.text := hshows.label
      simp [SnapshotNode.isMissing, hkind, hlabel, hne]

/-- If it is joined as the graph is, the root and an address never have the same label: for both of
them the same id would be found. -/
theorem notMem_of_joins {c : Container} (h : Taken snapshot c.storage) (hs : c.storage.Indexed)
    (hroot : Node.root ∈ c.graph.nodes) (hjoins : snapshot.Joins c) :
    Node.key ⟨Node.root.label⟩ ∉ c.graph.nodes := by
  have hid : ∀ {node}, node ∈ c.graph.nodes →
      ∃ n, snapshot.At c.graph node n ∧ idOf? snapshot.nodes node.label = some n.id := by
    intro node hnode
    obtain ⟨edge, hedge, hends⟩ := Graph.exists_edge_of_mem hnode
    have hends' := c.storage.graph_proper.mem_edges.1 hedge
    obtain ⟨-, -, m, -, -, hsource⟩ := h.exists_idOf? hs hends'.source
    obtain ⟨-, -, m', -, -, htarget⟩ := h.exists_idOf? hs (c.storage.graph_proper.target_mem hends')
    obtain ⟨n, n', hat, hat', heq⟩ :=
      (h.forall₂_edges hs).1 hjoins.edges edge hedge _ _ hsource htarget
    obtain ⟨hm, hm'⟩ : m.id = n.id ∧ m'.id = n'.id := by simpa using heq
    rcases hends with rfl | rfl
    · exact ⟨n, hat, hm ▸ hsource⟩
    · exact ⟨n', hat', hm' ▸ htarget⟩
  intro hkey
  obtain ⟨n, hat, hn⟩ := hid hroot
  obtain ⟨n', hat', hn'⟩ := hid hkey
  exact h.id_ne hat hat' (Option.some.inj (hn.symm.trans hn'))

theorem pictures {c : Container} (h : Taken snapshot c.storage) (hs : c.storage.Indexed) :
    snapshot.Pictures c where
  length_nodes := by simp [h.nodes, describeNodes, Container.graph]
  nodup_ids := h.nodup_ids
  shows _ _ hat := h.shows hs hat
  entries := h.filterMap_descriptor? hs
  hasCycle := h.hasCycle
  order_cyclic := h.order_cyclic
  order_acyclic := h.order_acyclic
  edgeCount := by
    have hlength := ((h.forall₂_edges hs (R := fun _ _ => True)).2
      fun _ _ _ _ _ _ => trivial).length_eq
    rw [h.edgeCount, hlength]
  entryCount := by rw [h.entryCount, Storage.descriptors, List.length_map]
  serviceCount := by
    rw [h.serviceCount, Storage.descriptors, ← List.countP_eq_length_filter, List.countP_map]
    rfl
  constructorCount := by
    rw [h.constructorCount, Storage.descriptors, ← List.countP_eq_length_filter, List.countP_map]
    rfl

end Taken

end Snapshot

end Export

/-- A value in a storage hangs off the root. -/
theorem Storage.Indexed.root_mem_nodes {s : Storage} {a : Address} {e : Entry} {c : Component}
    (h : s.Indexed) (hget : s.get? a = some e) (hvalue : e.payload = .value c) :
    Node.root ∈ s.graph.nodes := by
  have hmem : e ∈ s.entries := h.mem_entries.2 (h.addressed hget ▸ hget)
  have hedge : (Node.root, Node.key e.address) ∈ e.edges := by simp [Entry.edges, hvalue]
  exact (Graph.edge_ofEntries.2 ⟨e, hmem, hedge⟩).source

/-- The context of a new container stands in its slot. -/
theorem Container.get?_new (config : ContainerConfig) (context : Context) (token : Token) :
    (new config context token).storage.get? ComponentType.context.descriptor.address =
      some (.resolved ComponentType.context.descriptor.address (.ofContext context)) := by
  have hdistinct : ((seeds context token).flatMap Item.slots).Nodup := by
    show [ComponentType.context.descriptor.address, ComponentType.token.descriptor.address].Nodup
    decide +kernel
  obtain ⟨-, hregisters⟩ := Storage.registers_addAll hdistinct
  rw [storage_new config context token] at hregisters
  exact (hregisters _ _).2 ⟨.value (.ofContext context), List.mem_cons_self, rfl, rfl⟩

/-- At every moment of every run a snapshot can be taken of the container, and it pictures the graph
and the entries. It is joined as the graph is exactly if no address in the graph has the text that
stands for the root. -/
theorem Program.moments_snapshot {σ : Type} (program : Program σ) (depth : Nat)
    (config : ContainerConfig) (context : Context) (token : Token) (nextIdentity : Identity)
    (host : σ) (ops : List Operation) :
    ∀ m ∈ program.moments depth (.fresh config context token nextIdentity host) ops,
      ∃ snapshot, m.container.snapshot = .ok snapshot ∧ snapshot.Pictures m.container ∧
        (snapshot.Joins m.container ↔
          Node.key ⟨Node.root.label⟩ ∉ m.container.graph.nodes) := by
  intro m hmem
  let c := Container.new config context token
  have hnew : c.storage.Sound := (Container.new_inOrder config context token).status.sound
  obtain ⟨s, htime⟩ := program.moments_timeline depth
    (.fresh config context token nextIdentity host) ops
  have haccrues : c.storage.Accrues m.container.storage := (htime.mem hmem).1
  have hs : m.container.storage.Indexed := haccrues.indexed hnew.indexed
  obtain ⟨state, shadowed, -, hget⟩ :=
    haccrues.exists_entry (Container.get?_new config context token) rfl
  have hroot : Node.root ∈ m.container.graph.nodes := hs.root_mem_nodes hget rfl
  obtain ⟨snapshot, htaken, h⟩ :=
    Export.Snapshot.exists_taken m.container.config.name m.container.storage
  exact ⟨snapshot, htaken, h.pictures hs, h.notMem_of_joins hs hroot, h.joins_of_notMem hs⟩

/-- The last snapshot of a run whose stop hook registers another pool. -/
theorem Program.moments_snapshot_refilled :
    ∃ m, refilled.getLast? = some m ∧ m ∈ refilled ∧
      Node.key ⟨Node.root.label⟩ ∉ m.container.graph.nodes ∧
      ∃ snapshot, m.container.snapshot = .ok snapshot ∧ snapshot.Pictures m.container ∧
        snapshot.Joins m.container := by
  have hroot : ∀ m ∈ refilled, Node.key ⟨Node.root.label⟩ ∉ m.container.graph.nodes := by
    decide +kernel
  have hlast : refilled.getLast?.isSome = true := by decide +kernel
  obtain ⟨m, hm⟩ := Option.isSome_iff_exists.1 hlast
  have hmem : m ∈ refilled := List.mem_of_getLast? hm
  obtain ⟨snapshot, htaken, hpictures, hjoins⟩ :=
    refilling.moments_snapshot 1 default (.root 0) ⟨1⟩ 1 () _ m hmem
  exact ⟨m, hm, hmem, hroot m hmem, snapshot, htaken, hpictures, hjoins.2 (hroot m hmem)⟩

/-- A run in which a constructor is registered whose output is addressed by the text that stands for
the root. -/
def Program.probed : List Moment :=
  refilling.moments 0 (.fresh default (.root 0) ⟨1⟩ 1 ())
    [.register [.constructor ⟨1, [], [⟨"app::Probe", .callable "app::Probe" "ROOT"⟩], 0⟩]]

/-- In the snapshot taken after that nothing hangs off the root, and the output, which is not there
yet, does not count as missing. -/
theorem Program.moments_not_joined_probed :
    ∃ m ∈ probed, ∃ snapshot, m.container.snapshot = .ok snapshot ∧
      (∃ target, (Node.root, target) ∈ m.container.graph.edges) ∧
      (∀ e ∈ snapshot.edges, e.source ≠ Export.rootId) ∧
      m.container.storage.get? ⟨"ROOT"⟩ = none ∧
      (∃ n, snapshot.At m.container.graph (.key ⟨"ROOT"⟩) n ∧ n.isMissing = false) ∧
      ¬ snapshot.Joins m.container := by
  have hlast : probed.getLast?.isSome = true := by decide +kernel
  have htaken : (probed.getLast?.bind fun m => m.container.snapshot.toOption).map (fun snapshot =>
      (snapshot.edges.all fun e => e.source ≠ Export.rootId,
        snapshot.nodes[1]?.map Export.SnapshotNode.isMissing)) = some (true, some false) := by
    decide +kernel
  have hedge : (probed.getLast?.bind fun m => m.container.graph.edges.find? fun edge =>
      edge.1 = .root) = some (.root, .key ⟨"bootkit::cancellation.Context"⟩) := by
    decide +kernel
  have hnode : (probed.getLast?.bind fun m => m.container.graph.nodes[1]?) =
      some (.key ⟨"ROOT"⟩) := by
    decide +kernel
  have hnone : (probed.getLast?.map fun m => m.container.storage.get? ⟨"ROOT"⟩) = some none := by
    decide +kernel
  obtain ⟨m, hm⟩ := Option.isSome_iff_exists.1 hlast
  rw [hm] at htaken hedge hnode hnone
  obtain ⟨snapshot, hsnapshot, hshown⟩ := Option.map_eq_some_iff.1 htaken
  obtain ⟨hedges, hmissing⟩ := Prod.mk.inj hshown
  obtain ⟨n, hn, hpresent⟩ := Option.map_eq_some_iff.1 hmissing
  have hat : snapshot.At m.container.graph (.key ⟨"ROOT"⟩) n := ⟨1, hnode, hn⟩
  have hempty : m.container.storage.get? ⟨"ROOT"⟩ = none := Option.some.inj hnone
  refine ⟨m, List.mem_of_getLast? hm, snapshot, eq_ok_of_toOption hsnapshot,
    ⟨_, List.mem_of_find?_eq_some hedge⟩, by simpa using hedges, hempty, ⟨n, hat, hpresent⟩, ?_⟩
  intro hjoins
  have hcounts : n.isMissing = true := (hjoins.isMissing hat).2 ⟨_, rfl, hempty⟩
  exact Bool.noConfusion (hpresent.symm.trans hcounts)

end Wiring
