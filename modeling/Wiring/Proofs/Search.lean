import Mathlib.Data.List.Chain
import Wiring.Graph.Order
import Wiring.Proofs.Edges

/-!
# The search for a cycle

`Graph.Searches` says what the search does with nodes by its own rules, without a limit to its
depth. The search of a graph keeps to these rules until it ends (`Graph.Proper.searches`), so it never
stops short. A path that it closes is a cycle (`Graph.Searches.isCycle`), and that is what the error
of an order names (`Graph.reported_cycle`). Since every node is finished after all its successors, a
graph in which the search closes no path has no cycle (`Graph.Proper.cycle?_eq_none_iff`).
-/

namespace Wiring

/-- A walk along a relation that ends where it began, and meets no node twice before. -/
structure IsCycle (r : Node → Node → Prop) (cycle : List Node) : Prop where
  long : 2 ≤ cycle.length
  closed : cycle.head? = cycle.getLast?
  walk : cycle.IsChain r
  simple : cycle.dropLast.Nodup

namespace IsCycle

variable {r : Node → Node → Prop} {cycle : List Node}

/-- A walk that goes back along a path to a node on it closes a cycle. The path has its latest node
first, and the node comes last in the part that is kept. -/
theorem of_reverse {node : Node} {path : List Node} (hnodup : (path ++ [node]).Nodup)
    (hwalk : (node :: (path ++ [node])).IsChain fun a b => r b a) :
    IsCycle r (node :: (path ++ [node])).reverse where
  long := by simp
  closed := by simp [List.getLast?_cons]
  walk := List.isChain_reverse.2 hwalk
  simple := by
    rw [List.dropLast_reverse, List.tail_cons]
    exact List.pairwise_reverse.2 (hnodup.imp Ne.symm)

/-- The first node of a cycle leads to every node of it, itself among them. -/
theorem reaches (h : IsCycle r cycle) :
    ∃ a ∈ cycle, ∀ b ∈ cycle, Relation.TransGen r a b := by
  have hpairs := List.isChain_iff_pairwise.1 (h.walk.imp fun _ _ => Relation.TransGen.single)
  have hlong := h.long
  have hclosed := h.closed
  cases cycle with
  | nil => simp at hlong
  | cons a rest =>
    have hne : rest ≠ [] := by
      rintro rfl
      simp at hlong
    rw [List.head?_cons, List.getLast?_cons_of_ne_nil hne] at hclosed
    have hrest := (List.pairwise_cons.1 hpairs).1
    refine ⟨a, List.mem_cons_self, fun b hmem => ?_⟩
    rcases List.mem_cons.1 hmem with rfl | hmem
    · exact hrest b (List.mem_of_getLast? hclosed.symm)
    · exact hrest b hmem

/-- What has no predecessor lies on no cycle. -/
theorem not_mem {node : Node} (h : IsCycle r cycle) (hnone : ∀ a, ¬ r a node) : node ∉ cycle := by
  intro hmem
  obtain ⟨a, _, hreaches⟩ := h.reaches
  cases hreaches node hmem with
  | single hedge => exact hnone _ hedge
  | tail _ hedge => exact hnone _ hedge

end IsCycle

namespace Graph

/-! ## The rules of the search -/

/-- What the search does with nodes in turn, at the end of a path (latest node first) and with some
nodes finished: the path that it closes, or the nodes finished in the end. -/
inductive Searches (g : Graph) :
    List Node → List Node → List Node → Except (List Node) (List Node) → Prop
  | nil : Searches g path [] finished (.ok finished)
  | closes : node ∈ path → Searches g path (node :: rest) finished (.error (closedPath path node))
  | known : node ∉ path → node ∈ finished → Searches g path rest finished r →
      Searches g path (node :: rest) finished r
  | fails : node ∉ path → node ∉ finished →
      Searches g (node :: path) (g.next node) finished (.error cycle) →
      Searches g path (node :: rest) finished (.error cycle)
  | enters : node ∉ path → node ∉ finished →
      Searches g (node :: path) (g.next node) finished (.ok finished') →
      Searches g path rest (node :: finished') r →
      Searches g path (node :: rest) finished r

variable {g : Graph} {path nodes finished finished' cycle : List Node}

/-- A search with fuel for every node that is not on the path keeps to the rules until it ends. -/
theorem Proper.searches (hg : g.Proper) {fuel : Nat} (hpath : path.Nodup)
    (hsub : ∀ a ∈ path, a ∈ g.nodes) (hnodes : ∀ a ∈ nodes, a ∈ g.nodes)
    (hfuel : g.nodes.length < fuel + path.length) :
    g.Searches path nodes finished (nodes.foldlM (g.visit fuel path) finished) := by
  induction fuel generalizing path nodes finished with
  | zero =>
    -- Without fuel the path would be longer than the list of nodes.
    have hle := hpath.length_le_of_subset hsub
    omega
  | succ fuel ih =>
    induction nodes generalizing finished with
    | nil => exact .nil
    | cons node rest ihrest =>
      have hrest := fun finished => @ihrest finished fun a hmem =>
        hnodes a (List.mem_cons_of_mem _ hmem)
      rw [List.foldlM_cons, visit]
      split
      · next hmem => exact .closes hmem
      · next hnew =>
        split
        · next hknown => exact .known hnew hknown (hrest finished)
        · next hfresh =>
          have hsub' : ∀ a ∈ node :: path, a ∈ g.nodes :=
            List.forall_mem_cons.2 ⟨hnodes node List.mem_cons_self, hsub⟩
          have hinner := @ih (node :: path) (g.next node) finished
            (List.nodup_cons.2 ⟨hnew, hpath⟩) hsub' (fun a hmem => hg.target_mem hmem)
            (by rw [List.length_cons]; omega)
          split
          · next finished' hfold =>
            rw [hfold] at hinner
            exact .enters hnew hfresh hinner (hrest _)
          · next cycle hfold =>
            rw [hfold] at hinner
            exact .fails hnew hfresh hinner

/-- The search of a whole graph keeps to the rules, and what it closes is the cycle reported. -/
theorem Proper.exists_searches (hg : g.Proper) : ∃ r, g.Searches [] g.nodes [] r ∧
    g.cycle? = match r with
      | .ok _ => none
      | .error cycle => some cycle :=
  ⟨_, hg.searches .nil (by simp) (fun _ hmem => hmem) (by simp), rfl⟩

/-! ## What the search closes -/

theorem closedPath_eq (path : List Node) (node : Node) :
    closedPath path node = (node :: (path.takeWhile (· ≠ node) ++ [node])).reverse := by
  simp [closedPath]

/-- A path is cut at the first place of a node on it. -/
theorem exists_takeWhile_append {node : Node} (hmem : node ∈ path) :
    ∃ rest, path = path.takeWhile (· ≠ node) ++ [node] ++ rest := by
  induction path with
  | nil => cases hmem
  | cons a path ih =>
    by_cases heq : a = node
    · subst heq
      exact ⟨path, by simp⟩
    · obtain ⟨rest, hrest⟩ := ih ((List.mem_cons.1 hmem).resolve_left (Ne.symm heq))
      refine ⟨rest, ?_⟩
      rw [List.takeWhile_cons_of_pos (by simpa using heq), List.cons_append, List.cons_append,
        ← hrest]

/-- A path that the search closes is a cycle, if it searches at the end of a simple walk. -/
theorem Searches.isCycle (h : g.Searches path nodes finished (.error cycle)) (hpath : path.Nodup)
    (hwalk : ∀ node ∈ nodes, (node :: path).IsChain fun a b => g.Edge b a) :
    IsCycle g.Edge cycle := by
  generalize hr : Except.error cycle = r at h
  induction h with
  | nil => cases hr
  | @closes path node rest finished hmem =>
    obtain rfl := Except.error.inj hr
    obtain ⟨rest', hcut⟩ := exists_takeWhile_append hmem
    have hchain := hwalk node List.mem_cons_self
    rw [hcut] at hpath hchain
    rw [closedPath_eq]
    exact .of_reverse (List.nodup_append.1 hpath).1 (List.IsChain.left_of_append hchain)
  | known _ _ _ ih => exact ih hpath (fun a hmem => hwalk a (List.mem_cons_of_mem _ hmem)) hr
  | @fails path node _ _ _ hnew _ _ ih =>
    refine ih (List.nodup_cons.2 ⟨hnew, hpath⟩) (fun a hedge => ?_) hr
    exact List.isChain_cons_cons.2 ⟨hedge, hwalk node List.mem_cons_self⟩
  | enters _ _ _ _ _ ih => exact ih hpath (fun a hmem => hwalk a (List.mem_cons_of_mem _ hmem)) hr

/-! ## What the search finishes -/

/-- Every node of a list has all its successors behind it. -/
def Drained (g : Graph) : List Node → Prop
  | [] => True
  | node :: rest => (∀ a, g.Edge node a → a ∈ rest) ∧ g.Drained rest

/-- A search that closes no path finishes all its nodes, each of them after its successors. -/
theorem Searches.drained (h : g.Searches path nodes finished (.ok finished'))
    (hdrained : g.Drained finished) :
    g.Drained finished' ∧ finished ⊆ finished' ∧ nodes ⊆ finished' := by
  generalize hr : Except.ok finished' = r at h
  induction h generalizing finished' with
  | nil =>
    obtain rfl := Except.ok.inj hr
    exact ⟨hdrained, List.Subset.refl _, List.nil_subset _⟩
  | closes => cases hr
  | known _ hknown _ ih =>
    obtain ⟨hend, hkept, hrest⟩ := ih hdrained hr
    exact ⟨hend, hkept, List.cons_subset.2 ⟨hkept hknown, hrest⟩⟩
  | fails => cases hr
  | enters _ _ _ _ ihnext ihrest =>
    -- The node joins the finished ones behind its successors, which the inner search has finished.
    obtain ⟨hinner, hkept, hnext⟩ := ihnext hdrained rfl
    obtain ⟨hend, hkept', hrest⟩ := ihrest ⟨fun a hedge => hnext hedge, hinner⟩ hr
    have hcons := List.cons_subset.1 hkept'
    exact ⟨hend, fun a hmem => hcons.2 (hkept hmem), List.cons_subset.2 ⟨hcons.1, hrest⟩⟩

namespace Drained

/-- A drained list is closed under edges. -/
theorem mem_of_edge {a b : Node} (h : g.Drained nodes) (ha : a ∈ nodes) (hedge : g.Edge a b) :
    b ∈ nodes := by
  induction nodes with
  | nil => cases ha
  | cons node rest ih =>
    rcases List.mem_cons.1 ha with rfl | ha
    · exact List.mem_cons_of_mem _ (h.1 b hedge)
    · exact List.mem_cons_of_mem _ (ih h.2 ha)

/-- What the first node of a drained list leads to stands behind it. -/
theorem mem_of_transGen {a b : Node} (h : g.Drained (a :: nodes))
    (hpath : Relation.TransGen g.Edge a b) : b ∈ nodes := by
  induction hpath with
  | single hedge => exact h.1 _ hedge
  | tail _ hedge ih => exact h.2.mem_of_edge ih hedge

/-- No node of a drained list leads to itself. -/
theorem not_transGen {a : Node} (h : g.Drained nodes) (ha : a ∈ nodes) :
    ¬ Relation.TransGen g.Edge a a := by
  intro hpath
  induction nodes with
  | nil => cases ha
  | cons node rest ih =>
    rcases List.mem_cons.1 ha with rfl | ha
    · exact ih h.2 (h.mem_of_transGen hpath)
    · exact ih h.2 ha

end Drained

/-! ## The cycle that is reported -/

/-- Some node is reached again from itself. -/
def Cyclic (g : Graph) : Prop := ∃ a, Relation.TransGen g.Edge a a

/-- The search of a graph reports closed walks along its edges. -/
theorem Proper.isCycle (hg : g.Proper) (h : g.cycle? = some cycle) : IsCycle g.Edge cycle := by
  obtain ⟨r, hsearch, hr⟩ := hg.exists_searches
  rw [h] at hr
  cases r with
  | ok finished => cases hr
  | error cycle' =>
    obtain rfl := Option.some.inj hr
    exact hsearch.isCycle .nil fun node _ => .singleton node

/-- The search finds no cycle exactly if there is none. -/
theorem Proper.cycle?_eq_none_iff (hg : g.Proper) : g.cycle? = none ↔ ¬ g.Cyclic := by
  obtain ⟨r, hsearch, hr⟩ := hg.exists_searches
  rw [hr]
  cases r with
  | ok finished =>
    refine iff_of_true rfl ?_
    rintro ⟨a, hpath⟩
    obtain ⟨hdrained, _, hall⟩ := hsearch.drained trivial
    refine hdrained.not_transGen (hall ?_) hpath
    cases hpath with
    | single hedge => exact hedge.source
    | tail _ hedge => exact hg.target_mem hedge
  | error cycle =>
    refine iff_of_false (by simp) (not_not_intro ?_)
    obtain ⟨a, hmem, hreaches⟩ := (hg.isCycle hr).reaches
    exact ⟨a, hreaches a hmem⟩

/-- The cycle that the error of an order names is one of the graph: its texts are those of a walk
along edges that were added, which ends at its first node and meets no other node twice. If the
graph is that of a storage, the walk never meets the root. -/
theorem reported_cycle {edges : List (Node × Node)} {path : List String}
    (h : (Graph.empty.addEdges edges).order = .error (.cycle path)) :
    ∃ cycle, cycle.map Node.label = path ∧ IsCycle (fun a b => (a, b) ∈ edges) cycle ∧
      ∀ s : Storage, s.graph = Graph.empty.addEdges edges → Node.root ∉ cycle := by
  have hg := Proper.empty.addEdges edges
  rw [order] at h
  split at h
  · next cycle hcycle =>
    obtain ⟨⟩ := h
    have hreported := hg.isCycle hcycle
    refine ⟨cycle, rfl, edge_empty_addEdges edges ▸ hreported, fun s hs => ?_⟩
    exact hreported.not_mem (hs ▸ fun _ => Storage.not_edge_root)
  · simp only at h
    split at h <;> cases h

end Graph

/-- Two templates, each of which has a field of the type of the other one. -/
def Storage.mutual : Storage :=
  let pool := ComponentType.ofName "app::Pool"
  let store := ComponentType.ofName "app::Store"
  let entry (t : Template) : Entry := .provider t.address (.template t)
  (Storage.empty.put (entry ⟨pool, [⟨"store", store⟩], 0⟩)).put (entry ⟨store, [⟨"pool", pool⟩], 1⟩)

theorem Graph.reported_cycle_mutual :
    let path := ["app.Pool", "app.Store", "app.Pool"]
    Storage.mutual.graph.order = .error (.cycle path) ∧
      ∃ cycle, cycle.map Node.label = path ∧ IsCycle Storage.mutual.graph.Edge cycle ∧
        Node.root ∉ cycle := by
  intro path
  have h : Storage.mutual.graph.order = .error (.cycle path) := by rfl
  obtain ⟨cycle, hpath, hcycle, hroot⟩ := reported_cycle h
  refine ⟨h, cycle, hpath, ?_, hroot Storage.mutual rfl⟩
  rw [Storage.graph, ofEntries, edge_empty_addEdges]
  exact hcycle

end Wiring
