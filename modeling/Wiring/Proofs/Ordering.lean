import Wiring.Proofs.Search

/-!
# Correctness of the order

The sweep keeps `Sweep.Good`: it knows of every node how many of its predecessors are not placed yet,
and it places a node behind all of them. So it never releases an edge into a node that waits for none
(`Sweep.Good.counted`), and an order that is computed is topological (`Graph.order_topological`). One
is computed for every graph without a cycle (`Graph.exists_order`), and the search finds a cycle in
every other, so that there is never another error (`Graph.order_correct`).
-/

namespace Wiring

namespace Graph

variable {g : Graph}

/-! ## Predecessors -/

/-- How many predecessors of a node are not among the placed nodes. -/
def waiting (g : Graph) (placed : List Node) (b : Node) : Nat :=
  g.nodes.countP fun a => b ∈ g.next a ∧ a ∉ placed

theorem waiting_eq_zero {placed : List Node} {b : Node} :
    g.waiting placed b = 0 ↔ ∀ a, g.Edge a b → a ∈ placed := by
  rw [waiting, List.countP_eq_zero]
  constructor
  · intro h a hedge
    simpa [show b ∈ g.next a from hedge] using h a hedge.source
  · intro h a _
    simpa using fun hmem : b ∈ g.next a => h a hmem

/-- In a list without repetition, one element that counts is one less without it. -/
theorem countP_ne {α : Type} [DecidableEq α] {xs : List α} {p : α → Bool} {a : α} (hxs : xs.Nodup)
    (ha : a ∈ xs) (hp : p a = true) : (xs.countP fun x => p x && x ≠ a) + 1 = xs.countP p := by
  induction xs with
  | nil => cases ha
  | cons x xs ih =>
    obtain ⟨hx, hxs⟩ := List.nodup_cons.1 hxs
    rcases List.mem_cons.1 ha with rfl | ha
    · have hrest : (xs.countP fun x => p x && x ≠ a) = xs.countP p := by
        refine List.countP_congr fun y hy => ?_
        have hne : y ≠ a := fun heq => hx (heq ▸ hy)
        simp [hne]
      rw [List.countP_cons_of_pos hp, List.countP_cons_of_neg (by simp), hrest]
    · have hne : x ≠ a := fun heq => hx (heq ▸ ha)
      rw [List.countP_cons, List.countP_cons, ← ih hxs ha]
      simp [hne]
      omega

/-- Placing a node is one predecessor less for its successors. -/
theorem waiting_concat (hg : g.Proper) {placed : List Node} {a : Node} (ha : a ∈ g.nodes)
    (hnew : a ∉ placed) (b : Node) : g.waiting (placed ++ [a]) b =
      if b ∈ g.next a then g.waiting placed b - 1 else g.waiting placed b := by
  split
  · next hedge =>
    have hcount := countP_ne (p := fun a => b ∈ g.next a ∧ a ∉ placed) hg.nodup_nodes ha
      (by simp [hedge, hnew])
    rw [waiting, waiting, ← hcount, Nat.add_sub_cancel]
    refine List.countP_congr fun x _ => ?_
    simp [and_assoc]
  · next hedge =>
    refine List.countP_congr fun x _ => ?_
    simp only [List.mem_append, List.mem_singleton, not_or, decide_eq_true_eq]
    refine and_congr_right fun hx => and_iff_left ?_
    rintro rfl
    exact hedge hx

theorem waiting_pos {placed : List Node} {a b : Node} (hedge : g.Edge a b)
    (hnew : a ∉ placed) : 0 < g.waiting placed b := by
  refine Nat.pos_of_ne_zero fun h => ?_
  exact hnew (waiting_eq_zero.1 h a hedge)

/-- The number of edges into a node is that of its predecessors. -/
theorem count_targets (hg : g.Proper) (b : Node) :
    (g.edges.map (·.2)).count b = g.waiting [] b := by
  have hrow : ∀ row ∈ g.successors.rows, g.next row.1 = row.2 := fun row hmem => by
    rw [next, (Table.get?_eq_some_iff hg.nodup_nodes).2 hmem]
    rfl
  have htargets : g.edges.map (·.2) = g.successors.rows.flatMap (·.2) := by
    simp [edges, List.map_flatMap, Function.comp_def]
  rw [htargets, List.count_flatMap, waiting, nodes, Table.keys, List.countP_map]
  generalize g.successors.rows = rows at hrow
  induction rows with
  | nil => rfl
  | cons row rows ih =>
    rw [List.map_cons, List.sum_cons, ih fun row hmem => hrow row (List.mem_cons_of_mem _ hmem),
      List.countP_cons, Nat.add_comm]
    have hnext := hrow row List.mem_cons_self
    have hcount : row.2.count b = if b ∈ row.2 then 1 else 0 :=
      (hnext ▸ hg.nodup_next row.1).count
    simp [hcount, hnext]

end Graph

/-! ## The sweep -/

namespace Sweep

variable {g : Graph} {s : Sweep}

/-- The sweep knows how many predecessors of each node are not placed; exactly the nodes without
such a predecessor are queued or placed, none of them twice; and each placed node stands behind its
predecessors. -/
structure Good (g : Graph) (s : Sweep) : Prop where
  nodup : (s.placed ++ s.queue).Nodup
  mem_iff : ∀ a, a ∈ s.placed ++ s.queue ↔ a ∈ g.nodes ∧ g.waiting s.placed a = 0
  pending : ∀ a, s.pending.get? a = if a ∈ g.nodes then some (g.waiting s.placed a) else none
  behind : ∀ {before a after}, s.placed = before ++ a :: after → ∀ b, g.Edge b a → b ∈ before

theorem start_good (hg : g.Proper) : (start g).Good g := by
  have hincoming : (g.nodes.map fun a => (a, (g.edges.map (·.2)).count a)) =
      g.nodes.map fun a => (a, g.waiting [] a) :=
    List.map_congr_left fun a _ => by rw [Graph.count_targets hg]
  have hqueue : (start g).queue = g.nodes.filter fun a => g.waiting [] a = 0 := by
    simp [start, hincoming, List.filter_map, Function.comp_def]
  have hkeys : (start g).pending.keys = g.nodes := by
    simp [start, Table.keys, Function.comp_def]
  refine ⟨?_, fun a => ?_, fun a => ?_, fun {before a after} hplaced => ?_⟩
  · show (start g).queue.Nodup
    rw [hqueue]
    exact hg.nodup_nodes.filter _
  · show a ∈ (start g).queue ↔ a ∈ g.nodes ∧ g.waiting [] a = 0
    rw [hqueue, List.mem_filter]
    simp
  · split
    · next hmem =>
      refine (Table.get?_eq_some_iff (hkeys ▸ hg.nodup_nodes)).2 ?_
      simp only [start, hincoming]
      exact List.mem_map.2 ⟨a, hmem, rfl⟩
    · next hmem =>
      rw [← hkeys, Table.mem_keys] at hmem
      simpa using hmem
  · have hlength := congrArg List.length hplaced
    simp [start] at hlength

/-- Releasing an edge into each of several nodes: each of them waits for one predecessor less, and
those that wait for none join the queue. -/
theorem foldl_release {targets : List Node} (hnodup : targets.Nodup)
    (hpending : ∀ a ∈ targets, (s.pending.get? a).isSome) :
    (targets.foldl release s).placed = s.placed ∧
      (targets.foldl release s).queue =
        s.queue ++ targets.filter (fun a => (s.pending.get? a).any (· - 1 = 0)) ∧
      ∀ a, (targets.foldl release s).pending.get? a =
        if a ∈ targets then (s.pending.get? a).map (· - 1) else s.pending.get? a := by
  induction targets generalizing s with
  | nil => simp
  | cons target targets ih =>
    obtain ⟨hnot, hnodup⟩ := List.nodup_cons.1 hnodup
    obtain ⟨count, hcount⟩ := Option.isSome_iff_exists.1 (hpending target List.mem_cons_self)
    have hrelease : s.release target = { s with
        pending := s.pending.update target fun _ => count - 1
        queue := if count - 1 = 0 then s.queue ++ [target] else s.queue } := by
      simp only [release, hcount]
    have hget : ∀ a, (s.release target).pending.get? a =
        if target = a then some (count - 1) else s.pending.get? a := fun a => by
      rw [hrelease, Table.get?_update]
      split
      · next heq => rw [← heq, hcount]; rfl
      · rfl
    have hother : ∀ a ∈ targets, (s.release target).pending.get? a = s.pending.get? a := by
      intro a hmem
      rw [hget, if_neg]
      rintro rfl
      exact hnot hmem
    obtain ⟨hplaced, hqueue, hrest⟩ := ih (s := s.release target) hnodup fun a hmem => by
      rw [hother a hmem]
      exact hpending a (List.mem_cons_of_mem _ hmem)
    rw [List.foldl_cons]
    refine ⟨?_, ?_, fun a => ?_⟩
    · rw [hplaced, hrelease]
    · rw [hqueue, List.filter_congr fun a hmem => by rw [hother a hmem], List.filter_cons, hrelease]
      simp only [hcount, Option.any_some]
      by_cases hzero : count - 1 = 0 <;> simp [hzero]
    · rw [hrest, hget]
      by_cases heq : target = a
      · subst heq
        simp [hnot, hcount]
      · simp [heq, Ne.symm heq]

/-- The node that is placed next is not placed yet. -/
theorem Good.not_placed (h : s.Good g) {node : Node} {queue : List Node}
    (hqueue : s.queue = node :: queue) : node ∉ s.placed := by
  have hnodup := h.nodup
  rw [hqueue] at hnodup
  intro hplaced
  exact (List.nodup_append.1 hnodup).2.2 node hplaced node List.mem_cons_self rfl

/-- The sweep knows how many predecessors of a successor are not placed. -/
theorem Good.get?_pending (h : s.Good g) (hg : g.Proper) {a b : Node} (hedge : g.Edge a b) :
    s.pending.get? b = some (g.waiting s.placed b) := by
  rw [h.pending, if_pos (hg.target_mem hedge)]

/-- What joins the queue when a node is placed are its successors that wait for nothing else. -/
theorem Good.mem_released (h : s.Good g) (hg : g.Proper) {a b : Node} :
    b ∈ (g.next a).filter (fun b => (s.pending.get? b).any (· - 1 = 0)) ↔
      b ∈ g.next a ∧ g.waiting s.placed b - 1 = 0 := by
  rw [List.mem_filter]
  refine and_congr_right fun hedge => ?_
  rw [h.get?_pending hg hedge]
  simp

/-- Placing the first waiting node and releasing its successors keeps the sweep good. -/
theorem Good.advance (hg : g.Proper) {s' : Sweep} (h : s.Good g) (hadv : s.advance? g = some s') :
    s'.Good g ∧ s'.placed.length = s.placed.length + 1 := by
  unfold advance? at hadv
  split at hadv
  · cases hadv
  · next a queue hqueue =>
    have hmem : a ∈ s.placed ++ s.queue := by simp [hqueue]
    obtain ⟨hnode, hzero⟩ := (h.mem_iff a).1 hmem
    have hnew : a ∉ s.placed := h.not_placed hqueue
    have hnext : ∀ b ∈ g.next a, (s.pending.get? b).isSome := fun b hedge => by
      rw [h.get?_pending hg hedge]
      rfl
    obtain ⟨hplaced, hqueue', hpending⟩ := foldl_release
      (s := { s with queue, placed := s.placed ++ [a] }) (hg.nodup_next a) hnext
    cases hadv
    have hwaits : ∀ b ∈ g.next a, 0 < g.waiting s.placed b := fun b hedge =>
      Graph.waiting_pos hedge hnew
    have hconcat := Graph.waiting_concat hg hnode hnew
    have hold : ∀ b, b ∈ s.placed ++ [a] ++ queue ↔ b ∈ g.nodes ∧ g.waiting s.placed b = 0 :=
      fun b => by rw [← h.mem_iff, hqueue, List.append_assoc, List.singleton_append]
    refine ⟨⟨?_, fun b => ?_, fun b => ?_, fun {before b after} hsplit => ?_⟩, ?_⟩
    · rw [hplaced, hqueue', ← List.append_assoc, List.nodup_append]
      refine ⟨?_, (hg.nodup_next a).filter _, fun b hb c hc heq => ?_⟩
      · rw [List.append_assoc, List.singleton_append, ← hqueue]
        exact h.nodup
      · subst heq
        have hwait := hwaits b ((h.mem_released hg).1 hc).1
        rw [((hold b).1 hb).2] at hwait
        exact Nat.lt_irrefl 0 hwait
    · rw [hplaced, hqueue', ← List.append_assoc, List.mem_append, hold, h.mem_released hg,
        hconcat]
      by_cases hedge : b ∈ g.next a
      · have hwait := hwaits b hedge
        simp only [hedge, if_true, true_and]
        constructor
        · rintro (⟨_, hzero⟩ | hone)
          · omega
          · exact ⟨hg.target_mem hedge, hone⟩
        · exact fun hone => .inr hone.2
      · simp [hedge]
    · rw [hpending, h.pending, hplaced, hconcat]
      by_cases hedge : b ∈ g.next a
      · simp [hedge, hg.target_mem hedge]
      · simp [hedge]
    · rw [hplaced] at hsplit
      rcases List.eq_nil_or_concat after with rfl | ⟨after, c, rfl⟩
      · obtain ⟨rfl, heq⟩ := List.append_inj' hsplit rfl
        obtain rfl : a = b := by simpa using heq
        exact Graph.waiting_eq_zero.1 hzero
      · rw [List.concat_eq_append, ← List.cons_append, ← List.append_assoc] at hsplit
        exact h.behind (List.append_inj' hsplit rfl).1
    · rw [hplaced, List.length_append]
      rfl

/-- A good sweep queues and places at most the nodes of the graph. -/
theorem Good.length_le (h : s.Good g) : s.placed.length + s.queue.length ≤ g.nodes.length := by
  rw [← List.length_append]
  exact h.nodup.length_le_of_subset fun a ha => ((h.mem_iff a).1 ha).1

/-- If as many nodes are placed as there are, every node is. -/
theorem Good.placed_of_length (h : s.Good g) (hlength : s.placed.length = g.nodes.length)
    {a : Node} (ha : a ∈ g.nodes) : a ∈ s.placed := by
  refine Classical.byContradiction fun hnot => ?_
  have hnodup : s.placed.Nodup := (List.nodup_append.1 h.nodup).1
  have hle := (List.nodup_cons.2 ⟨hnot, hnodup⟩).length_le_of_subset fun b hb =>
    (List.mem_cons.1 hb).elim (fun heq => heq ▸ ha) fun hb =>
      ((h.mem_iff b).1 (List.mem_append_left _ hb)).1
  rw [List.length_cons, hlength] at hle
  exact Nat.not_succ_le_self _ hle

/-- A run of a good sweep ends good, and with an empty queue if the fuel suffices. -/
theorem Good.run (h : s.Good g) (hg : g.Proper) (fuel : Nat) : (Sweep.run g fuel s).Good g ∧
    (g.nodes.length ≤ s.placed.length + fuel → (Sweep.run g fuel s).queue = []) := by
  induction fuel generalizing s with
  | zero =>
    have hlength := h.length_le
    exact ⟨h, fun hfuel => List.eq_nil_of_length_eq_zero (by rw [Sweep.run]; omega)⟩
  | succ fuel ih =>
    rw [Sweep.run]
    split
    · next hadv =>
      refine ⟨h, fun _ => ?_⟩
      unfold advance? at hadv
      split at hadv
      · next hqueue => exact hqueue
      · cases hadv
    · next s' hadv =>
      obtain ⟨hgood, hlength⟩ := h.advance hg hadv
      obtain ⟨hgood', hempty⟩ := ih hgood
      exact ⟨hgood', fun hfuel => hempty (by omega)⟩

/-- Every edge that the next step of the sweep releases leads to a node that waits for one: the count
that is lowered for it is not zero by then. -/
def Counted (g : Graph) (s : Sweep) : Prop :=
  ∀ {node queue before target after}, s.queue = node :: queue →
    g.next node = before ++ target :: after →
      ∃ count, (before.foldl release { s with queue, placed := s.placed ++ [node] }).pending.get?
        target = some (count + 1)

theorem Good.counted (h : s.Good g) (hg : g.Proper) : s.Counted g := by
  intro node queue before target after hqueue hnext
  have hnodup : (before ++ target :: after).Nodup := hnext ▸ hg.nodup_next node
  obtain ⟨hnodup, _, hnew⟩ := List.nodup_append.1 hnodup
  have hedge : ∀ b ∈ before ++ target :: after, g.Edge node b := fun b hb => by
    rw [Graph.Edge, hnext]
    exact hb
  have htarget := hedge target (by simp)
  obtain ⟨count, hcount⟩ := Nat.exists_eq_succ_of_ne_zero
    (Nat.ne_of_gt (Graph.waiting_pos htarget (h.not_placed hqueue)))
  obtain ⟨_, _, hpending⟩ := foldl_release
    (s := { s with queue, placed := s.placed ++ [node] }) hnodup fun b hb => by
      rw [h.get?_pending hg (hedge b (List.mem_append_left _ hb))]
      rfl
  have hnot : target ∉ before := fun hb => hnew target hb target List.mem_cons_self rfl
  refine ⟨count, ?_⟩
  rw [hpending, if_neg hnot, h.get?_pending hg htarget, hcount]

end Sweep

namespace Graph

variable {g : Graph}

/-- If every node of a set has a predecessor in the set, the predecessors can be followed back for
as long as one likes, without meeting a node again unless there is a cycle. -/
theorem exists_walk_back {unplaced : List Node} (hcycle : ¬ g.Cyclic)
    (hstuck : ∀ b ∈ unplaced, ∃ a ∈ unplaced, g.Edge a b) {b : Node} (hb : b ∈ unplaced)
    (n : Nat) : ∃ a walk, walk.length = n ∧ (a :: walk).Nodup ∧ (∀ c ∈ a :: walk, c ∈ unplaced) ∧
      ∀ c ∈ walk, Relation.TransGen g.Edge a c := by
  induction n with
  | zero => exact ⟨b, [], rfl, by simp, by simpa, by simp⟩
  | succ n ih =>
    obtain ⟨a, walk, hlength, hnodup, hmem, hwalk⟩ := ih
    obtain ⟨a', ha', hedge⟩ := hstuck a (hmem a List.mem_cons_self)
    refine ⟨a', a :: walk, by simp [hlength], List.nodup_cons.2 ⟨fun hagain => ?_, hnodup⟩, ?_, ?_⟩
    · rcases List.mem_cons.1 hagain with rfl | hagain
      · exact hcycle ⟨a', .single hedge⟩
      · exact hcycle ⟨a, .tail (hwalk a' hagain) hedge⟩
    · intro c hc
      rcases List.mem_cons.1 hc with rfl | hc
      · exact ha'
      · exact hmem c hc
    · intro c hc
      rcases List.mem_cons.1 hc with rfl | hc
      · exact .single hedge
      · exact Relation.TransGen.trans (.single hedge) (hwalk c hc)

/-- The sweep of a graph ends good and with nothing left to place. -/
theorem swept_good (hg : g.Proper) : ∃ s : Sweep, s.Good g ∧ s.queue = [] ∧ s.placed = g.swept := by
  obtain ⟨hgood, hempty⟩ := (Sweep.start_good hg).run hg g.nodes.length
  exact ⟨_, hgood, hempty (by omega), rfl⟩

/-- Without a cycle every node is placed. -/
theorem mem_swept (hg : g.Proper) (hcycle : ¬ g.Cyclic) {a : Node} (ha : a ∈ g.nodes) :
    a ∈ g.swept := by
  obtain ⟨s, hgood, hqueue, hplaced⟩ := swept_good hg
  rw [← hplaced]
  refine Classical.byContradiction fun hnot => ?_
  have hstuck : ∀ b ∈ g.nodes.filter (· ∉ s.placed),
      ∃ a ∈ g.nodes.filter (· ∉ s.placed), g.Edge a b := by
    intro b hb
    obtain ⟨hnode, hnew⟩ := List.mem_filter.1 hb
    refine Classical.byContradiction fun hnone => ?_
    have hzero : g.waiting s.placed b = 0 := waiting_eq_zero.2 fun a hedge =>
      Classical.byContradiction fun hunplaced =>
        hnone ⟨a, List.mem_filter.2 ⟨hedge.source, by simpa using hunplaced⟩, hedge⟩
    have hmem := (hgood.mem_iff b).2 ⟨hnode, hzero⟩
    rw [hqueue, List.append_nil] at hmem
    simp [hmem] at hnew
  have ha' : a ∈ g.nodes.filter (· ∉ s.placed) := List.mem_filter.2 ⟨ha, by simpa using hnot⟩
  obtain ⟨b, walk, hlength, hnodup, hmem, _⟩ :=
    exists_walk_back hcycle hstuck ha' g.nodes.length
  have hle := hnodup.length_le_of_subset fun c hc => (List.mem_filter.1 (hmem c hc)).1
  rw [List.length_cons, hlength] at hle
  exact Nat.not_succ_le_self _ hle

/-- For a graph without a cycle an order is computed. -/
theorem exists_order (hg : g.Proper) (hcycle : ¬ g.Cyclic) : ∃ order, g.order = .ok order := by
  have hnone := hg.cycle?_eq_none_iff.2 hcycle
  have hlength : g.swept.length = g.nodes.length := by
    obtain ⟨s, hgood, hqueue, hplaced⟩ := swept_good hg
    refine Nat.le_antisymm ?_ (hg.nodup_nodes.length_le_of_subset fun a => mem_swept hg hcycle)
    have hle := hgood.length_le
    rw [hplaced] at hle
    omega
  exact ⟨g.swept.filterMap Node.address?, by simp [order, hnone, hlength]⟩

/-- The computation of an order fails with a cycle only. -/
theorem order_eq_error {err : Error} (hg : g.Proper) (h : g.order = .error err) :
    ∃ path, err = .cycle path := by
  cases hcycle : g.cycle? with
  | some path =>
    simp only [order, hcycle] at h
    cases h
    exact ⟨_, rfl⟩
  | none =>
    obtain ⟨_, horder⟩ := exists_order hg (hg.cycle?_eq_none_iff.1 hcycle)
    cases h.symm.trans horder

/-- Everything that comes before a placed node, at any distance, was placed before it. -/
theorem behind_of_transGen {s : Sweep} (h : s.Good g) {a b : Node}
    (hpath : Relation.TransGen g.Edge a b) {before after : List Node}
    (hplaced : s.placed = before ++ b :: after) : a ∈ before := by
  induction hpath generalizing before after with
  | single hedge => exact h.behind hplaced _ hedge
  | tail _ hedge ih =>
    obtain ⟨before', after', rfl⟩ := List.append_of_mem (h.behind hplaced _ hedge)
    exact List.mem_append_left _ (ih (by rw [hplaced, List.append_assoc, List.cons_append]))

/-- Only for a graph without a cycle an order is computed. -/
theorem not_cyclic_of_order (hg : g.Proper) {order : List Address} (h : g.order = .ok order) :
    ¬ g.Cyclic := by
  rintro ⟨a, hcycle⟩
  obtain ⟨s, hgood, _, hplaced⟩ := swept_good hg
  have hnodup : s.placed.Nodup := (List.nodup_append.1 hgood.nodup).1
  rw [Graph.order, ← hplaced] at h
  split at h
  · cases h
  · simp only at h
    split at h
    · next hlength =>
      have ha : a ∈ s.placed := hgood.placed_of_length hlength (by
        cases hcycle with
        | single hedge => exact hedge.source
        | tail _ hedge => exact hg.target_mem hedge)
      obtain ⟨before, after, hsplit⟩ := List.append_of_mem ha
      rw [hsplit] at hnodup
      exact (List.nodup_append.1 hnodup).2.2 a (behind_of_transGen hgood hcycle hsplit) a
        List.mem_cons_self rfl
    · cases h

/-- A computed order lists each address of the graph once, behind all its predecessors. -/
theorem order_topological (hg : g.Proper) {order : List Address} (h : g.order = .ok order) :
    order.Nodup ∧ (∀ a, a ∈ order ↔ .key a ∈ g.nodes) ∧
      ∀ {before a after}, order = before ++ a :: after →
        ∀ b, g.Edge (.key b) (.key a) → b ∈ before := by
  obtain ⟨s, hgood, hqueue, hplaced⟩ := swept_good hg
  have hnodup : s.placed.Nodup := (List.nodup_append.1 hgood.nodup).1
  have hsub : ∀ a ∈ s.placed, a ∈ g.nodes := fun a ha =>
    ((hgood.mem_iff a).1 (List.mem_append_left _ ha)).1
  rw [Graph.order, ← hplaced] at h
  split at h
  · cases h
  · simp only at h
    split at h
    · next hlength =>
      cases h
      have hall : ∀ a ∈ g.nodes, a ∈ s.placed := fun a ha => hgood.placed_of_length hlength ha
      have hmem : ∀ {nodes : List Node} {a : Address},
          a ∈ nodes.filterMap Node.address? ↔ .key a ∈ nodes := by
        intro nodes a
        rw [List.mem_filterMap]
        constructor
        · rintro ⟨_ | b, hb, heq⟩
          · cases heq
          · cases heq
            exact hb
        · exact fun ha => ⟨_, ha, rfl⟩
      refine ⟨?_, fun a => hmem.trans ⟨hsub _, hall _⟩, fun {before a after} hsplit b hedge => ?_⟩
      · refine List.Pairwise.filterMap _ (fun m n hne a ha b hb heq => hne ?_) hnodup
        cases m <;> cases n <;> simp_all [Node.address?]
      · obtain ⟨before', rest, hplaced', rfl, hrest⟩ := List.filterMap_eq_append_iff.1 hsplit
        obtain ⟨skipped, c, rest', rfl, hskipped, hc, hafter⟩ := List.filterMap_eq_cons_iff.1 hrest
        obtain rfl : c = .key a := by
          cases c with
          | root => cases hc
          | key => cases hc; rfl
        have hpred := hgood.behind
          (show s.placed = (before' ++ skipped) ++ .key a :: rest' by simpa using hplaced') _ hedge
        rcases List.mem_append.1 hpred with hb | hb
        · exact hmem.2 hb
        · cases hskipped _ hb
    · cases h

/-- Induction along a computed order: what holds of an address whenever it holds of its predecessors
holds of every address in the graph. -/
theorem order_induction (hg : g.Proper) {order : List Address} (h : g.order = .ok order)
    {p : Address → Prop} (hstep : ∀ a, (∀ b, g.Edge (.key b) (.key a) → p b) → p a) (a : Address)
    (ha : .key a ∈ g.nodes) : p a := by
  obtain ⟨_, hmem, hbehind⟩ := order_topological hg h
  obtain ⟨before, after, hsplit⟩ := List.append_of_mem ((hmem a).2 ha)
  clear ha
  -- The induction is on how much stands before the address.
  induction hlength : before.length using Nat.strong_induction_on generalizing a before after with
  | _ n ih =>
    refine hstep a fun b hedge => ?_
    have hb := hbehind hsplit b hedge
    obtain ⟨earlier, later, rfl⟩ := List.append_of_mem hb
    have hlt : earlier.length < n := by
      rw [← hlength, List.length_append, List.length_cons]
      omega
    exact ih _ hlt b earlier (later ++ a :: after) (by simp [hsplit]) rfl

/-- A list of addresses has each end of an edge that is an address once, behind everything that an
edge leads from to it. -/
structure Sorts (edges : List (Node × Node)) (order : List Address) : Prop where
  nodup : order.Nodup
  mem_iff : ∀ a, a ∈ order ↔ ∃ edge ∈ edges, Node.key a = edge.1 ∨ Node.key a = edge.2
  behind : ∀ {before b after}, order = before ++ b :: after →
    ∀ a, (Node.key a, Node.key b) ∈ edges → a ∈ before

/-- The passes over a graph end by themselves: the search has followed its rules to their end, the
sweep leaves no node in its queue, and no step of it lowers a count of zero. -/
structure Passes (g : Graph) : Prop where
  search : ∃ r, g.Searches [] g.nodes [] r ∧ g.cycle? = match r with
    | .ok _ => none
    | .error cycle => some cycle
  sweep : ((Sweep.start g).run g g.nodes.length).queue = []
  counted : ∀ steps, ((Sweep.start g).run g steps).Counted g

theorem Proper.passes (hg : g.Proper) : g.Passes where
  search := hg.exists_searches
  sweep := ((Sweep.start_good hg).run hg g.nodes.length).2 (by omega)
  counted steps := ((Sweep.start_good hg).run hg steps).1.counted hg

/-- The order of a graph that is built by adding edges is computed exactly if they form no cycle, and
it then sorts them. Otherwise the error is a cycle, and never that the sweep left nodes out. -/
theorem order_correct (edges : List (Node × Node)) :
    let g := Graph.empty.addEdges edges
    let cyclic := ∃ a, Relation.TransGen (fun a b => (a, b) ∈ edges) a a
    g.Passes ∧
      ((∃ order, g.order = .ok order) ↔ ¬ cyclic) ∧
      (∀ order, g.order = .ok order → Sorts edges order) ∧
      (cyclic → ∃ path, g.order = .error (.cycle path)) := by
  intro g cyclic
  have hg : g.Proper := Proper.empty.addEdges edges
  have hedge : g.Edge = fun a b => (a, b) ∈ edges := edge_empty_addEdges edges
  have hcyclic : g.Cyclic ↔ cyclic := by rw [Cyclic, hedge]
  refine ⟨hg.passes, ⟨?_, fun h => exists_order hg (hcyclic.not.2 h)⟩, fun order horder => ?_,
    fun h => ?_⟩
  · rintro ⟨order, horder⟩
    exact hcyclic.not.1 (not_cyclic_of_order hg horder)
  · obtain ⟨hnodup, hmem, hbehind⟩ := order_topological hg horder
    refine ⟨hnodup, fun a => (hmem a).trans ?_, fun hsplit a hmem => hbehind hsplit a ?_⟩
    · exact mem_nodes_addEdges.trans (or_iff_right (List.not_mem_nil))
    · rw [hedge]
      exact hmem
  · cases hcycle : g.cycle? with
    | none => exact absurd (hcyclic.2 h) (hg.cycle?_eq_none_iff.1 hcycle)
    | some cycle => exact ⟨cycle.map Node.label, by simp [order, hcycle]⟩

end Graph

end Wiring
