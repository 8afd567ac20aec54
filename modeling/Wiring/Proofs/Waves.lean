import Wiring.Proofs.Ordering
import Mathlib.Order.Bounds.Basic
import Mathlib.Order.Lattice.Nat

/-!
# The order runs in waves

The depth of a node is the number of edges of the longest path that ends in it (`Depth`). The sweep
computes no depths, but it places the nodes in waves: first those of depth zero, then those of depth
one, and so on (`Graph.order_waves`). This is what its queue is for. While it waits, the depths of its
nodes never decrease and span two adjacent waves at most (`Sweep.Waves`), because the last edge into
a node is released by one of its deepest predecessors, whose depth is one less than its own.
-/

namespace Wiring

/-- A path of `n` edges ends in a node. -/
inductive PathTo (r : Node → Node → Prop) : Nat → Node → Prop
  | start (a : Node) : PathTo r 0 a
  | follow {n : Nat} {a b : Node} : PathTo r n a → r a b → PathTo r (n + 1) b

/-- The depth of a node is the number of edges of the longest path that ends in it. -/
def Depth (r : Node → Node → Prop) (a : Node) (n : Nat) : Prop := IsGreatest {n | PathTo r n a} n

namespace Depth

variable {r : Node → Node → Prop} {a b : Node} {m n : Nat}

/-- What comes after a node is deeper. -/
theorem lt (ha : Depth r a m) (hb : Depth r b n) (hedge : r a b) : m < n :=
  hb.2 (ha.1.follow hedge)

/-- A node is deeper by at most one than the deepest that comes before it. -/
theorem le_succ (hb : Depth r b n) (hle : ∀ a, r a b → ∀ k, PathTo r k a → k ≤ m) : n ≤ m + 1 := by
  cases hb.1 with
  | start => exact Nat.zero_le _
  | follow hpath hedge => exact Nat.succ_le_succ (hle _ hedge _ hpath)

/-- A node that nothing comes before has depth zero. -/
theorem eq_zero (hb : Depth r b n) (hnone : ∀ a, ¬ r a b) : n = 0 := by
  cases hb.1 with
  | start => rfl
  | follow _ hedge => exact absurd hedge (hnone _)

end Depth

namespace Graph

variable {g : Graph}

/-- A path to a placed node is no longer than the list of what is placed before it. -/
theorem length_le_of_pathTo {s : Sweep} (h : s.Good g) {n : Nat} {b : Node}
    (hpath : PathTo g.Edge n b) {before after : List Node}
    (hplaced : s.placed = before ++ b :: after) : n ≤ before.length := by
  induction hpath generalizing before after with
  | start => exact Nat.zero_le _
  | follow _ hedge ih =>
    obtain ⟨before', after', rfl⟩ := List.append_of_mem (h.behind hplaced _ hedge)
    have hle : _ ≤ before'.length := ih (by rw [hplaced, List.append_assoc, List.cons_append])
    simp only [List.length_append, List.length_cons]
    omega

/-- In a graph without a cycle every node has a depth. -/
theorem exists_depth (hg : g.Proper) (hcycle : ¬ g.Cyclic) (b : Node) : ∃ n, Depth g.Edge b n := by
  obtain ⟨s, hgood, -, hplaced⟩ := swept_good hg
  have hbound : ∀ n ∈ {n | PathTo g.Edge n b}, n ≤ s.placed.length := by
    intro n hpath
    cases hpath with
    | start => exact Nat.zero_le _
    | follow hpath hedge =>
      have hmem : b ∈ s.placed := hplaced ▸ mem_swept hg hcycle (hg.target_mem hedge)
      obtain ⟨before, after, hsplit⟩ := List.append_of_mem hmem
      have hle := length_le_of_pathTo hgood (hpath.follow hedge) hsplit
      simp only [hsplit, List.length_append]
      omega
  have hbdd : BddAbove {n | PathTo g.Edge n b} := ⟨_, hbound⟩
  exact ⟨_, Nat.sSup_mem ⟨0, .start b⟩ hbdd, fun n hn => le_csSup hbdd hn⟩

end Graph

namespace Sweep

variable {g : Graph} {s s' : Sweep} {d : Node → Nat}

/-- The placed and then the waiting nodes come wave by wave, and the waiting ones belong to two
adjacent waves at most. -/
structure Waves (d : Node → Nat) (s : Sweep) : Prop where
  sorted : (s.placed ++ s.queue).Pairwise fun a b => d a ≤ d b
  span : ∀ a ∈ s.queue, ∀ b ∈ s.queue, d b ≤ d a + 1

/-- A step places the first node of the queue and appends some of its successors. -/
theorem Good.advance_eq (h : s.Good g) (hg : g.Proper) (hadv : s.advance? g = some s') :
    ∃ a queue released, s.queue = a :: queue ∧ s'.placed = s.placed ++ [a] ∧
      s'.queue = queue ++ released ∧ ∀ b ∈ released, g.Edge a b := by
  unfold advance? at hadv
  split at hadv
  · cases hadv
  · next a queue hqueue =>
    cases hadv
    obtain ⟨hplaced, hqueue', -⟩ := foldl_release
      (s := { s with queue, placed := s.placed ++ [a] }) (hg.nodup_next a) fun b hedge => by
        rw [h.get?_pending hg hedge]
        rfl
    exact ⟨a, queue, _, hqueue, hplaced, hqueue', fun b hb => (List.mem_filter.1 hb).1⟩

/-- The nodes without incoming edges are the first wave. -/
theorem start_waves (hg : g.Proper) (hd : ∀ a, Depth g.Edge a (d a)) : (start g).Waves d := by
  have hzero : ∀ b ∈ (start g).queue, d b = 0 := fun b hb => by
    have hnone := ((start_good hg).mem_iff b).1 (List.mem_append_right _ hb)
    exact (hd b).eq_zero fun a hedge => List.not_mem_nil (Graph.waiting_eq_zero.1 hnone.2 a hedge)
  refine ⟨List.pairwise_of_forall_mem_list fun a ha b _ => ?_, fun a _ b hb => ?_⟩
  · rw [hzero a ha]
    exact Nat.zero_le _
  · rw [hzero b hb]
    exact Nat.zero_le _

/-- What is released by placing a node belongs to the wave after that of the node. -/
theorem Waves.released (hw : s.Waves d) (h' : s'.Good g) (hd : ∀ a, Depth g.Edge a (d a))
    {a b : Node} {queue : List Node} (hqueue : s.queue = a :: queue)
    (hplaced : s'.placed = s.placed ++ [a]) (hb : b ∈ s'.queue) (hedge : g.Edge a b) :
    d b = d a + 1 := by
  refine Nat.le_antisymm ((hd b).le_succ fun c hc k hpath => ?_) ((hd a).lt (hd b) hedge)
  have hmem : c ∈ s.placed ++ [a] :=
    hplaced ▸ Graph.waiting_eq_zero.1 ((h'.mem_iff b).1 (List.mem_append_right _ hb)).2 c hc
  refine Nat.le_trans ((hd c).2 hpath) ?_
  rcases List.mem_append.1 hmem with hc | hc
  · exact (List.pairwise_append.1 hw.sorted).2.2 c hc a (by simp [hqueue])
  · rw [List.mem_singleton.1 hc]

/-- A step keeps the waves: it takes a node of the earlier wave from the queue, and what it appends
belongs to the later one. -/
theorem Waves.advance (hw : s.Waves d) (h : s.Good g) (hg : g.Proper)
    (hd : ∀ a, Depth g.Edge a (d a)) (hadv : s.advance? g = some s') : s'.Waves d := by
  obtain ⟨a, queue, released, hqueue, hplaced, hqueue', hedges⟩ := h.advance_eq hg hadv
  have hnext : ∀ b ∈ released, d b = d a + 1 := fun b hb =>
    hw.released (h.advance hg hadv).1 hd hqueue hplaced (hqueue' ▸ List.mem_append_right _ hb)
      (hedges b hb)
  have hsorted := hw.sorted
  rw [hqueue] at hsorted
  obtain ⟨-, hwaiting, hbefore⟩ := List.pairwise_append.1 hsorted
  have hspan : ∀ b ∈ s'.queue, d a ≤ d b ∧ d b ≤ d a + 1 := fun b hb => by
    rcases List.mem_append.1 (hqueue' ▸ hb) with hb | hb
    · exact ⟨(List.pairwise_cons.1 hwaiting).1 b hb,
        hw.span a (by simp [hqueue]) b (by simp [hqueue, hb])⟩
    · have hdepth := hnext b hb
      omega
  refine ⟨?_, fun b hb c hc => ?_⟩
  · have hlist : s'.placed ++ s'.queue = (s.placed ++ a :: queue) ++ released := by
      simp [hplaced, hqueue']
    rw [hlist]
    refine List.pairwise_append.2 ⟨hsorted, ?_, fun b hb c hc => ?_⟩
    · exact List.pairwise_of_forall_mem_list fun b hb c hc => by rw [hnext b hb, hnext c hc]
    · rw [hnext c hc]
      rcases List.mem_append.1 hb with hb | hb
      · exact Nat.le_succ_of_le (hbefore b hb a List.mem_cons_self)
      · exact hw.span a (by simp [hqueue]) b (hqueue ▸ hb)
  · have hlow := (hspan b hb).1
    have hhigh := (hspan c hc).2
    omega

/-- A run keeps the waves. -/
theorem Waves.run (hw : s.Waves d) (h : s.Good g) (hg : g.Proper)
    (hd : ∀ a, Depth g.Edge a (d a)) (fuel : Nat) : (Sweep.run g fuel s).Waves d := by
  induction fuel generalizing s with
  | zero => exact hw
  | succ fuel ih =>
    rw [Sweep.run]
    split
    · exact hw
    · next s' hadv => exact ih (hw.advance h hg hd hadv) (h.advance hg hadv).1

end Sweep

namespace Graph

variable {g : Graph}

/-- The depths of the nodes never decrease along the sweep. -/
theorem swept_waves (hg : g.Proper) {d : Node → Nat} (hd : ∀ a, Depth g.Edge a (d a)) :
    g.swept.Pairwise fun a b => d a ≤ d b := by
  have hw := (Sweep.start_waves hg hd).run (Sweep.start_good hg) hg hd g.nodes.length
  exact (List.pairwise_append.1 hw.sorted).1

/-- A computed order is the sweep without the root. -/
theorem eq_filterMap_swept {order : List Address} (h : g.order = .ok order) :
    order = g.swept.filterMap Node.address? := by
  rw [Graph.order] at h
  split at h
  · cases h
  · simp only at h
    split at h
    · cases h
      rfl
    · cases h

/-- The order of a graph that is built by adding edges runs in waves. If the edges form no cycle there
is an order, each of its addresses has a depth, and no address stands before one of smaller
depth. -/
theorem order_waves (edges : List (Node × Node))
    (hcycle : ¬ ∃ a, Relation.TransGen (fun a b => (a, b) ∈ edges) a a) :
    ∃ order, (Graph.empty.addEdges edges).order = .ok order ∧
      (∀ a ∈ order, ∃ n, Depth (fun a b => (a, b) ∈ edges) (.key a) n) ∧
      order.Pairwise fun a b => ∀ m n, Depth (fun a b => (a, b) ∈ edges) (.key a) m →
        Depth (fun a b => (a, b) ∈ edges) (.key b) n → m ≤ n := by
  have hg : (Graph.empty.addEdges edges).Proper := Proper.empty.addEdges edges
  rw [← edge_empty_addEdges edges] at hcycle ⊢
  obtain ⟨order, horder⟩ := exists_order hg hcycle
  choose d hd using exists_depth hg hcycle
  refine ⟨order, horder, fun a _ => ⟨_, hd (.key a)⟩, ?_⟩
  rw [eq_filterMap_swept horder]
  refine (swept_waves hg hd).filterMap _ fun x y hle a ha b hb m n hm hn => ?_
  obtain rfl : x = .key a := by cases x <;> cases ha; rfl
  obtain rfl : y = .key b := by cases y <;> cases hb; rfl
  rw [hm.unique (hd _), hn.unique (hd _)]
  exact hle

/-- Something that needs the root and something deep: it is far down although it is next to the
root. -/
def staggered : List (Node × Node) :=
  [(.root, .key ⟨"a"⟩), (.key ⟨"c"⟩, .key ⟨"a"⟩), (.root, .key ⟨"d"⟩), (.key ⟨"d"⟩, .key ⟨"c"⟩),
    (.root, .key ⟨"b"⟩)]

/-- The order of `staggered` begins with what has depth one and ends with the deepest address, which
is the smallest and the first that was added. -/
theorem order_waves_staggered :
    (¬ ∃ a, Relation.TransGen (fun a b => (a, b) ∈ staggered) a a) ∧
      (Graph.empty.addEdges staggered).order = .ok [⟨"b"⟩, ⟨"d"⟩, ⟨"c"⟩, ⟨"a"⟩] ∧
      ∀ a ∈ [⟨"b"⟩, ⟨"d"⟩, ⟨"c"⟩], ∀ m n, Depth (fun a b => (a, b) ∈ staggered) (.key a) m →
        Depth (fun a b => (a, b) ∈ staggered) (.key ⟨"a"⟩) n → m ≤ n := by
  have hg : (Graph.empty.addEdges staggered).Proper := Proper.empty.addEdges staggered
  have hcycle : ¬ ∃ a, Relation.TransGen (fun a b => (a, b) ∈ staggered) a a := by
    rw [← edge_empty_addEdges staggered]
    exact hg.cycle?_eq_none_iff.1 (by decide +kernel)
  have horder : (Graph.empty.addEdges staggered).order = .ok [⟨"b"⟩, ⟨"d"⟩, ⟨"c"⟩, ⟨"a"⟩] := by
    rfl
  obtain ⟨order, hcomputed, -, hwaves⟩ := order_waves staggered hcycle
  obtain rfl : order = [⟨"b"⟩, ⟨"d"⟩, ⟨"c"⟩, ⟨"a"⟩] := by
    rw [horder] at hcomputed
    cases hcomputed
    rfl
  have hsplit : [⟨"b"⟩, ⟨"d"⟩, ⟨"c"⟩, ⟨"a"⟩] = [⟨"b"⟩, ⟨"d"⟩, ⟨"c"⟩] ++ [Address.mk "a"] := rfl
  rw [hsplit, List.pairwise_append] at hwaves
  exact ⟨hcycle, horder, fun a ha => hwaves.2.2 a ha _ (List.mem_singleton_self _)⟩

end Graph

end Wiring
