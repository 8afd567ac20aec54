import Wiring.Proofs.Duplicates
import Wiring.Proofs.Rounds

/-!
# The arrangement of registrations

A graph is determined by its nodes and edges (`Graph.Proper.ext`), so the entries it is built from may
be listed in any order (`Graph.ofEntries_perm`). A storage is determined by the entries in its slots, and
items for different slots make the same entries in whatever order they are added
(`Storage.addAll_perm`). So neither the order in which such items are registered nor the portions in
which this is done can be noticed afterwards (`Client.registrations_rearrange`).
-/

namespace Wiring

/-! ## Graphs -/

namespace Graph

variable {g g' : Graph}

/-- The successors of a node stand in the table of successors, and those of nothing else. -/
theorem get?_successors (g : Graph) (a : Node) :
    g.successors.get? a = if a ∈ g.nodes then some (g.next a) else none := by
  cases hget : g.successors.get? a with
  | none =>
    have hnot : a ∉ g.nodes := fun hmem => by
      have hsome := Table.mem_keys.1 hmem
      rw [hget] at hsome
      cases hsome
    rw [if_neg hnot]
  | some targets =>
    have hmem : a ∈ g.nodes := Table.mem_keys.2 (hget ▸ rfl)
    rw [if_pos hmem, next, hget, Option.getD_some]

/-- Graphs with the same nodes and the same edges are the same. -/
theorem Proper.ext (h : g.Proper) (h' : g'.Proper) (hnodes : ∀ a, a ∈ g.nodes ↔ a ∈ g'.nodes)
    (hedges : ∀ a b, g.Edge a b ↔ g'.Edge a b) : g = g' := by
  have hnext : ∀ a, g.next a = g'.next a := fun a =>
    eq_of_ascending id (h.ascending_next a) (h'.ascending_next a) (hedges a)
  have hrows : g.successors.rows = g'.successors.rows :=
    Table.rows_eq h.ascending_nodes h'.ascending_nodes fun a => by
      rw [get?_successors, get?_successors, hnext]
      simp only [hnodes a]
  obtain ⟨⟨rows⟩⟩ := g
  obtain ⟨⟨rows'⟩⟩ := g'
  obtain rfl : rows = rows' := hrows
  rfl

/-- Edges may be added in any order. -/
theorem addEdges_perm {edges edges' : List (Node × Node)} (h : edges.Perm edges') (hg : g.Proper) :
    g.addEdges edges = g.addEdges edges' := by
  refine (hg.addEdges edges).ext (hg.addEdges edges') (fun a => ?_) fun a b => ?_
  · simp only [mem_nodes_addEdges, h.mem_iff]
  · simp only [edge_addEdges, h.mem_iff]

/-- The entries from which a graph is built may be listed in any order. -/
theorem ofEntries_perm {entries entries' : List Entry} (h : entries.Perm entries') :
    ofEntries entries = ofEntries entries' :=
  addEdges_perm (h.flatMap_right _) .empty

end Graph

/-! ## Storages -/

namespace Storage

variable {s s' : Storage} {items items' : List Item}

/-- Storages that hold the same entries are the same. -/
theorem Sound.ext (h : s.Sound) (h' : s'.Sound) (hget : ∀ a, s.get? a = s'.get? a) : s = s' := by
  have hrows : s.table.rows = s'.table.rows := Table.rows_eq h.ascending h'.ascending hget
  obtain ⟨⟨rows⟩⟩ := s
  obtain ⟨⟨rows'⟩⟩ := s'
  obtain rfl : rows = rows' := hrows
  rfl

/-- What the items make is all that a storage holds, so the items may be listed in any order. -/
theorem Registers.ext (h : s.Registers items) (h' : s'.Registers items') (hperm : items'.Perm items)
    (hs : s.Sound) (hs' : s'.Sound) : s' = s := by
  refine hs'.ext hs fun a => Option.ext fun e => ?_
  rw [h a e, h' a e]
  simp only [hperm.mem_iff]

/-- Items for different slots are all accepted, and in any order they leave the same storage. -/
theorem addAll_perm {done : List Item} (h : s.Registers done) (hs : s.Sound)
    (hdistinct : ((done ++ items).filterMap Item.slot?).Nodup) (hperm : items'.Perm items) :
    s.addAll items = (.ok (), (s.addAll items).2) ∧ s.addAll items' = s.addAll items := by
  have hperm' : (done ++ items').Perm (done ++ items) := hperm.append_left done
  obtain ⟨hok, hregisters⟩ := h.addAll hdistinct
  obtain ⟨hok', hregisters'⟩ := h.addAll ((hperm'.filterMap _).nodup_iff.2 hdistinct)
  have hsame := hregisters.ext hregisters' hperm' (hs.addAll items) (hs.addAll items')
  exact ⟨Prod.ext hok rfl, Prod.ext (hok'.trans hok.symm) hsame⟩

/-- If several items are accepted, so are the first of them. -/
theorem ok_of_addAll_append {more : List Item} (h : (s.addAll (items ++ more)).1 = .ok ()) :
    (s.addAll items).1 = .ok () := by
  induction items generalizing s with
  | nil => rfl
  | cons item items ih =>
    rw [List.cons_append, addAll] at h
    rw [addAll]
    split
    · next s' hadd =>
      rw [hadd] at h
      exact ih h
    · next e hadd =>
      rw [hadd] at h
      cases h

end Storage

/-! ## Registrations -/

namespace Client

variable {σ : Type} (client : Client σ) {w : World σ}

/-- What a registration returns and leaves; it calls nothing. -/
theorem perform_register (items : List Item) (w : World σ) :
    client.perform w (.register items) = (⟨.register items, w.container, [],
        (w.container.registering items).1, (w.container.registering items).2⟩,
      { w with container := (w.container.registering items).2 }) := by
  simp only [perform, Operation.register_outcome]
  rfl

/-- Items that are all accepted may be registered in any portions. -/
theorem play_registers {parts : List (List Item)} (hrunning : w.container.running = false)
    (hok : (w.container.storage.addAll parts.flatten).1 = .ok ()) :
    (∀ turn ∈ client.play w (parts.map .register), turn.result = .ok none ∧ turn.calls = []) ∧
      client.playOut w (parts.map .register) = { w with container := { w.container with
        storage := (w.container.storage.addAll parts.flatten).2 } } := by
  induction parts generalizing w with
  | nil => exact ⟨fun _ hmem => absurd hmem List.not_mem_nil, rfl⟩
  | cons items parts ih =>
    have hfirst := Storage.ok_of_addAll_append hok
    have hstopped := Container.registering_stopped hrunning items
    rw [List.flatten_cons, Storage.addAll_append _ hfirst] at hok ⊢
    have hworld : (client.perform w (.register items)).2 = { w with container := { w.container with
        storage := (w.container.storage.addAll items).2 } } := by
      rw [perform_register, hstopped]
    obtain ⟨hturns, hout⟩ := ih (w := { w with container := { w.container with
        storage := (w.container.storage.addAll items).2 } }) hrunning hok
    rw [List.map_cons, play, hworld]
    constructor
    · intro turn hturn
      rcases List.mem_cons.1 hturn with rfl | hturn
      · rw [perform_register, hstopped, hfirst]
        exact ⟨rfl, rfl⟩
      · exact hturns turn hturn
    · rw [playOut, List.foldl_cons, hworld]
      exact hout

/-- **Registrations rearrange.** If items are to be registered in different slots, and in none that
the context or the token of the container takes up, then in any order and in any portions they are
all accepted without a call, and they leave the same world: the same storage, and so the same
descriptors, graph, and order or cycle. Whatever is done later takes the same turns. Nor does the
graph of a storage, at any time, depend on the order in which its entries are listed. -/
theorem registrations_rearrange (config : ContainerConfig) (context : Context) (token : Token)
    (nextIdentity : Identity) (host : σ) {parts parts' : List (List Item)}
    (hslots : ((Container.seeds context token ++ parts.flatten).filterMap Item.slot?).Nodup)
    (hperm : parts'.flatten.Perm parts.flatten) :
    let w := World.fresh config context token nextIdentity host
    let ops := parts.map Operation.register
    let ops' := parts'.map Operation.register
    (∀ turn ∈ client.play w ops ++ client.play w ops', turn.result = .ok none ∧ turn.calls = []) ∧
      client.playOut w ops' = client.playOut w ops ∧
      (∀ later, (client.play w (ops' ++ later)).drop ops'.length =
        (client.play w (ops ++ later)).drop ops.length) ∧
      ∀ (s : Storage) (entries : List Entry), entries.Perm s.entries →
        Graph.ofEntries entries = s.graph := by
  intro w ops ops'
  have hseeds : w.container.storage.Registers (Container.seeds context token) := by
    have hnodup : (([] ++ Container.seeds context token).filterMap Item.slot?).Nodup :=
      List.Nodup.of_append_left (List.filterMap_append ▸ hslots)
    have h := (Storage.registers_empty.addAll hnodup).2
    rwa [Container.storage_new config] at h
  have hsound := (Container.new_inOrder config context token).status.sound
  obtain ⟨hok, hsame⟩ := Storage.addAll_perm hseeds hsound hslots hperm
  obtain ⟨hturns, hout⟩ := client.play_registers (w := w) rfl (congrArg Prod.fst hok)
  obtain ⟨hturns', hout'⟩ := client.play_registers (w := w) rfl
    ((congrArg Prod.fst hsame).trans (congrArg Prod.fst hok))
  have hworld : client.playOut w ops' = client.playOut w ops := by
    rw [hout, hout', hsame]
  have hlater : ∀ (ops : List Operation) later, (client.play w (ops ++ later)).drop ops.length =
      client.play (client.playOut w ops) later := by
    intro ops later
    rw [play_append, ← length_play w ops, List.drop_left]
  refine ⟨fun turn hturn => ?_, hworld, fun later => ?_, fun s entries h => Graph.ofEntries_perm h⟩
  · exact (List.mem_append.1 hturn).elim (hturns turn) (hturns' turn)
  · rw [hlater, hlater, hworld]

/-- The samples are registered together, or one after the other from the last to the first. -/
theorem registrations_rearrange_samples :
    let parts := [Item.samples]
    let parts' := Item.samples.reverse.map fun item => [item]
    ((Container.seeds (.root 0) ⟨1⟩ ++ parts.flatten).filterMap Item.slot?).Nodup ∧
      parts'.flatten.Perm parts.flatten ∧
      (Client.steady ⟨.made 3, some ⟨.token, .made 3⟩⟩).playOut
          (.fresh default (.root 0) ⟨1⟩ 1 ()) (parts'.map .register) =
        (Client.steady ⟨.made 3, some ⟨.token, .made 3⟩⟩).playOut
          (.fresh default (.root 0) ⟨1⟩ 1 ()) (parts.map .register) := by
  have hslots : ((Container.seeds (.root 0) ⟨1⟩ ++ [Item.samples].flatten).filterMap
      Item.slot?).Nodup := by decide +kernel
  have hperm : (Item.samples.reverse.map fun item => [item]).flatten.Perm
      [Item.samples].flatten := by decide +kernel
  exact ⟨hslots, hperm, (registrations_rearrange (.steady ⟨.made 3, some ⟨.token, .made 3⟩⟩)
    default (.root 0) ⟨1⟩ 1 () hslots hperm).2.1⟩

end Client

end Wiring
