import Wiring.Proofs.Requests

/-!
# What endures in a storage

A resolved entry is there for good: it keeps its address, its payload and with it the type name and
the hooks of its component. Only the state of its service may change, and the count of the values
that were registered for its slot (`Storage.Endures`), which never gets smaller (`Storage.Accrues`).
Every way in which a storage is changed keeps to this, also in a storage that is not sound.
-/

namespace Wiring

namespace Storage

/-- No entry of `s` is lost in `s'`, and those that are resolved in `s` are the same there, except
for the state of the service and the count of the values registered since. -/
structure Endures (s s' : Storage) : Prop where
  size_le : s.size ≤ s'.size
  present : ∀ ⦃a⦄, (s.get? a).isSome = true → (s'.get? a).isSome = true
  resolved : ∀ ⦃a e⦄, s.get? a = some e → e.isResolved = true →
    ∃ state shadowed, s'.get? a = some { e with service := state, shadowed := shadowed }

namespace Endures

variable {s s' s₁ s₂ s₃ : Storage} {a : Address}

theorem refl (s : Storage) : s.Endures s :=
  ⟨Nat.le_refl _, fun _ h => h, fun _ e hget _ => ⟨e.service, e.shadowed, hget⟩⟩

theorem trans (h₁ : s₁.Endures s₂) (h₂ : s₂.Endures s₃) : s₁.Endures s₃ := by
  refine ⟨Nat.le_trans h₁.size_le h₂.size_le, fun a h => h₂.present (h₁.present h), ?_⟩
  intro a e hget hres
  obtain ⟨state, shadowed, hget₂⟩ := h₁.resolved hget hres
  obtain ⟨state', shadowed', hget₃⟩ := h₂.resolved hget₂ hres
  exact ⟨state', shadowed', hget₃⟩

/-- What a slot holds it goes on holding. -/
theorem keeps (h : s.Endures s') : s.Keeps s' := by
  intro a c hc
  obtain ⟨e, hget, hcomponent⟩ := component?_eq_some.1 hc
  have hres : e.isResolved = true := by
    simp only [Entry.component?] at hcomponent
    split at hcomponent
    · next hrelation => simp [Entry.isResolved, hrelation]
    · cases hcomponent
  obtain ⟨state, shadowed, hget'⟩ := h.resolved hget hres
  exact component?_eq_some.2 ⟨_, hget', hcomponent⟩

/-- A slot that is occupied stays so. -/
theorem not_free (h : s.Endures s') (hfree : ¬ s.Free a) : ¬ s'.Free a := by
  obtain ⟨e, hget, hres⟩ := Storage.not_free hfree
  obtain ⟨state, shadowed, hget'⟩ := h.resolved hget hres
  intro hfree'
  have hres' := hfree' _ hget'
  exact Bool.noConfusion (hres.symm.trans hres')

/-! ## Changes -/

/-- An entry may be stored where none is resolved. -/
theorem put {e : Entry} (hfree : s.Free e.address) : s.Endures (s.put e) := by
  refine ⟨Table.size_le_put _ _ _, fun a hsome => ?_, fun a e' hget hres => ?_⟩
  · rw [get?_put]
    split
    · rfl
    · exact hsome
  · have hne : e.address ≠ a := by
      rintro rfl
      have := hfree e' hget
      simp [hres] at this
    exact ⟨e'.service, e'.shadowed, by rw [get?_put, if_neg hne, hget]⟩

/-- A change of one entry that leaves a resolved one what it is. -/
theorem update {f : Entry → Entry} (a : Address)
    (hf : ∀ e, e.isResolved = true →
      ∃ state shadowed, f e = { e with service := state, shadowed := shadowed }) :
    s.Endures ⟨s.table.update a f⟩ := by
  have hget? : ∀ b, (⟨s.table.update a f⟩ : Storage).get? b =
      if a = b then (s.get? b).map f else s.get? b := fun b => Table.get?_update _ _ _ _
  refine ⟨?_, fun b hsome => ?_, fun b e hget hres => ?_⟩
  · simp [size, Table.size, Table.update]
  · rw [hget?]
    split <;> simpa using hsome
  · rw [hget?, hget]
    split
    · obtain ⟨state, shadowed, heq⟩ := hf e hres
      exact ⟨state, shadowed, by rw [Option.map_some, heq]⟩
    · exact ⟨e.service, e.shadowed, rfl⟩

end Endures

/-- Every entry stands at its address. -/
def Addressed (s : Storage) : Prop := ∀ ⦃a e⦄, s.get? a = some e → e.address = a

/-- The storage endures, for no resolved slot fewer values are counted, the slots stay in ascending
order, and no entry comes to stand away from its address. -/
structure Accrues (s s' : Storage) : Prop where
  endures : s.Endures s'
  counts : ∀ ⦃a e e'⦄, s.get? a = some e → e.isResolved = true → s'.get? a = some e' →
    e.shadowed ≤ e'.shadowed
  ascending : s.table.keys.Pairwise (· < ·) → s'.table.keys.Pairwise (· < ·)
  addressed : s.Addressed → s'.Addressed

namespace Accrues

variable {s s' s₁ s₂ s₃ : Storage} {a : Address} {e : Entry}

theorem refl (s : Storage) : s.Accrues s := by
  refine ⟨.refl s, fun a e e' hget _ hget' => ?_, id, id⟩
  obtain rfl := Option.some.inj (hget.symm.trans hget')
  exact Nat.le_refl _

theorem trans (h₁ : s₁.Accrues s₂) (h₂ : s₂.Accrues s₃) : s₁.Accrues s₃ := by
  refine ⟨h₁.endures.trans h₂.endures, fun a e e' hget hres hget' => ?_,
    fun h => h₂.ascending (h₁.ascending h), fun h => h₂.addressed (h₁.addressed h)⟩
  obtain ⟨state, shadowed, hget₂⟩ := h₁.endures.resolved hget hres
  exact Nat.le_trans (h₁.counts hget hres hget₂) (h₂.counts hget₂ hres hget')

theorem indexed (h : s.Accrues s') (hs : s.Indexed) : s'.Indexed :=
  ⟨h.ascending hs.ascending, h.addressed hs.addressed⟩

/-- A resolved entry is the same later on, but for the state of its service and a count that may have
grown. -/
theorem exists_entry (h : s.Accrues s') (hget : s.get? a = some e) (hres : e.isResolved = true) :
    ∃ state shadowed, e.shadowed ≤ shadowed ∧
      s'.get? a = some { e with service := state, shadowed := shadowed } := by
  obtain ⟨state, shadowed, hget'⟩ := h.endures.resolved hget hres
  exact ⟨state, shadowed, h.counts hget hres hget', hget'⟩

/-! ## Changes -/

theorem put {e : Entry} (hfree : s.Free e.address) : s.Accrues (s.put e) := by
  refine ⟨.put hfree, fun a e₁ e₂ hget hres hget' => ?_, fun h => ?_, fun h a e' hget' => ?_⟩
  · have hne : e.address ≠ a := by
      rintro rfl
      exact Bool.noConfusion (hres.symm.trans (hfree e₁ hget))
    rw [get?_put, if_neg hne, hget] at hget'
    exact Nat.le_of_eq (congrArg Entry.shadowed (Option.some.inj hget'))
  · rw [Storage.put, Table.keys_put]
    exact pairwise_insertAscending _ h
  · rw [get?_put] at hget'
    split at hget'
    · next heq => exact Option.some.inj hget' ▸ heq
    · exact h hget'

/-- A change of one entry that leaves a resolved one what it is and does not lower its count. -/
theorem update {f : Entry → Entry} (a : Address) (haddr : ∀ e, (f e).address = e.address)
    (hf : ∀ e, e.isResolved = true → ∃ state shadowed, e.shadowed ≤ shadowed ∧
      f e = { e with service := state, shadowed := shadowed }) :
    s.Accrues ⟨s.table.update a f⟩ := by
  have hget? : ∀ b, (⟨s.table.update a f⟩ : Storage).get? b =
      if a = b then (s.get? b).map f else s.get? b := fun b => Table.get?_update _ _ _ _
  refine ⟨.update a fun e hres => ?_, fun b e e' hget hres hget' => ?_, fun h => by simpa using h,
    fun h b e' hget' => ?_⟩
  · obtain ⟨state, shadowed, _, heq⟩ := hf e hres
    exact ⟨state, shadowed, heq⟩
  · rw [hget?, hget] at hget'
    split at hget'
    · obtain ⟨state, shadowed, hle, heq⟩ := hf e hres
      cases heq.symm.trans (Option.some.inj hget')
      exact hle
    · exact Nat.le_of_eq (congrArg Entry.shadowed (Option.some.inj hget'))
  · rw [hget?] at hget'
    split at hget'
    · obtain ⟨e, hget, rfl⟩ := Option.map_eq_some_iff.1 hget'
      exact (haddr e).trans (h hget)
    · exact h hget'

theorem insert {e : Entry} (h : s.insert e = .ok s') : s.Accrues s' := by
  rcases insert_cases s e with ⟨hfree, heq⟩ | ⟨_, heq⟩
  · cases heq.symm.trans h
    exact .put hfree
  · cases heq.symm.trans h

theorem insertProduct {c : Component} (h : s.insertProduct c = .ok s') : s.Accrues s' := by
  simp only [Storage.insertProduct] at h
  split at h
  · cases h
    exact .refl s
  · exact .insert h

/-- Registration only stores where nothing is resolved, or counts. -/
theorem add {item : Item} (h : s.add item = .ok s') : s.Accrues s' := by
  rcases add_cases h with rfl | ⟨e, _, _, hfree, rfl⟩ | ⟨a, _, rfl⟩
  · exact .refl _
  · exact .put hfree
  · exact .update a (fun _ => rfl) fun e _ => ⟨e.service, e.shadowed + 1, Nat.le_succ _, rfl⟩

theorem markResolved (s : Storage) (a : Address) : s.Accrues (s.markResolved a) := by
  refine .update a (fun _ => rfl) fun e hres => ⟨e.service, e.shadowed, Nat.le_refl _, ?_⟩
  have hrelation : e.relation = .resolvedValue := by simpa [Entry.isResolved] using hres
  rw [← hrelation]

theorem setService (s : Storage) (a : Address) (state : ServiceState) :
    s.Accrues (s.setService a state) :=
  .update a (fun _ => rfl) fun e _ => ⟨state, e.shadowed, Nat.le_refl _, rfl⟩

theorem resetRunning (s : Storage) : s.Accrues s.resetRunning := by
  have hrested : ∀ a, s.resetRunning.get? a =
      (s.get? a).map fun e => { e with service := e.rested.service } := fun a => by
    rw [get?_resetRunning]
    congr 1
    funext e
    unfold Entry.rested
    split <;> rfl
  refine ⟨⟨?_, fun a hsome => ?_, fun a e hget _ => ⟨e.rested.service, e.shadowed, ?_⟩⟩,
    fun a e e' hget _ hget' => ?_, fun h => by simpa [Storage.resetRunning] using h,
    fun h a e' hget' => ?_⟩
  · simp [size, Table.size, Storage.resetRunning, Table.mapValues]
  · simpa [get?_resetRunning] using hsome
  · rw [hrested, hget]
    rfl
  · rw [hrested, hget] at hget'
    cases hget'
    exact Nat.le_refl _
  · rw [hrested] at hget'
    obtain ⟨e, hget, rfl⟩ := Option.map_eq_some_iff.1 hget'
    have haddr : e.address = a := h hget
    exact haddr

end Accrues

end Storage

end Wiring
