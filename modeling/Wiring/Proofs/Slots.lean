import Wiring.Storage

/-!
# Slots of a storage

What a storage answers after each change, and which storages occur. An entry `Entry.Fits` its slot
if its payload belongs there and its relation and service state agree with the payload;
`Storage.Sound` says so of every entry. A sound storage lists an entry exactly if it answers with it
(`Storage.Sound.mem_entries`), and every change made by a container keeps a storage sound.
-/

namespace Wiring

/-- A table whose keys do not repeat answers with its rows. -/
theorem Table.get?_eq_some_iff {κ ν : Type} [DecidableEq κ] {t : Table κ ν} (h : t.keys.Nodup)
    {key : κ} {value : ν} : t.get? key = some value ↔ (key, value) ∈ t.rows := by
  obtain ⟨rows⟩ := t
  simp only [get?, keys] at h ⊢
  induction rows with
  | nil => simp
  | cons row rest ih =>
    obtain ⟨hnot, hrest⟩ := List.nodup_cons.1 h
    by_cases heq : row.1 = key
    · subst heq
      have : (row.1, value) ∉ rest := fun hmem =>
        hnot (List.mem_map.2 ⟨_, hmem, rfl⟩)
      simp [this, Prod.ext_iff, eq_comm]
    · have hne : (key, value) ≠ row := fun hrow => heq (congrArg Prod.fst hrow).symm
      simpa [List.find?_cons, heq, hne] using ih hrest

namespace Entry

/-- The entry with its service waiting for the next start. -/
def rested (e : Entry) : Entry :=
  if e.service = .runningUp then { e with service := .pendingUp } else e

/-- The entry with one more plain value counted for its slot. -/
def shadow (e : Entry) : Entry := { e with shadowed := e.shadowed + 1 }

end Entry

namespace Storage

variable {s : Storage} {e : Entry} {a : Address}

/-! ## Answers -/

/-- The storage with an entry at its address, whatever was there. -/
def put (s : Storage) (e : Entry) : Storage := ⟨s.table.put e.address e⟩

/-- No resolved entry occupies a slot. -/
def Free (s : Storage) (a : Address) : Prop := ∀ e, s.get? a = some e → e.isResolved = false

theorem not_free (h : ¬ s.Free a) : ∃ e, s.get? a = some e ∧ e.isResolved = true := by
  obtain ⟨e, h⟩ := Classical.not_forall.1 h
  obtain ⟨hget, hres⟩ := Classical.not_imp.1 h
  exact ⟨e, hget, by simpa using hres⟩

/-- The slot of an unresolved entry is free. -/
theorem free_of_unresolved (hget : s.get? a = some e) (hres : e.isResolved = false) : s.Free a := by
  intro e' hget'
  obtain rfl := Option.some.inj (hget.symm.trans hget')
  exact hres

@[simp] theorem get?_empty (a : Address) : empty.get? a = none := rfl

theorem get?_put (s : Storage) (e : Entry) (a : Address) :
    (s.put e).get? a = if e.address = a then some e else s.get? a :=
  Table.get?_put _ _ _ _

theorem get?_markResolved (s : Storage) (a b : Address) : (s.markResolved a).get? b =
    if a = b then (s.get? b).map fun e => { e with relation := .resolvedValue } else s.get? b :=
  Table.get?_update _ _ _ _

theorem get?_setService (s : Storage) (a : Address) (state : ServiceState) (b : Address) :
    (s.setService a state).get? b =
      if a = b then (s.get? b).map fun e => { e with service := state } else s.get? b :=
  Table.get?_update _ _ _ _

theorem get?_resetRunning (s : Storage) (a : Address) :
    s.resetRunning.get? a = (s.get? a).map Entry.rested :=
  Table.get?_mapValues _ _ _

/-! ## Changes, case by case -/

/-- An entry is stored unless a resolved entry occupies its slot. -/
theorem insert_cases (s : Storage) (e : Entry) :
    (s.Free e.address ∧ s.insert e = .ok (s.put e)) ∨
      (¬ s.Free e.address ∧ s.insert e = .error (.alreadyInitiated e.address)) := by
  unfold insert
  split
  · next existing hget =>
    cases hres : existing.isResolved with
    | true =>
      refine .inr ⟨fun hfree => ?_, by simp⟩
      exact Bool.noConfusion (hres.symm.trans (hfree existing hget))
    | false => exact .inl ⟨free_of_unresolved hget hres, by simp [put]⟩
  · next hget => exact .inl ⟨fun e' hget' => by simp [hget] at hget', rfl⟩

/-- A registered value whose slot is `a` is stored there unless a resolved entry occupies the slot;
then it is counted. -/
theorem insertValue_cases (s : Storage) {c : Component} (hslot : c.type.slot? = some a) :
    (s.Free a ∧ s.insertValue c = s.put (.resolved a c)) ∨
      (¬ s.Free a ∧ s.insertValue c = ⟨s.table.update a Entry.shadow⟩) := by
  simp only [insertValue, hslot]
  split
  · next existing hget =>
    cases hres : existing.isResolved with
    | true =>
      refine .inr ⟨fun hfree => ?_, by simp; rfl⟩
      exact Bool.noConfusion (hres.symm.trans (hfree existing hget))
    | false => exact .inl ⟨free_of_unresolved hget hres, by simp [put, Entry.resolved]⟩
  · next hget => exact .inl ⟨fun e' hget' => by simp [hget] at hget', rfl⟩

theorem insertValue_of_unaddressable {c : Component} (hslot : c.type.slot? = none) :
    s.insertValue c = s := by
  simp only [insertValue, hslot]

end Storage

/-! ## Sound storages -/

/-- The entries that a slot can hold: a value of a type with that slot, resolved and a service or
not as the value is; a constructor of that address, uncounted until it is resolved; or a template
for a type with that slot, which is replaced when it is resolved. -/
inductive Entry.Fits (a : Address) : Entry → Prop
  | value (c : Component) (state : ServiceState) (n : Nat) : c.type.slot? = some a →
      (state = .notAService ↔ c.service? = none) → Fits a ⟨a, .value c, .resolvedValue, state, n⟩
  | constructor (c : Constructor) (relation : Relation) (n : Nat) : c.address = a →
      (relation = .newlyRegistered → n = 0) →
      Fits a ⟨a, .constructor c, relation, .notAService, n⟩
  | template (t : Template) : t.type.slot? = some a →
      Fits a ⟨a, .template t, .newlyRegistered, .notAService, 0⟩

namespace Entry.Fits

variable {a : Address} {e : Entry}

theorem address_eq (h : e.Fits a) : e.address = a := by
  cases h <;> rfl

theorem resolved {c : Component} (hslot : c.type.slot? = some a) : (Entry.resolved a c).Fits a := by
  refine .value c _ 0 hslot ?_
  cases c.service? <;> simp

theorem rested (h : e.Fits a) : e.rested.Fits a := by
  cases h with
  | value c state n hslot hstate =>
    cases state with
    | runningUp =>
      refine .value c .pendingUp n hslot ?_
      simpa using hstate
    | notAService => exact .value c .notAService n hslot hstate
    | pendingUp => exact .value c .pendingUp n hslot hstate
  | constructor c relation n haddr hn => exact .constructor c relation n haddr hn
  | template t hslot => exact .template t hslot

/-- Only resolved entries are counted. -/
theorem shadow (h : e.Fits a) (hres : e.isResolved = true) : e.shadow.Fits a := by
  cases h with
  | value c state n hslot hstate => exact .value c state (n + 1) hslot hstate
  | constructor c relation n haddr hn =>
    refine .constructor c relation (n + 1) haddr fun hnew => ?_
    simp [isResolved, hnew] at hres
  | template t hslot => simp [isResolved] at hres

/-- A service entry may be at any point of its life. -/
theorem setService (h : e.Fits a) (hservice : e.service? ≠ none) :
    Fits a { e with service := .runningUp } := by
  cases h with
  | value c state n hslot hstate => exact .value c .runningUp n hslot (by simpa [service?] using hservice)
  | constructor c relation n haddr hn => exact absurd rfl hservice
  | template t hslot => exact absurd rfl hservice

/-- A resolved entry delivers a component or is a constructor. -/
theorem component?_eq {c : Component} (h : e.Fits a) :
    e.component? = some c ↔ e.payload = .value c := by
  cases h <;> simp [component?]

/-- An unresolved constructor is as it was registered. -/
theorem eq_constructor {c : Constructor} (h : e.Fits a) (hres : e.isResolved = false)
    (hpayload : e.payload = .constructor c) :
    c.address = a ∧ e = .provider a (.constructor c) := by
  cases h with
  | value => cases hres
  | constructor c relation n haddr hn =>
    cases hpayload
    cases relation with
    | newlyRegistered => exact ⟨haddr, by rw [hn rfl]; rfl⟩
    | resolvedValue => cases hres
  | template => cases hpayload

/-- An unresolved template is as it was registered. -/
theorem eq_template {t : Template} (h : e.Fits a) (hres : e.isResolved = false)
    (hpayload : e.payload = .template t) :
    t.type.slot? = some a ∧ e = .provider a (.template t) := by
  cases h with
  | value => cases hres
  | constructor => cases hpayload
  | template t hslot =>
    cases hpayload
    exact ⟨hslot, rfl⟩

/-- An entry is no service exactly if it has none. -/
theorem notAService_iff (h : e.Fits a) : e.service = .notAService ↔ e.service? = none := by
  cases h with
  | value c state n hslot hstate => exact hstate
  | constructor => exact iff_of_true rfl rfl
  | template => exact iff_of_true rfl rfl

/-- An entry whose service waits or runs has a service. -/
theorem service?_ne_none (h : e.Fits a) (hservice : e.service ≠ .notAService) :
    e.service? ≠ none := fun hnone => hservice (h.notAService_iff.2 hnone)

/-- A value is resolved. -/
theorem payload_ne_value {c : Component} (h : e.Fits a) (hres : e.isResolved = false) :
    e.payload ≠ .value c := by
  rintro hpayload
  cases h with
  | value => cases hres
  | constructor => cases hpayload
  | template => cases hpayload

/-- No value is counted for an unresolved entry. -/
theorem shadowed_of_unresolved (h : e.Fits a) (hres : e.isResolved = false) : e.shadowed = 0 := by
  cases h with
  | value => cases hres
  | constructor c relation n haddr hn =>
    cases relation with
    | newlyRegistered => exact hn rfl
    | resolvedValue => cases hres
  | template => rfl

/-- An unresolved entry is no service. -/
theorem notAService (h : e.Fits a) (hres : e.isResolved = false) : e.service = .notAService := by
  cases h with
  | value => cases hres
  | constructor => rfl
  | template => rfl

end Entry.Fits

theorem Entry.resolved_ne_running (a : Address) (c : Component) :
    (Entry.resolved a c).service ≠ .runningUp := by
  unfold Entry.resolved
  cases c.service? <;> exact ServiceState.noConfusion

/-- An item that is added is dropped, stored in a free slot, or counted in one that is not free. -/
theorem Storage.add_cases {s s' : Storage} {item : Item} (hadd : s.add item = .ok s') : s' = s ∨
    (∃ e : Entry, e.Fits e.address ∧ e.service ≠ .runningUp ∧ s.Free e.address ∧ s' = s.put e) ∨
      ∃ a, ¬ s.Free a ∧ s' = ⟨s.table.update a Entry.shadow⟩ := by
  cases item with
  | value c =>
    cases hadd
    cases hslot : c.type.slot? with
    | none => exact .inl (insertValue_of_unaddressable hslot)
    | some a =>
      refine .inr ((insertValue_cases s hslot).imp (fun ⟨hfree, heq⟩ => ?_) fun h => ⟨a, h⟩)
      exact ⟨.resolved a c, .resolved hslot, Entry.resolved_ne_running a c, hfree, heq⟩
  | constructor c =>
    rcases insert_cases s (.provider c.address (.constructor c)) with ⟨hfree, heq⟩ | ⟨_, heq⟩
    · cases heq.symm.trans hadd
      refine .inr (.inl ⟨_, ?_, ServiceState.noConfusion, hfree, rfl⟩)
      exact .constructor c _ 0 rfl fun _ => rfl
    · cases heq.symm.trans hadd
  | template t =>
    simp only [Storage.add] at hadd
    split at hadd
    · cases hadd
      exact .inl rfl
    · next a hslot =>
      rcases insert_cases s (.provider a (.template t)) with ⟨hfree, heq⟩ | ⟨_, heq⟩
      · cases heq.symm.trans hadd
        exact .inr (.inl ⟨_, .template t hslot, ServiceState.noConfusion, hfree, rfl⟩)
      · cases heq.symm.trans hadd

/-- The slots are in ascending order, and every entry stands at its address. -/
structure Storage.Indexed (s : Storage) : Prop where
  ascending : s.table.keys.Pairwise (· < ·)
  addressed : ∀ ⦃a e⦄, s.get? a = some e → e.address = a

namespace Storage.Indexed

variable {s : Storage} {a : Address} {e : Entry}

theorem nodup_keys (h : s.Indexed) : s.table.keys.Nodup := h.ascending.imp fun {a b} hlt => by
  rintro rfl
  exact Std.Irrefl.irrefl (r := (· < ·)) a hlt

/-- Every row of the table has an entry at its address. -/
theorem address_row (h : s.Indexed) {row : Address × Entry} (hrow : row ∈ s.table.rows) :
    row.2.address = row.1 :=
  h.addressed ((Table.get?_eq_some_iff h.nodup_keys).2 hrow)

/-- The entries are listed in the order of their addresses. -/
theorem map_address_entries (h : s.Indexed) : s.entries.map Entry.address = s.table.keys := by
  rw [entries, Table.values, Table.keys, List.map_map]
  exact List.map_congr_left fun row hrow => h.address_row hrow

/-- The storage lists the entries that it answers with. -/
theorem mem_entries (h : s.Indexed) : e ∈ s.entries ↔ s.get? e.address = some e := by
  constructor
  · intro hmem
    obtain ⟨row, hrow, rfl⟩ := List.mem_map.1 hmem
    rw [h.address_row hrow]
    exact (Table.get?_eq_some_iff h.nodup_keys).2 hrow
  · intro hget
    exact List.mem_map.2 ⟨_, (Table.get?_eq_some_iff h.nodup_keys).1 hget, rfl⟩

end Storage.Indexed

/-- Every entry of the storage fits its slot, and the slots are in ascending order. -/
structure Storage.Sound (s : Storage) : Prop where
  ascending : s.table.keys.Pairwise (· < ·)
  fits : ∀ {a e}, s.get? a = some e → e.Fits a

namespace Storage.Sound

variable {s : Storage} {a : Address} {e : Entry}

theorem empty : Storage.empty.Sound := ⟨.nil, by simp⟩

theorem put (h : s.Sound) (hfits : e.Fits e.address) : (s.put e).Sound := by
  refine ⟨?_, fun {b e'} hget => ?_⟩
  · rw [Storage.put, Table.keys_put]
    exact pairwise_insertAscending _ h.ascending
  · rw [get?_put] at hget
    split at hget
    · next heq => cases hget; rwa [← heq]
    · exact h.fits hget

theorem resetRunning (h : s.Sound) : s.resetRunning.Sound := by
  refine ⟨by simpa [Storage.resetRunning] using h.ascending, fun {a e} hget => ?_⟩
  rw [get?_resetRunning] at hget
  obtain ⟨e', hget', rfl⟩ := Option.map_eq_some_iff.1 hget
  exact (h.fits hget').rested

/-- Changing one entry keeps a storage sound if the changed entry fits. -/
theorem update (h : s.Sound) {f : Entry → Entry} (hf : ∀ e, s.get? a = some e → (f e).Fits a) :
    Storage.Sound ⟨s.table.update a f⟩ := by
  refine ⟨by simpa using h.ascending, fun {b e} hget => ?_⟩
  have hget : (if a = b then (s.get? b).map f else s.get? b) = some e :=
    (Table.get?_update _ _ _ _).symm.trans hget
  split at hget
  · next heq =>
    subst heq
    obtain ⟨e', hget', rfl⟩ := Option.map_eq_some_iff.1 hget
    exact hf e' hget'
  · exact h.fits hget

theorem setRunning (h : s.Sound) (hget : s.get? a = some e) (hservice : e.service? ≠ none) :
    (s.setService a .runningUp).Sound := by
  refine h.update fun e' hget' => ?_
  obtain rfl := Option.some.inj (hget.symm.trans hget')
  exact (h.fits hget).setService hservice

theorem markResolved {c : Constructor} (h : s.Sound) (hget : s.get? a = some e)
    (hpayload : e.payload = .constructor c) : (s.markResolved a).Sound := by
  refine h.update fun e' hget' => ?_
  obtain rfl := Option.some.inj (hget.symm.trans hget')
  cases h.fits hget with
  | value => cases hpayload
  | constructor c relation n haddr hn => exact .constructor c _ n haddr (by simp)
  | template => cases hpayload

theorem shadow (h : s.Sound) (hfree : ¬ s.Free a) :
    Storage.Sound ⟨s.table.update a Entry.shadow⟩ := by
  refine h.update fun e hget => (h.fits hget).shadow ?_
  obtain ⟨e', hget', hres⟩ := not_free hfree
  obtain rfl := Option.some.inj (hget.symm.trans hget')
  exact hres

theorem add (h : s.Sound) {item : Item} {s' : Storage} (hadd : s.add item = .ok s') :
    s'.Sound := by
  rcases add_cases hadd with rfl | ⟨e, hfits, _, _, rfl⟩ | ⟨a, hfree, rfl⟩
  · exact h
  · exact h.put hfits
  · exact h.shadow hfree

theorem indexed (h : s.Sound) : s.Indexed := ⟨h.ascending, fun _ _ hget => (h.fits hget).address_eq⟩

/-- A sound storage lists the entries that it answers with. -/
theorem mem_entries (h : s.Sound) : e ∈ s.entries ↔ s.get? e.address = some e :=
  h.indexed.mem_entries

end Storage.Sound

/-! ## Storages at rest -/

namespace Storage

/-- Adding an item starts no service. -/
theorem running_of_add {s s' : Storage} {item : Item} {a : Address} {e : Entry}
    (hadd : s.add item = .ok s') (hget : s'.get? a = some e) (hrunning : e.service = .runningUp) :
    ∃ e', s.get? a = some e' ∧ e'.service = .runningUp := by
  rcases add_cases hadd with rfl | ⟨e', _, hidle, _, rfl⟩ | ⟨b, _, rfl⟩
  · exact ⟨e, hget, hrunning⟩
  · rw [get?_put] at hget
    split at hget
    · obtain rfl := Option.some.inj hget
      exact absurd hrunning hidle
    · exact ⟨e, hget, hrunning⟩
  · have hget : (if b = a then (s.get? a).map Entry.shadow else s.get? a) = some e :=
      (Table.get?_update _ _ _ _).symm.trans hget
    split at hget
    · obtain ⟨e', hget', rfl⟩ := Option.map_eq_some_iff.1 hget
      exact ⟨e', hget', hrunning⟩
    · exact ⟨e, hget, hrunning⟩

/-- No service runs. -/
def Resting (s : Storage) : Prop := ∀ ⦃a e⦄, s.get? a = some e → e.service ≠ .runningUp

namespace Resting

variable {s : Storage}

theorem empty : Storage.empty.Resting := fun _ _ hget => nomatch hget

theorem add (h : s.Resting) {item : Item} {s' : Storage} (hadd : s.add item = .ok s') :
    s'.Resting := fun a e hget hrunning => by
  obtain ⟨e', hget', hrunning'⟩ := running_of_add hadd hget hrunning
  exact h hget' hrunning'

end Resting

/-- After a stop no service runs. -/
theorem resting_resetRunning (s : Storage) : s.resetRunning.Resting := by
  intro a e hget hrunning
  rw [get?_resetRunning] at hget
  obtain ⟨e', _, rfl⟩ := Option.map_eq_some_iff.1 hget
  unfold Entry.rested at hrunning
  split at hrunning
  · cases hrunning
  · contradiction

end Storage

end Wiring
