import Wiring.Proofs.Lifecycle
import Wiring.Proofs.Provenance

/-!
# Precedence of dependencies

A start calls the start hook of a service when the walk reaches its seat: the slot of its provider,
if that runs in this start, else its own slot. Everything that the provider requests is held by
then, and a service that is held has been started unless its own slot is still to come. The graph
puts the slots that it shows first (`Turn.Walks.mem_of_shown`); it does not show what a template
requested that was assembled in an earlier start. So the dependencies of each service are started
before it exactly if the order happens to put those first, too (`Client.start_ordered_iff`).
-/

namespace Wiring

/-- An element stands before another one in a list. -/
def Precedes {α : Type} (xs : List α) (x y : α) : Prop :=
  ∃ before after, xs = before ++ y :: after ∧ x ∈ before

/-- Where no element repeats, the place of the later one does not matter. -/
theorem Precedes.mem {α : Type} {xs before after : List α} {x y : α} (h : Precedes xs x y)
    (hnodup : xs.Nodup) (hsplit : xs = before ++ y :: after) : x ∈ before := by
  obtain ⟨before', after', hsplit', hmem⟩ := h
  have hnot : ∀ {before after}, xs = before ++ y :: after → y ∉ before := by
    rintro before after rfl hmem
    obtain ⟨_, _, hdisjoint⟩ := List.nodup_append.1 hnodup
    exact hdisjoint y hmem y List.mem_cons_self rfl
  have hnot₁ := hnot hsplit
  have hnot₂ := hnot hsplit'
  rw [hsplit] at hsplit'
  rcases List.append_eq_append_iff.1 hsplit' with ⟨rest, rfl, hrest⟩ | ⟨rest, rfl, hrest⟩
  · cases rest with
    | nil => simpa using hmem
    | cons z rest =>
      obtain rfl : y = z := (List.cons.inj hrest).1
      exact absurd (List.mem_append_right _ List.mem_cons_self) hnot₂
  · exact List.mem_append_left _ hmem

/-- A list in which an element stands before another one, read backwards. -/
theorem Precedes.reverse {α : Type} {xs : List α} {x y : α} (h : Precedes xs x y) :
    Precedes xs.reverse y x := by
  obtain ⟨before, after, rfl, hmem⟩ := h
  obtain ⟨first, middle, rfl⟩ := List.append_of_mem hmem
  refine ⟨after.reverse ++ y :: middle.reverse, first.reverse, by simp, by simp⟩

/-- In the order of a graph an address stands behind all from which a path leads to it. -/
theorem Graph.mem_of_path {g : Graph} {order before after : List Address} {a b : Address}
    (hg : g.Proper) (horder : g.order = .ok order)
    (hpath : Relation.TransGen (fun a b => g.Edge (.key a) (.key b)) a b)
    (hsplit : order = before ++ b :: after) : a ∈ before := by
  obtain ⟨_, _, hbehind⟩ := Graph.order_topological hg horder
  induction hpath generalizing before after with
  | single hedge => exact hbehind hsplit _ hedge
  | tail _ hedge ih =>
    have hmem := hbehind hsplit _ hedge
    obtain ⟨first, middle, rfl⟩ := List.append_of_mem hmem
    rw [List.append_assoc, List.cons_append] at hsplit
    exact List.mem_append_left _ (ih hsplit)

/-! ## Turns in order -/

/-- The service of the component that a slot holds. -/
def Storage.service? (s : Storage) (a : Address) : Option Service :=
  (s.component? a).bind Component.service?

namespace Turn

/-- Before the start hook of a service is called, the start hooks of all services on which it
depends, directly or through others, have been called in this turn with success. -/
def Ordered (past : List Turn) (turn : Turn) : Prop :=
  ∀ before a service result after, turn.calls = before ++ .up a.text service result :: after →
    ∀ b service', Relation.TransGen (Depends (past ++ [turn])) a b →
      turn.after.storage.service? b = some service' → .up b.text service' (.ok ()) ∈ before

/-- A dependency which the graph shows when the turn begins: its provider is no template, or it
provides the slot in this turn. -/
def Shown (past : List Turn) (turn : Turn) (a b : Address) : Prop :=
  ∃ item, Wiring.provider? (past ++ [turn]) a = some item ∧
    (∃ t ∈ item.requests, t.request.address = b) ∧
      ((∀ t, item ≠ .template t) ∨ turn.provider? a = some item)

/-- The slot at which the walk of a turn comes to the service in a slot. -/
def seat (turn : Turn) (a : Address) : Address :=
  match turn.provider? a with
  | some item => item.seat a
  | none => a

/-- The order puts a service before the seat of each started service that depends on it in a way
which the graph does not show. -/
def Placed (past : List Turn) (turn : Turn) : Prop :=
  ∀ order, turn.before.graph.order = .ok order → ∀ a service result,
    .up a.text service result ∈ turn.calls → ∀ b, (turn.after.storage.service? b).isSome →
      Relation.TransGen (Depends (past ++ [turn])) a b →
        ¬ Relation.TransGen (turn.Shown past) a b → Precedes order b (turn.seat a)

/-- A stop calls the stop hooks of what a turn started in one stretch, those of later turns before
them; in it, the stop hook of a service comes before those of the services on which it depends. -/
def Undone (past : List Turn) (turn stop : Turn) : Prop :=
  ∃ (downs : List HookResult) (later earlier : List Record),
    stop.calls = downs.map HookResult.down ∧
    downs.map Prod.fst = later ++ (turn.calls.filterMap Call.record?).reverse ++ earlier ∧
    ∀ a service result, .up a.text service result ∈ turn.calls → ∀ b service',
      Relation.TransGen (Depends (past ++ [turn])) a b →
        turn.after.storage.service? b = some service' →
          Precedes (turn.calls.filterMap Call.record?).reverse ⟨a.text, service⟩ ⟨b.text, service'⟩

/-! ## Starts that walk along an order -/

/-- The graph with which a turn begins leads from one address to another. -/
abbrev Leads (turn : Turn) : Address → Address → Prop :=
  Relation.TransGen fun a b => turn.before.graph.Edge (.key a) (.key b)

/-- A start after earlier turns that walked along the order of the graph. -/
structure Walks (past : List Turn) (turn : Turn) (order : List Address) : Prop where
  sound : turn.before.storage.Sound
  resting : turn.before.storage.Resting
  traced : Traced past turn.before.storage
  computed : turn.before.graph.order = .ok order
  walk : ∃ r, SettlesAll order ⟨turn.before.storage, []⟩ r ⟨turn.after.storage, turn.calls⟩

namespace Walks

variable {past : List Turn} {turn : Turn} {order : List Address} {a b : Address} {item : Item}

theorem progress (h : turn.Walks past order) :
    Progress turn.before.storage ⟨turn.after.storage, turn.calls⟩ := by
  obtain ⟨_, hwalk⟩ := h.walk
  exact hwalk.progress (.start h.sound h.resting)

theorem keeps (h : turn.Walks past order) : turn.before.storage.Keeps turn.after.storage :=
  h.progress.keeps

/-- A provider is known from earlier turns, and then its slot is not provided in this one; or it is
not, and the slot is provided in this turn. -/
theorem provider_cases (h : turn.Walks past order)
    (hprovider : Wiring.provider? (past ++ [turn]) a = some item) :
    (turn.before.storage.Remembers a item ∧ turn.provider? a = none) ∨
      turn.provider? a = some item := by
  rw [provider?_concat, Option.or_eq_some_iff] at hprovider
  rcases hprovider with hprovider | ⟨_, hprovider⟩
  · have hremembers := h.traced hprovider
    exact .inl ⟨hremembers, Scene.provider?_of_held hremembers.held⟩
  · exact .inr hprovider

theorem seat_of_held (hheld : turn.before.storage.Held a) : turn.seat a = a := by
  rw [seat, provider?, Scene.provider?_of_held hheld]

theorem seat_of_provider (hprovider : turn.provider? a = some item) :
    turn.seat a = item.seat a := by
  rw [seat, hprovider]

/-- What provides a slot in the turn stands at its seat when the turn begins. -/
theorem get?_seat (h : turn.Walks past order) (hprovider : turn.provider? a = some item) :
    turn.before.storage.get? (item.seat a) = some (item.entry (item.seat a)) ∧
      ∃ t, (a, t) ∈ item.provisions := by
  obtain ⟨_, _, hfind⟩ := Scene.provider?_eq_some.1 hprovider
  obtain ⟨call, hmem, hgiver⟩ := List.exists_of_findSome?_eq_some hfind
  exact ⟨(h.progress.of_asked hmem hgiver).1, (Call.giver?_eq_some.1 hgiver).2⟩

/-- The seat of a slot is the slot itself or leads to it. -/
theorem leads_of_seat (h : turn.Walks past order) (a : Address) :
    turn.seat a = a ∨ turn.Leads (turn.seat a) a := by
  cases hprovider : turn.provider? a with
  | none =>
    left
    rw [seat, hprovider]
  | some item =>
    obtain ⟨hget, t, hprovides⟩ := h.get?_seat hprovider
    rw [seat_of_provider hprovider]
    cases item with
    | value => exact .inl rfl
    | template => exact .inl rfl
    | constructor c =>
      obtain ⟨ht, hslot⟩ := Item.mem_provisions.1 hprovides
      refine .inr (.single (h.sound.edge_graph.2 (.inr ⟨_, hget, t, ht, ?_⟩)))
      exact address_of_slot? hslot

/-- A dependency that the graph shows leads to the seat of what depends on it. -/
theorem leads_of_shown (h : turn.Walks past order) (hshown : turn.Shown past a b) :
    turn.Leads b (turn.seat a) := by
  obtain ⟨item, hprovider, ⟨t, ht, rfl⟩, hitem⟩ := hshown
  rcases h.provider_cases hprovider with ⟨hremembers, hnone⟩ | hnow
  · obtain ⟨c, rfl⟩ : ∃ c, item = .constructor c := by
      have hne := hitem.resolve_right fun hsome => nomatch hnone.symm.trans hsome
      cases item with
      | value => cases ht
      | constructor c => exact ⟨c, rfl⟩
      | template k => exact absurd rfl (hne k)
    obtain ⟨n, hget⟩ := hremembers.ran c rfl
    obtain ⟨t', hprovides⟩ := hremembers.provides
    obtain ⟨ht', hslot⟩ := Item.mem_provisions.1 hprovides
    rw [seat_of_held hremembers.held]
    have hbefore : turn.before.graph.Edge (.key t.request.address) (.key c.address) :=
      h.sound.edge_graph.2 (.inl ⟨_, hget, t, ht, rfl⟩)
    have hbehind : turn.before.graph.Edge (.key c.address) (.key a) :=
      h.sound.edge_graph.2 (.inr ⟨_, hget, t', ht', address_of_slot? hslot⟩)
    exact .tail (.single hbefore) hbehind
  · obtain ⟨hget, _⟩ := h.get?_seat hnow
    rw [seat_of_provider hnow]
    refine .single (h.sound.edge_graph.2 (.inl ⟨_, hget, t, ?_, rfl⟩))
    exact Item.mem_requirements_entry ht

theorem leads_of_path (h : turn.Walks past order)
    (hpath : Relation.TransGen (turn.Shown past) a b) : turn.Leads b (turn.seat a) := by
  induction hpath with
  | single hshown => exact h.leads_of_shown hshown
  | @tail b c _ hshown ih =>
    have hseat := h.leads_of_shown hshown
    rcases h.leads_of_seat b with heq | hleads
    · rw [heq] at hseat
      exact hseat.trans ih
    · exact (hseat.trans hleads).trans ih

/-- What the graph shows precedes the seat of what depends on it. -/
theorem mem_of_shown (h : turn.Walks past order) {passed rest : List Address}
    (hpath : Relation.TransGen (turn.Shown past) a b)
    (hsplit : order = passed ++ turn.seat a :: rest) : b ∈ passed :=
  Graph.mem_of_path (Storage.graph_proper _) h.computed (h.leads_of_path hpath) hsplit

/-- Whatever leads to a slot that is not held when the turn begins is shown by the graph. -/
theorem shown_of_not_held (h : turn.Walks past order)
    (hpath : Relation.TransGen (Depends (past ++ [turn])) a b)
    (hnot : ¬ turn.before.storage.Held b) : Relation.TransGen (turn.Shown past) a b := by
  have hstep : ∀ {a b}, Depends (past ++ [turn]) a b → ¬ turn.before.storage.Held b →
      turn.Shown past a b ∧ ¬ turn.before.storage.Held a := by
    rintro a b ⟨item, hprovider, t, ht, rfl⟩ hnot
    rcases h.provider_cases hprovider with ⟨hremembers, _⟩ | hnow
    · exact absurd (hremembers.requests t ht) hnot
    · exact ⟨⟨item, hprovider, ⟨t, ht, rfl⟩, .inr hnow⟩, (Scene.provider?_eq_some.1 hnow).1⟩
  induction hpath with
  | single hdepends => exact .single (hstep hdepends hnot).1
  | tail _ hdepends ih =>
    obtain ⟨hshown, hnot'⟩ := hstep hdepends hnot
    exact (ih hnot').tail hshown

/-- What the provider of a held slot requests is held as well. -/
theorem held_of_depends (h : turn.Walks past order) {s : Scene}
    (hp : Progress turn.before.storage s) (hcalls : s.calls <+: turn.calls)
    (hheld : s.storage.Held a) (hdepends : Depends (past ++ [turn]) a b) : s.storage.Held b := by
  obtain ⟨item, hprovider, t, ht, rfl⟩ := hdepends
  rcases h.provider_cases hprovider with ⟨hremembers, _⟩ | hnow
  · exact hp.keeps.held (hremembers.requests t ht)
  · obtain ⟨call, hmem, hgiver⟩ := hp.provider_mem hheld hcalls hnow
    exact (hp.of_asked hmem hgiver).2.1 t ht

end Walks

/-- The moment at which a turn calls the start hook of a service after other calls: a scene in the
walk, before the step in which this happens. -/
structure Moment (past : List Turn) (turn : Turn) (a : Address) (before : List Call)
    (passed : List Address) (s : Scene) : Prop where
  paced : Paced turn.before.storage passed s
  made : s.calls <+: turn.calls
  earlier : s.calls <+: before
  keeps : s.storage.Keeps turn.after.storage
  /-- What the service depends on is held. -/
  held : ∀ b, Depends (past ++ [turn]) a b → s.storage.Held b
  /-- In the step itself, no service is started before it that is held already. -/
  started : ∀ b service, s.storage.Held b → .up b.text service (.ok ()) ∈ before →
    .up b.text service (.ok ()) ∈ s.calls

namespace Walks

variable {past : List Turn} {turn : Turn} {order : List Address} {a b : Address} {item : Item}
  {before after : List Call} {service : Service} {result : Except Fault Unit}

/-- A start hook is called when the walk has kept pace up to the seat of its service. -/
theorem exists_moment (h : turn.Walks past order)
    (hcalls : turn.calls = before ++ .up a.text service result :: after) :
    ∃ passed rest s, order = passed ++ turn.seat a :: rest ∧ Moment past turn a before passed s := by
  obtain ⟨_, hwalk⟩ := h.walk
  obtain ⟨passed, x, rest, e, s₁, r₁, s₂, hsplit, hp, hget, hsettles, hkeeps, hmade, hearlier, hnow,
    _⟩ := hwalk.exists_step (.start h.sound h.resting) hcalls List.nil_prefix
  rw [List.nil_append] at hp
  have hup : .up a.text service result ∈ s₂.calls :=
    hnow.subset (List.mem_append_right _ (List.mem_singleton.2 rfl))
  have hnew : .up a.text service result ∉ s₁.calls := by
    intro hmem
    cases result with
    | error => cases hp.succeeded _ hmem
    | ok _ => exact (hsettles.progress hp.progress hget).up_once hnow (hearlier.subset hmem)
  have hmade₁ : s₁.calls <+: turn.calls := hsettles.grows.calls_prefix.trans hmade
  have hkeeps₁ : s₁.storage.Keeps turn.after.storage := hsettles.keeps.trans hkeeps
  have hs := hp.progress.sound
  rcases hsettles.up_cases hs hget hup hnew with
    ⟨rfl, hres, hpending, call, hone⟩ |
      ⟨item, call, more, rfl, rfl, hgiver, hcalls₂, hfree, hheld, hrequests⟩
  · obtain ⟨hget₀, _⟩ := hp.pending hget hpending
    have hheld : turn.before.storage.Held a := h.sound.held_of_service hget₀ (by simp [hpending])
    refine ⟨passed, rest, s₁, by rwa [seat_of_held hheld], hp, hmade₁, hearlier, hkeeps₁,
      fun b hdepends => ?_, fun b service' _ hmem => ?_⟩
    · exact h.held_of_depends hp.progress hmade₁ (hp.progress.keeps.held hheld) hdepends
    · -- The step makes a single call, so all calls before this one were made before the step.
      have hlength := hnow.length_le
      rw [hone, List.length_append, List.length_append, List.length_singleton,
        List.length_singleton] at hlength
      rwa [hearlier.eq_of_length_le (Nat.le_of_succ_le_succ hlength)]
  · have hnot : ¬ turn.before.storage.Held a := fun hheld₀ =>
      hheld₀.not_free (hp.progress.free hfree)
    have hnow' : turn.provider? a = some item := by
      obtain ⟨later, hlater⟩ := hmade
      rw [hcalls₂, List.append_assoc, List.cons_append] at hlater
      exact hp.provider?_of_free hgiver hlater.symm hfree (hkeeps.held hheld)
    refine ⟨passed, rest, s₁, by rwa [seat_of_provider hnow'], hp, hmade₁, hearlier, hkeeps₁,
      fun b hdepends => ?_, fun b service' hheld' hmem => ?_⟩
    · obtain ⟨item', hprovider, t, ht, rfl⟩ := hdepends
      rcases h.provider_cases hprovider with ⟨hremembers, _⟩ | hnow''
      · exact absurd hremembers.held hnot
      · obtain rfl := Option.some.inj (hnow'.symm.trans hnow'')
        exact hrequests t ht
    · refine Classical.byContradiction fun hlate => ?_
      have hmem₂ := hnow.subset (List.mem_append_left _ hmem)
      rcases hsettles.up_cases hs hget hmem₂ hlate with ⟨_, hres, _⟩ | ⟨_, _, _, _, _, _, _, hfree', _⟩
      · exact Bool.noConfusion ((Call.isResolved_of_giver hgiver).symm.trans hres)
      · exact hheld'.not_free hfree'

/-- A service that is held at a moment has been started, unless its slot is still to come. -/
theorem up_mem {passed : List Address} {s : Scene} (hm : Moment past turn a before passed s)
    (h : turn.Walks past order) (hheld : s.storage.Held b)
    (hservice : turn.after.storage.service? b = some service)
    (hpassed : turn.before.storage.Held b → b ∈ passed) :
    .up b.text service (.ok ()) ∈ s.calls := by
  obtain ⟨c, hc⟩ := Option.isSome_iff_exists.1 hheld
  rw [Storage.service?, hm.keeps hc] at hservice
  have hstarted := hm.paced.progress.started hc hservice fun e hget hpending => by
    obtain ⟨hget₀, hnot⟩ := hm.paced.pending hget hpending
    exact hnot (hpassed (h.sound.held_of_service hget₀ (by simp [hpending])))
  have hmem : .up b.text service (.ok ()) ∈ s.calls.filter (Call.isStartOf b) := by
    rw [hstarted]
    exact List.mem_singleton.2 rfl
  exact (List.mem_filter.1 hmem).1

/-- All that a service depends on is held at the moment of its start. -/
theorem held_of_path {passed : List Address} {s : Scene} (hm : Moment past turn a before passed s)
    (h : turn.Walks past order) (hpath : Relation.TransGen (Depends (past ++ [turn])) a b) :
    s.storage.Held b := by
  induction hpath with
  | single hdepends => exact hm.held _ hdepends
  | tail _ hdepends ih => exact h.held_of_depends hm.paced.progress hm.made ih hdepends

/-- A start that walks along an order is ordered exactly if the order puts first what the graph does
not show. -/
theorem ordered_iff (h : turn.Walks past order) : turn.Ordered past ↔ turn.Placed past := by
  constructor
  · intro hordered order' horder a service result hup b hservice hpath hnot
    obtain rfl : order = order' := Except.ok.inj (h.computed.symm.trans horder)
    obtain ⟨before, after, hcalls⟩ := List.append_of_mem hup
    obtain ⟨passed, rest, s, hsplit, hm⟩ := h.exists_moment hcalls
    obtain ⟨service', hservice⟩ := Option.isSome_iff_exists.1 hservice
    have hmem := hordered before a service result after hcalls b service' hpath hservice
    refine ⟨passed, rest, hsplit, ?_⟩
    refine hm.paced.passed (hm.started b service' (held_of_path hm h hpath) hmem) ?_
    -- A slot that was free when the turn began is provided in it, so the graph shows the path.
    intro hfree
    exact hnot (h.shown_of_not_held hpath fun hheld => hheld.not_free hfree)
  · intro hplaced before a service result after hcalls b service' hpath hservice
    obtain ⟨passed, rest, s, hsplit, hm⟩ := h.exists_moment hcalls
    refine hm.earlier.subset (up_mem hm h (held_of_path hm h hpath) hservice fun _ => ?_)
    rcases Classical.em (Relation.TransGen (turn.Shown past) a b) with hshown | hnot
    · exact h.mem_of_shown hshown hsplit
    · have hmem : .up a.text service result ∈ turn.calls := by
        rw [hcalls]
        exact List.mem_append_right _ List.mem_cons_self
      have hprecedes := hplaced order h.computed a service result hmem b
        (Option.isSome_iff_exists.2 ⟨service', hservice⟩) hpath hnot
      obtain ⟨hnodup, _⟩ := Graph.order_topological (Storage.graph_proper _) h.computed
      exact hprecedes.mem hnodup hsplit

end Walks

/-- A start is ordered exactly if its order puts first what the graph does not show. -/
theorem ordered_iff {past : List Turn} {turn : Turn} (ho : turn.before.InOrder)
    (htraced : Traced past turn.before.storage)
    (hstep : Step turn.before.status .start turn.calls turn.result turn.after.status) :
    turn.Ordered past ↔ turn.Placed past := by
  rcases hstep.walk_of_start with ⟨order, r, hoff, horder, hwalk⟩ | hnone
  · have h : turn.Walks past order :=
      ⟨ho.status.sound, ho.status.resting_of_off hoff, htraced, horder, r, hwalk⟩
    exact h.ordered_iff
  · refine iff_of_true ?_ ?_
    · intro before a service result after hcalls
      rw [hnone] at hcalls
      exact absurd hcalls (List.append_ne_nil_of_right_ne_nil before (List.cons_ne_nil _ _)).symm
    · intro order _ a service result hup
      rw [hnone] at hup
      cases hup

/-- The graph shows everything if no template was assembled in an earlier turn. -/
theorem placed_of_constructors {past : List Turn} (turn : Turn)
    (h : ∀ t, .template t ∉ (past.flatMap Turn.calls).filterMap Call.asked?) : turn.Placed past := by
  have hshown : ∀ {a b}, Depends (past ++ [turn]) a b → turn.Shown past a b := by
    rintro a b ⟨item, hprovider, hrequests⟩
    refine ⟨item, hprovider, hrequests, ?_⟩
    rw [provider?_concat, Option.or_eq_some_iff] at hprovider
    rcases hprovider with hprovider | ⟨_, hprovider⟩
    · obtain ⟨earlier, hearlier, hprovides⟩ := List.exists_of_findSome?_eq_some hprovider
      obtain ⟨_, _, hfind⟩ := Scene.provider?_eq_some.1 hprovides
      obtain ⟨call, hmem, hgiver⟩ := List.exists_of_findSome?_eq_some hfind
      left
      rintro t rfl
      exact h t (List.mem_filterMap.2 ⟨call, List.mem_flatMap.2 ⟨earlier, hearlier, hmem⟩,
        (Call.giver?_eq_some.1 hgiver).1⟩)
    · exact .inr hprovider
  intro order _ a service result _ b hservice hpath hnot
  refine absurd ?_ hnot
  clear hnot hservice
  induction hpath with
  | single hdepends => exact .single (hshown hdepends)
  | tail _ hdepends ih => exact ih.tail (hshown hdepends)

/-- What an ordered turn started is stopped in the opposite order. -/
theorem Ordered.undone {past : List Turn} {turn stop : Turn} (h : turn.Ordered past)
    {downs : List HookResult} {later earlier : List Record}
    (hdowns : stop.calls = downs.map HookResult.down)
    (hrecords : downs.map Prod.fst =
      later ++ (turn.calls.filterMap Call.record?).reverse ++ earlier) : turn.Undone past stop := by
  refine ⟨downs, later, earlier, hdowns, hrecords, ?_⟩
  intro a service result hup b service' hpath hservice
  obtain ⟨before, after, hcalls⟩ := List.append_of_mem hup
  have hmem := h before a service result after hcalls b service' hpath hservice
  refine Precedes.reverse ⟨before.filterMap Call.record?, after.filterMap Call.record?, ?_, ?_⟩
  · rw [hcalls, List.filterMap_append]
    rfl
  · exact List.mem_filterMap.2 ⟨_, hmem, rfl⟩

end Turn

/-- A start adds the records of the start hooks that it calls. -/
theorem Step.live_of_start {st st' : Status} {made : List Call}
    {result : Except Error (Option Object)} (h : Step st .start made result st') :
    st'.live = st.live ++ made.filterMap Call.record? := by
  cases h with
  | startFailed => rfl
  | started => rfl
  | _ => simp

variable {σ : Type}

/-- After any operations a start is ordered exactly if its order puts first what its graph does not
show, and then the next stop stops what it started in the opposite order. -/
theorem Client.start_ordered_iff (client : Client σ) (config : ContainerConfig) (context : Context)
    (token : Token) (nextIdentity : Identity) (host : σ) (ops active : List Operation)
    (hactive : .stop ∉ active) :
    let w₀ := World.fresh config context token nextIdentity host
    let past := client.play w₀ ops
    let turn := (client.perform (client.playOut w₀ ops) .start).1
    let w₁ := (client.perform (client.playOut w₀ ops) .start).2
    let stop := (client.perform (client.playOut w₁ active) .stop).1
    (turn.Ordered past ↔ turn.Placed past) ∧ (turn.Ordered past → turn.Undone past stop) := by
  intro w₀ past turn w₁ stop
  have hnew : w₀.container.InOrder := Container.new_inOrder config context token
  have ho : (client.playOut w₀ ops).container.InOrder := Client.playOut_inOrder hnew ops
  have htraced : Traced past (client.playOut w₀ ops).container.storage :=
    Traced.run (Traced.nil w₀.container.storage) hnew
  obtain ⟨hstart, hafter, ho₁⟩ := client.perform_step .start ho
  have hlive := hstart.live_of_start
  rw [← hafter] at ho₁ hlive
  refine ⟨Turn.ordered_iff ho htraced hstart, fun hordered => ?_⟩
  obtain ⟨_, ups, _, hlive'⟩ := Client.play_active client ho₁ hactive
  have ho₂ : (client.playOut w₁ active).container.InOrder := Client.playOut_inOrder ho₁ active
  obtain ⟨hstop, _, _⟩ := client.perform_step .stop ho₂
  obtain ⟨_, _, downs, hdowns, hrecords, _⟩ := hstop.exists_downs ho₂.status
  have hend : (client.playOut w₁ active).container.status.live =
      (client.playOut w₀ ops).container.status.live ++ turn.calls.filterMap Call.record? ++
        ups.map Prod.fst := by
    rw [← hlive]
    exact hlive'
  rw [hend, List.reverse_append, List.reverse_append, ← List.append_assoc] at hrecords
  exact hordered.undone hdowns hrecords

/-- A program that never fails, and whose products are services. -/
def Client.serving : Client Unit := .steady ⟨.made 1, some ⟨.plain, .made 1⟩⟩

/-- The turns of a new container until its first stop, after items were registered. -/
def Turn.firstRun (items : List Item) : List Turn :=
  Client.serving.play (.fresh default (.root 0) ⟨1⟩ 1 ()) [.register items, .start, .stop]

/-- The start after that. -/
def Turn.secondStart (items : List Item) : Turn :=
  (Client.serving.perform (Client.serving.playOut (.fresh default (.root 0) ⟨1⟩ 1 ())
    [.register items, .start, .stop]) .start).1

/-- The stop after that, and after a start that is refused. -/
def Turn.secondStop (items : List Item) : Turn :=
  (Client.serving.perform (Client.serving.playOut (Client.serving.perform (Client.serving.playOut
    (.fresh default (.root 0) ⟨1⟩ 1 ()) [.register items, .start, .stop]) .start).2 [.start])
      .stop).1

/-- A service, and a constructor of another one that needs it and whose address comes first. -/
def Item.upright : List Item :=
  let pool := ComponentType.ofName "app::Pool"
  [.value ⟨pool, .made 0, some ⟨.plain, .made 0⟩⟩,
    .constructor ⟨0, ⟨[pool], [.ofName "app::Job"], 0⟩⟩]

theorem Client.start_ordered_upright :
    (Turn.secondStart Item.upright).calls.filterMap Call.record? =
        [⟨"app.Pool", .plain, .made 0⟩, ⟨"app.Job", .plain, .made 1⟩] ∧
      (Turn.secondStart Item.upright).Ordered (Turn.firstRun Item.upright) ∧
      (Turn.secondStart Item.upright).Undone (Turn.firstRun Item.upright)
        (Turn.secondStop Item.upright) := by
  have hasked : ((Turn.firstRun Item.upright).flatMap Turn.calls).filterMap Call.asked? =
      [.constructor ⟨0, ⟨[.ofName "app::Pool"], [.ofName "app::Job"], 0⟩⟩] := by decide +kernel
  have hplaced : (Turn.secondStart Item.upright).Placed (Turn.firstRun Item.upright) := by
    refine Turn.placed_of_constructors _ fun t => ?_
    rw [hasked, List.mem_singleton]
    exact Item.noConfusion
  obtain ⟨hiff, hundone⟩ := Client.start_ordered_iff .serving default (.root 0) ⟨1⟩ 1 ()
    [.register Item.upright, .start, .stop] [.start] (by simp)
  exact ⟨by decide +kernel, hiff.2 hplaced, hundone (hiff.2 hplaced)⟩

/-- A service, and a template that needs it and whose address comes first. -/
def Item.leaning : List Item :=
  let pool := ComponentType.ofName "app::Pool"
  [.value ⟨pool, .made 0, some ⟨.plain, .made 0⟩⟩,
    .template ⟨.ofName "app::Job", [⟨"pool", pool⟩], 0⟩]

/-- The second start forgets what the template needed. -/
theorem Client.start_not_ordered_leaning :
    ¬ (Turn.secondStart Item.leaning).Ordered (Turn.firstRun Item.leaning) := by
  have hprovider : provider? (Turn.firstRun Item.leaning ++ [Turn.secondStart Item.leaning])
      ⟨"app.Job"⟩ = some (.template ⟨.ofName "app::Job", [⟨"pool", .ofName "app::Pool"⟩], 0⟩) := by
    decide +kernel
  have hservice : (Turn.secondStart Item.leaning).after.storage.service? ⟨"app.Pool"⟩ =
      some ⟨.plain, .made 0⟩ := by decide +kernel
  have hfirst : (Turn.secondStart Item.leaning).calls.head?.bind Call.record? =
      some ⟨"app.Job", .plain, .made 1⟩ := by decide +kernel
  intro hordered
  obtain ⟨call, hcall, hrecord⟩ := Option.bind_eq_some_iff.1 hfirst
  obtain ⟨calls, hcalls⟩ := List.head?_eq_some_iff.1 hcall
  cases call with
  | up label service result =>
    obtain rfl : label = "app.Job" := congrArg Record.label (Option.some.inj hrecord)
    have hmem := hordered [] ⟨"app.Job"⟩ service result calls hcalls ⟨"app.Pool"⟩ _
      (.single ⟨_, hprovider, .ofName "app::Pool", List.mem_cons_self, by decide +kernel⟩) hservice
    cases hmem
  | _ => cases hrecord

end Wiring
