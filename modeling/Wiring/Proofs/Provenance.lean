import Wiring.Proofs.Readiness

/-!
# Where components come from

The provider of a slot is found in the calls of a run: it is the item that was asked for the
component which the slot came to hold in one of the turns (`provider?`). A component depends on the
slots that its provider requests (`Depends`). The storage forgets an assembled template, but it
keeps every constructor that has run, and whatever a provider requested stays held
(`Traced.run`).
-/

namespace Wiring

/-! ## Providers in calls -/

namespace Call

/-- The item that a call asked with success. -/
def asked? : Call → Option Item
  | construct c _ (.ok _) => some (.constructor c)
  | assemble t _ (.ok _) => some (.template t)
  | _ => none

/-- The item that a call asked with success for the component in a slot. -/
def giver? (a : Address) (call : Call) : Option Item :=
  call.asked?.filter fun item => (item.provisions.map Prod.fst).contains a

theorem asked?_eq_some {call : Call} {item : Item} : call.asked? = some item ↔
    (∃ c args, item = .constructor c ∧ call = .construct c args (.ok ())) ∨
      ∃ t values product, item = .template t ∧ call = .assemble t values (.ok product) := by
  cases call with
  | construct c args result => cases result <;> simp [asked?, eq_comm]
  | assemble t values result => cases result <;> simp [asked?, eq_comm]
  | _ => simp [asked?]

theorem giver?_eq_some {a : Address} {call : Call} {item : Item} :
    call.giver? a = some item ↔ call.asked? = some item ∧ ∃ t, (a, t) ∈ item.provisions := by
  rw [giver?, Option.filter_eq_some_iff]
  refine and_congr_right fun _ => ?_
  simp

end Call

/-- The item that provided a slot from a storage to a scene in the course of a walk. -/
def Scene.provider? (s₀ : Storage) (s : Scene) (a : Address) : Option Item :=
  if ¬ s₀.Held a ∧ s.storage.Held a then s.calls.findSome? (Call.giver? a) else none

variable {s₀ : Storage} {s s' : Scene} {r : Except Error Unit} {a b x : Address} {e : Entry}
  {item : Item} {call : Call} {passed : List Address}

theorem Scene.provider?_eq_some : Scene.provider? s₀ s a = some item ↔
    ¬ s₀.Held a ∧ s.storage.Held a ∧ s.calls.findSome? (Call.giver? a) = some item := by
  rw [provider?]
  split
  · next h => exact ⟨fun hfind => ⟨h.1, h.2, hfind⟩, fun h => h.2.2⟩
  · next h =>
    refine ⟨fun hnone => (nomatch hnone), ?_⟩
    rintro ⟨hnot, hheld, _⟩
    exact absurd ⟨hnot, hheld⟩ h

/-- What is held from the beginning on is not provided. -/
theorem Scene.provider?_of_held (h : s₀.Held a) : Scene.provider? s₀ s a = none :=
  if_neg fun hnot => hnot.1 h

/-- A component that a provider gave has a giver among the calls. -/
theorem Sourced.exists_giver {calls : List Call} {c : Component} (h : Sourced calls a c) :
    ∃ call ∈ calls, ∃ item, call.giver? a = some item := by
  cases h with
  | output hrun houtput hslot =>
    have hprovides := Item.provides_output (List.mem_of_getElem? houtput) hslot
    exact ⟨_, hrun, _, Call.giver?_eq_some.2 ⟨rfl, _, hprovides⟩⟩
  | template hassemble hslot =>
    have hprovides := Item.provides_template hslot
    exact ⟨_, hassemble, _, Call.giver?_eq_some.2 ⟨rfl, _, hprovides⟩⟩

namespace Progress

/-- A slot that came to be held has a giver among the calls. -/
theorem exists_giver (h : Progress s₀ s) (hheld : s.storage.Held a) (hnot : ¬ s₀.Held a) :
    ∃ call ∈ s.calls, ∃ item, call.giver? a = some item := by
  obtain ⟨c, hc⟩ := Option.isSome_iff_exists.1 hheld
  obtain ⟨e, hget, hcomponent⟩ := Storage.component?_eq_some.1 hc
  cases h.comes hget with
  | kept hget₀ =>
    refine absurd (Option.isSome_iff_exists.2 ⟨c, ?_⟩) hnot
    exact Storage.component?_eq_some.2 ⟨_, hget₀, hcomponent⟩
  | ran => cases hcomponent
  | stored _ _ hsourced => exact hsourced.exists_giver

/-- The provider of a slot that is held in the course of a walk was asked in the calls up to
there. -/
theorem provider_mem (h : Progress s₀ s) (hheld : s.storage.Held a) (hcalls : s.calls <+: s'.calls)
    (hprovider : Scene.provider? s₀ s' a = some item) : ∃ call ∈ s.calls, call.giver? a = some item := by
  obtain ⟨hnot, _, hfind⟩ := Scene.provider?_eq_some.1 hprovider
  obtain ⟨more, hmore⟩ := hcalls
  obtain ⟨call, hmem, first, hgiver⟩ := h.exists_giver hheld hnot
  have hsome : (s.calls.findSome? (Call.giver? a)).isSome = true :=
    List.findSome?_isSome_iff.2 ⟨call, hmem, by rw [hgiver]; rfl⟩
  obtain ⟨item', hitem'⟩ := Option.isSome_iff_exists.1 hsome
  rw [← hmore, List.findSome?_append, hitem', Option.some_or] at hfind
  cases hfind
  exact List.exists_of_findSome?_eq_some hitem'

/-- An item that was asked with success was registered at the beginning, and what it requests is
held. -/
theorem of_asked (h : Progress s₀ s) (hmem : call ∈ s.calls) (hgiver : call.giver? a = some item) :
    s₀.get? (item.seat a) = some (item.entry (item.seat a)) ∧
      (∀ t ∈ item.requests, s.storage.Held t.request.address) ∧
      ∀ c, item = .constructor c → s.storage.get? c.address = some (.ran c) := by
  obtain ⟨hasked, t, hprovides⟩ := Call.giver?_eq_some.1 hgiver
  rcases Call.asked?_eq_some.1 hasked with ⟨c, args, rfl, rfl⟩ | ⟨k, values, product, rfl, rfl⟩
  · obtain ⟨hget₀, hran, hparams⟩ := h.of_run hmem
    refine ⟨hget₀, hparams, fun c' heq => ?_⟩
    cases heq
    exact hran
  · obtain ⟨b, hslot, hget₀, _, hfields⟩ := h.of_assembly hmem
    obtain ⟨ht, hslot'⟩ := Item.mem_provisions.1 hprovides
    obtain rfl := List.mem_singleton.1 ht
    obtain rfl := Option.some.inj (hslot.symm.trans hslot')
    refine ⟨hget₀, fun t hmem => ?_, fun _ heq => nomatch heq⟩
    obtain ⟨field, hfield, rfl⟩ := List.mem_map.1 hmem
    exact hfields field hfield

end Progress

/-! ## What a storage remembers -/

namespace Storage

variable {s s' : Storage}

/-- A constructor has run; any number of values may have been counted for its slot since. -/
def Ran (s : Storage) (c : Constructor) : Prop :=
  ∃ n, s.get? c.address = some { Entry.ran c with shadowed := n }

/-- What is held stays held, and the constructors that have run are still there. -/
structure Persists (s s' : Storage) : Prop where
  keeps : s.Keeps s'
  ran : ∀ c, s.Ran c → s'.Ran c

/-- A slot and the slots that its provider requests are held, and the provider has run if it is a
constructor. -/
structure Remembers (s : Storage) (a : Address) (item : Item) : Prop where
  provides : ∃ t, (a, t) ∈ item.provisions
  held : s.Held a
  requests : ∀ t ∈ item.requests, s.Held t.request.address
  ran : ∀ c, item = .constructor c → s.Ran c

theorem Remembers.persists (h : s.Remembers a item) (hpersists : s.Persists s') :
    s'.Remembers a item where
  provides := h.provides
  held := hpersists.keeps.held h.held
  requests t ht := hpersists.keeps.held (h.requests t ht)
  ran c hc := hpersists.ran c (h.ran c hc)

namespace Persists

theorem refl (s : Storage) : s.Persists s := ⟨.refl s, fun _ h => h⟩

theorem trans {s₁ s₂ s₃ : Storage} (h₁ : s₁.Persists s₂) (h₂ : s₂.Persists s₃) :
    s₁.Persists s₃ := ⟨h₁.keeps.trans h₂.keeps, fun c h => h₂.ran c (h₁.ran c h)⟩

theorem of_put {e : Entry} (hfree : s.Free e.address) : s.Persists (s.put e) := by
  refine ⟨keeps_put hfree, fun c ⟨n, hget⟩ => ⟨n, ?_⟩⟩
  rw [get?_put, if_neg]
  · exact hget
  · intro heq
    cases hfree _ (heq ▸ hget)

theorem of_shadow (s : Storage) (a : Address) : s.Persists ⟨s.table.update a Entry.shadow⟩ := by
  have hget? : ∀ b, (⟨s.table.update a Entry.shadow⟩ : Storage).get? b =
      if a = b then (s.get? b).map Entry.shadow else s.get? b := fun b => Table.get?_update _ _ _ _
  refine ⟨fun b c hc => ?_, fun c ⟨n, hget⟩ => ?_⟩
  · obtain ⟨e, hget, hcomponent⟩ := component?_eq_some.1 hc
    rw [component?, hget?, hget]
    split <;> exact hcomponent
  · by_cases heq : a = c.address
    · exact ⟨n + 1, by rw [hget?, if_pos heq, hget]; rfl⟩
    · exact ⟨n, by rw [hget?, if_neg heq, hget]⟩

/-- Registration forgets nothing. -/
theorem of_addAll (s : Storage) (items : List Item) : s.Persists (s.addAll items).2 := by
  refine addAll_induction (fun {s₁ s₂ item} h hadd => h.trans ?_) items (.refl s)
  rcases add_cases hadd with rfl | ⟨e, _, _, hfree, rfl⟩ | ⟨a, _, rfl⟩
  · exact .refl _
  · exact .of_put hfree
  · exact .of_shadow s₁ a

/-- A stop forgets nothing. -/
theorem of_resetRunning (s : Storage) : s.Persists s.resetRunning := by
  refine ⟨fun a c hc => (component?_resetRunning s a).trans hc, fun c ⟨n, hget⟩ => ⟨n, ?_⟩⟩
  rw [get?_resetRunning, hget]
  rfl

end Persists

end Storage

/-- A walk forgets nothing. -/
theorem Progress.persists (h : Progress s₀ s) : s₀.Persists s.storage :=
  ⟨h.keeps, fun _ ⟨n, hget⟩ => ⟨n, h.kept_ran hget⟩⟩

/-- What provided a slot in a walk is remembered at its end. -/
theorem Progress.remembers (h : Progress s₀ s) (hprovider : Scene.provider? s₀ s a = some item) :
    s.storage.Remembers a item := by
  obtain ⟨_, hheld, hfind⟩ := Scene.provider?_eq_some.1 hprovider
  obtain ⟨call, hmem, hgiver⟩ := List.exists_of_findSome?_eq_some hfind
  obtain ⟨_, hrequests, hran⟩ := h.of_asked hmem hgiver
  exact ⟨(Call.giver?_eq_some.1 hgiver).2, hheld, hrequests, fun c hc => ⟨0, hran c hc⟩⟩

/-- No operation forgets anything. -/
theorem Step.persists {st st' : Status} {op : Operation} {made : List Call}
    {result : Except Error (Option Object)} (h : Step st op made result st') (ho : st.InOrder) :
    st.storage.Persists st'.storage := by
  have hwalk : ∀ {order r after}, st.on = false → SettlesAll order st.scene r after →
      st.storage.Persists after.storage := fun hoff hwalk =>
    (hwalk.progress (.start ho.sound (ho.resting_of_off hoff))).persists
  cases h with
  | @registered items _ storage _ hadd =>
    have hpersists := Storage.Persists.of_addAll st.storage items
    rw [hadd] at hpersists
    exact hpersists
  | startFailed _ hoff _ hsettles => exact hwalk hoff hsettles
  | started _ hoff _ hsettles => exact hwalk hoff hsettles
  | uncalled _ _ hcalls =>
    rw [Status.gained, hcalls.storage_eq]
    exact .refl _
  | invoked _ _ hcalls hstarts =>
    rw [Status.gained, hstarts.storage_eq, hcalls.storage_eq]
    exact .refl _
  | stopped => exact .of_resetRunning _
  | _ => exact .refl _

/-! ## Providers in runs -/

/-- The item that provided a slot in a turn. -/
def Turn.provider? (turn : Turn) (a : Address) : Option Item :=
  Scene.provider? turn.before.storage ⟨turn.after.storage, turn.calls⟩ a

/-- The item that provided a slot in one of several turns. -/
def provider? (turns : List Turn) (a : Address) : Option Item :=
  turns.findSome? fun turn => turn.provider? a

/-- The provider of a slot requests a slot. -/
def Depends (turns : List Turn) (a b : Address) : Prop :=
  ∃ item, provider? turns a = some item ∧ ∃ t ∈ item.requests, t.request.address = b

/-- A slot was provided in the last turn or before it. -/
theorem provider?_concat {turns : List Turn} {turn : Turn} :
    provider? (turns ++ [turn]) a = (provider? turns a).or (turn.provider? a) := by
  rw [provider?, List.findSome?_append, List.findSome?_singleton]
  rfl

/-- What an operation provides is remembered after it. -/
theorem Step.remembers {st st' : Status} {op : Operation} {made : List Call}
    {result : Except Error (Option Object)} (h : Step st op made result st') (ho : st.InOrder)
    (hprovider : Scene.provider? st.storage ⟨st'.storage, made⟩ a = some item) :
    st'.storage.Remembers a item := by
  have hwalk : ∀ {order r after}, st.on = false → SettlesAll order st.scene r after →
      Scene.provider? st.storage after a = some item → after.storage.Remembers a item :=
    fun hoff hsettles hprovider =>
      (hsettles.progress (.start ho.sound (ho.resting_of_off hoff))).remembers hprovider
  obtain ⟨hnot, hheld, hfind⟩ := Scene.provider?_eq_some.1 hprovider
  -- Without a walk, no slot comes to be held after a call of a provider.
  cases h with
  | startFailed _ hoff _ hsettles => exact hwalk hoff hsettles hprovider
  | started _ hoff _ hsettles => exact hwalk hoff hsettles hprovider
  | uncalled _ _ hcalls =>
    rw [Status.gained, hcalls.storage_eq] at hheld
    exact absurd hheld hnot
  | invoked _ _ hcalls hstarts =>
    rw [Status.gained, hstarts.storage_eq, hcalls.storage_eq] at hheld
    exact absurd hheld hnot
  | stopped =>
    rw [Storage.Held, Storage.component?_resetRunning] at hheld
    exact absurd hheld hnot
  | _ => cases hfind

/-- A storage remembers all that was provided in some turns. -/
def Traced (turns : List Turn) (s : Storage) : Prop :=
  ∀ ⦃a item⦄, provider? turns a = some item → s.Remembers a item

namespace Traced

variable {turns : List Turn}

theorem nil (s : Storage) : Traced [] s := fun _ _ hprovider => nomatch hprovider

/-- One more turn. -/
theorem step {turn : Turn} (h : Traced turns turn.before.storage)
    (hstep : Step turn.before.status turn.operation turn.calls turn.result turn.after.status)
    (ho : turn.before.InOrder) : Traced (turns ++ [turn]) turn.after.storage := by
  intro a item hprovider
  rw [provider?_concat, Option.or_eq_some_iff] at hprovider
  rcases hprovider with hprovider | ⟨_, hprovider⟩
  · exact (h hprovider).persists (hstep.persists ho.status)
  · exact hstep.remembers ho.status hprovider

variable {σ : Type} {client : Client σ}

/-- A run. -/
theorem run {w : World σ} {ops : List Operation} (h : Traced turns w.container.storage)
    (ho : w.container.InOrder) :
    Traced (turns ++ client.play w ops) (client.playOut w ops).container.storage := by
  refine Client.play_induction (p := fun turns c => Traced turns c.storage)
    (fun op _ turns w ho h => ?_) h ho
  obtain ⟨hstep, _, _⟩ := client.perform_step op ho
  exact Traced.step h hstep ho

end Traced

/-! ## Calls of start hooks -/

/-- While a walk keeps pace, a slot whose provider was asked with success is held. -/
theorem Paced.held_of_giver (h : Paced s₀ passed s) (hmem : call ∈ s.calls)
    (hgiver : call.giver? a = some item) : s.storage.Held a := by
  obtain ⟨hasked, t, hprovides⟩ := Call.giver?_eq_some.1 hgiver
  obtain ⟨ht, hslot⟩ := Item.mem_provisions.1 hprovides
  rcases Call.asked?_eq_some.1 hasked with ⟨c, args, rfl, rfl⟩ | ⟨k, values, product, rfl, rfl⟩
  · exact h.outputs hmem t ht hslot
  · obtain ⟨b, hslot', _, hheld, _⟩ := h.progress.of_assembly hmem
    obtain rfl := List.mem_singleton.1 ht
    obtain rfl := Option.some.inj (hslot.symm.trans hslot')
    exact hheld

/-- While a walk keeps pace, the first call of a provider for a free slot decides from where the
slot is provided. -/
theorem Paced.provider?_of_free {more : List Call} (h : Paced s₀ passed s)
    (hgiver : call.giver? a = some item) (hcalls : s'.calls = s.calls ++ call :: more)
    (hfree : s.storage.Free a) (hheld : s'.storage.Held a) :
    Scene.provider? s₀ s' a = some item := by
  have hnot : ¬ s₀.Held a := fun hheld₀ => hheld₀.not_free (h.progress.free hfree)
  have hnone : s.calls.findSome? (Call.giver? a) = none := by
    refine List.findSome?_eq_none_iff.2 fun call' hmem => ?_
    cases hgiver' : call'.giver? a with
    | none => rfl
    | some item' => exact absurd hfree (h.held_of_giver hmem hgiver').not_free
  refine Scene.provider?_eq_some.2 ⟨hnot, hheld, ?_⟩
  rw [hcalls, List.findSome?_append, hnone, Option.none_or, List.findSome?_cons, hgiver]

/-- No start hook is called again after it succeeded. -/
theorem Progress.up_once {service : Service} {before : List Call} (h : Progress s₀ s)
    (hcalls : before ++ [.up a.text service (.ok ())] <+: s.calls) :
    .up a.text service (.ok ()) ∉ before := by
  intro hmem
  obtain ⟨after, hafter⟩ := hcalls
  have hstart : ∀ {calls : List Call}, .up a.text service (.ok ()) ∈ calls →
      0 < (calls.filter (Call.isStartOf a)).length := fun hmem =>
    List.length_pos_of_mem (List.mem_filter.2 ⟨hmem, by simp [Call.isStartOf]⟩)
  have hfirst := hstart hmem
  have hsecond := hstart (List.mem_singleton.2 rfl)
  have honce : (s.calls.filter (Call.isStartOf a)).length ≤ 1 := by
    rcases h.starts a with ⟨hnone, _⟩ | ⟨_, _, _, _, _, hone⟩
    · rw [hnone]
      exact Nat.zero_le 1
    · rw [hone]
      exact Nat.le_refl 1
  rw [← hafter, List.filter_append, List.filter_append, List.length_append,
    List.length_append] at honce
  omega

/-- A slot with a service is held. -/
theorem Storage.Sound.held_of_service {s : Storage} (hs : s.Sound) (hget : s.get? a = some e)
    (hservice : e.service ≠ .notAService) : s.Held a := by
  cases hs.fits hget with
  | value c => exact Option.isSome_iff_exists.2 ⟨c, Storage.component?_eq_some.2 ⟨_, hget, rfl⟩⟩
  | constructor => exact absurd rfl hservice
  | template => exact absurd rfl hservice

/-- The entry of an item that was asked is not resolved. -/
theorem Call.isResolved_of_giver (h : call.giver? a = some item) :
    (item.entry b).isResolved = false := by
  rcases Call.asked?_eq_some.1 (Call.giver?_eq_some.1 h).1 with ⟨c, _, rfl, _⟩ | ⟨t, _, _, rfl, _⟩
  · rfl
  · rfl

/-- A call of a start hook in a step is that of the service in the slot, and then it is the only one
there, or it is that of a component which the provider in the slot gave. -/
theorem Settles.up_cases {service : Service} {result : Except Fault Unit} (h : Settles e s r s')
    (hs : s.storage.Sound) (hget : s.storage.get? x = some e)
    (hup : .up a.text service result ∈ s'.calls) (hnew : .up a.text service result ∉ s.calls) :
    (a = x ∧ e.isResolved = true ∧ e.service = .pendingUp ∧
        ∃ call, s'.calls = s.calls ++ [call]) ∨
      ∃ item call more, e = item.entry x ∧ x = item.seat a ∧ call.giver? a = some item ∧
        s'.calls = s.calls ++ call :: more ∧ s.storage.Free a ∧ s'.storage.Held a ∧
        ∀ t ∈ item.requests, s.storage.Held t.request.address := by
  rcases h.works hs hget with rfl | hworks
  · exact absurd hup hnew
  cases hworks with
  | waited hres hpending _ hstarts =>
    obtain ⟨_, heq, _⟩ := (hstarts.mem_calls hup).resolve_left hnew
    refine .inl ⟨?_, hres, hpending, ?_⟩
    · injection heq with htext
      exact congrArg Address.mk htext
    · cases hstarts with
      | up => exact ⟨_, rfl⟩
      | fault => exact ⟨_, rfl⟩
  | refused f =>
    refine absurd ((List.mem_append.1 hup).resolve_right fun hmem => ?_) hnew
    cases List.mem_singleton.1 hmem
  | ran products haddr hargs hlength habsorbs =>
    obtain ⟨component, hmem, b, _, _, hslot, hfree, hheld, heq, _⟩ :=
      (habsorbs.mem_calls hup).resolve_left fun hmem => hnew (up_mem_of_run hmem)
    injection heq with htext
    obtain rfl : a = b := congrArg Address.mk htext
    obtain ⟨new, hcalls, _⟩ := habsorbs.grows
    have hprovides := Item.provides_output (Constructor.type_mem_outputs hlength hmem) hslot
    rw [List.append_assoc, List.cons_append] at hcalls
    refine .inr ⟨.constructor _, _, _, rfl, haddr.symm, ?_, hcalls,
      Storage.free_of_markResolved hfree, hheld, Storage.held_of_arguments hargs⟩
    exact Call.giver?_eq_some.2 ⟨rfl, _, hprovides⟩
  | unmade err =>
    refine absurd ((List.mem_append.1 hup).resolve_right fun hmem => ?_) hnew
    cases List.mem_singleton.1 hmem
  | made product hslot hvalues habsorbs =>
    obtain ⟨b, _, _, hslot', hfree, hheld, heq, _⟩ := (habsorbs.mem_calls hup).resolve_left
      fun hmem => hnew ((List.mem_append.1 hmem).resolve_right fun hmem => by
        cases List.mem_singleton.1 hmem)
    injection heq with htext
    obtain rfl : a = b := congrArg Address.mk htext
    obtain rfl : x = a := Option.some.inj (hslot.symm.trans hslot')
    obtain ⟨new, hcalls, _⟩ := habsorbs.grows
    rw [List.append_assoc, List.singleton_append] at hcalls
    refine .inr ⟨.template _, _, _, rfl, rfl, ?_, hcalls, hfree, hheld, fun type hmem => ?_⟩
    · exact Call.giver?_eq_some.2 ⟨rfl, _, Item.provides_template hslot⟩
    · obtain ⟨field, hfield, rfl⟩ := List.mem_map.1 hmem
      exact Storage.held_of_fillFields hvalues field hfield

end Wiring
