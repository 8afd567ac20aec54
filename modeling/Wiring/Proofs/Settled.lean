import Mathlib.Data.List.Nodup
import Wiring.Proofs.Recovery

/-!
# The state after a start

A walk with success along an order of all slots has settled every entry: those of the beginning
because it passed them (`Paced.resolved`, `SettlesAll.uncounted`), those that came about on the way
because they are stored as resolved and started at once. So after a start with success, of a new
container or a restart, everything is resolved, every service runs, and each of them is recorded once
(`Client.start_settled`).
-/

namespace Wiring

/-- What a start with success leaves: the storage and the labels of the started services. -/
structure Settled (s : Storage) (labels : List String) : Prop where
  /-- Everything is resolved. -/
  resolved : ∀ e ∈ s.entries, e.isResolved = true
  /-- No value was registered for a slot that was resolved already. -/
  uncounted : ∀ e ∈ s.entries, e.shadowed = 0
  /-- Exactly the services run, and nothing waits to be started. -/
  service : ∀ e ∈ s.entries,
    e.service = if e.service?.isSome then .runningUp else .notAService
  /-- No service is recorded twice. -/
  nodup : labels.Nodup
  /-- What is recorded are the addresses of the services. -/
  mem_labels : ∀ label, label ∈ labels ↔
    ∃ e ∈ s.entries, e.service?.isSome = true ∧ e.address.text = label

variable {s₀ : Storage} {s s' : Scene} {r : Except Error Unit} {a : Address} {e e' : Entry}
  {order : List Address}

/-! ## Values that were counted -/

namespace Progress

/-- In a slot of the beginning the count of values stays the same. -/
theorem shadowed_eq (h : Progress s₀ s) (hs : s₀.Sound) (hget₀ : s₀.get? a = some e)
    (hget : s.storage.get? a = some e') : e'.shadowed = e.shadowed := by
  cases h.comes hget with
  | kept hget' =>
    obtain rfl := Option.some.inj (hget₀.symm.trans hget')
    rfl
  | ran hget' =>
    obtain rfl := Option.some.inj (hget₀.symm.trans hget')
    rfl
  | stored hfree => exact ((hs.fits hget₀).shadowed_of_unresolved (hfree e hget₀)).symm

/-- In any other slot no value is counted. -/
theorem shadowed_of_none (h : Progress s₀ s) (hget₀ : s₀.get? a = none)
    (hget : s.storage.get? a = some e) : e.shadowed = 0 := by
  cases h.comes hget with
  | kept hget' => cases hget₀.symm.trans hget'
  | ran hget' => cases hget₀.symm.trans hget'
  | stored => rfl

end Progress

theorem Settles.uncounted (h : Settles e s (.ok ()) s') : e.shadowed = 0 := by
  cases h <;> assumption

/-- A walk with success passes no slot for which a value was counted. -/
theorem SettlesAll.uncounted (h : SettlesAll order s (.ok ()) s') (hp : Progress s₀ s)
    (hs : s₀.Sound) (hmem : a ∈ order) (hget₀ : s₀.get? a = some e) : e.shadowed = 0 := by
  generalize hr : Except.ok () = r at h
  induction h with
  | nil => cases hmem
  | skip hnone _ ih =>
    rcases List.mem_cons.1 hmem with rfl | hmem
    · obtain ⟨e', hget⟩ := hp.stays hget₀
      cases hnone.symm.trans hget
    · exact ih hp hmem hr
  | step hget hsettles _ ih =>
    rcases List.mem_cons.1 hmem with rfl | hmem
    · rw [← hp.shadowed_eq hs hget₀ hget]
      exact hsettles.uncounted
    · exact ih (hsettles.progress hp hget) hmem hr
  | fail => cases hr

/-! ## Labels -/

/-- A label is recorded once for each call of a start hook under it. -/
theorem count_labels (calls : List Call) (a : Address) :
    ((calls.filterMap Call.record?).map Record.label).count a.text =
      (calls.filter (Call.isUpOf a)).length := by
  induction calls with
  | nil => rfl
  | cons call calls ih =>
    cases call with
    | up label service result =>
      simp only [List.filterMap_cons, Call.record?, List.map_cons, List.count_cons, ih,
        List.filter_cons, Call.isUpOf, decide_eq_true_eq, beq_iff_eq]
      split <;> rfl
    | _ => exact ih

/-- In a walk that kept pace the labels of the slots where a service runs are recorded, once each. -/
theorem Paced.labels (hp : Paced s₀ order s) :
    let labels := (s.calls.filterMap Call.record?).map Record.label
    labels.Nodup ∧ ∀ a : Address, a.text ∈ labels ↔
      ∃ e, s.storage.get? a = some e ∧ e.service = .runningUp := by
  intro labels
  have hcount : ∀ a : Address, labels.count a.text = (s.calls.filter (Call.isStartOf a)).length :=
    fun a => (count_labels s.calls a).trans (by rw [hp.filter_isUpOf])
  refine ⟨List.nodup_iff_count_le_one.2 fun label => ?_, fun a => ?_⟩
  · rw [hcount ⟨label⟩]
    rcases hp.progress.starts ⟨label⟩ with ⟨hnone, _⟩ | ⟨_, _, _, _, _, hone⟩
    · simp [hnone]
    · simp [hone]
  · rw [← List.count_pos_iff, hcount]
    rcases hp.progress.starts a with ⟨hnone, hidle⟩ | ⟨e, service, hget, hrunning, _, hone⟩
    · simpa [hnone] using hidle
    · exact iff_of_true (by simp [hone]) ⟨e, hget, hrunning⟩

/-! ## The end of a walk -/

namespace Paced

variable (hp : Paced s₀ order s) (hs : s₀.Sound) (horder : s₀.graph.order = .ok order)

include hp hs horder

/-- At the end of a walk that kept pace everything is resolved. -/
theorem resolved (hget : s.storage.get? a = some e) : e.isResolved = true := by
  cases hres : e.isResolved with
  | true => rfl
  | false =>
    have hmem := hs.mem_order horder (hp.progress.unresolved hget hres)
    exact hres.symm.trans (hp.resolved_of_mem hmem hget)

/-- At the end of a walk that kept pace no slot has a value that was counted. -/
theorem uncounted (hwalk : SettlesAll order ⟨s₀, []⟩ (.ok ()) s) (hrest : s₀.Resting)
    (hget : s.storage.get? a = some e) : e.shadowed = 0 := by
  cases hget₀ : s₀.get? a with
  | none => exact hp.progress.shadowed_of_none hget₀ hget
  | some e₀ =>
    rw [hp.progress.shadowed_eq hs hget₀ hget]
    exact hwalk.uncounted (.start hs hrest) hs (hs.mem_order horder hget₀) hget₀

/-- At the end of a walk that kept pace exactly the services run. -/
theorem service_eq (hget : s.storage.get? a = some e) :
    e.service = if e.service?.isSome then .runningUp else .notAService := by
  have hidle : e.service ≠ .pendingUp := fun hpending => by
    obtain ⟨hget₀, hnot⟩ := hp.pending hget hpending
    exact hnot (hs.mem_order horder hget₀)
  have hfits := hp.progress.sound.fits hget
  cases hservice : e.service? with
  | none => exact hfits.notAService_iff.2 hservice
  | some service =>
    cases hstate : e.service with
    | notAService => cases hservice.symm.trans (hfits.notAService_iff.1 hstate)
    | pendingUp => exact absurd hstate hidle
    | runningUp => rfl

/-- At the end of a walk that kept pace the services have been recorded under their addresses. -/
theorem mem_labels (label : String) :
    label ∈ (s.calls.filterMap Call.record?).map Record.label ↔
      ∃ e ∈ s.storage.entries, e.service?.isSome = true ∧ e.address.text = label := by
  have hsound := hp.progress.sound
  refine (hp.labels.2 ⟨label⟩).trans ⟨?_, ?_⟩
  · rintro ⟨e, hget, hrunning⟩
    have hfits := hsound.fits hget
    have haddr := hfits.address_eq
    refine ⟨e, hsound.mem_entries.2 (haddr ▸ hget), ?_, congrArg Address.text haddr⟩
    refine Option.isSome_iff_ne_none.2 (hfits.service?_ne_none ?_)
    rw [hrunning]
    exact ServiceState.noConfusion
  · rintro ⟨e, hmem, hservice, rfl⟩
    have hget := hsound.mem_entries.1 hmem
    refine ⟨e, hget, ?_⟩
    rw [hp.service_eq hs horder hget, if_pos hservice]

end Paced

/-- A walk with success along an order of all slots leaves what it started from settled. -/
theorem SettlesAll.settled (h : SettlesAll order ⟨s₀, []⟩ (.ok ()) s) (hs : s₀.Sound)
    (hrest : s₀.Resting) (horder : s₀.graph.order = .ok order) :
    Settled s.storage ((s.calls.filterMap Call.record?).map Record.label) := by
  have hp := h.paced_of_ok hs hrest
  have hsound := hp.progress.sound
  refine ⟨fun e hmem => ?_, fun e hmem => ?_, fun e hmem => ?_, hp.labels.1,
    hp.mem_labels hs horder⟩
  · exact hp.resolved hs horder (hsound.mem_entries.1 hmem)
  · exact hp.uncounted hs horder h hrest (hsound.mem_entries.1 hmem)
  · exact hp.service_eq hs horder (hsound.mem_entries.1 hmem)

/-! ## Starts -/

/-- A start with success of a container that is in order leaves it settled. -/
theorem Step.settled {st st' : Status} {made : List Call} (h : Step st .start made (.ok none) st')
    (ho : st.InOrder) : Settled st'.storage (st'.live.map Record.label) := by
  cases h with
  | @started order after _ hoff horder hwalk =>
    have hsettled := hwalk.settled ho.sound (ho.resting_of_off hoff) horder
    have hlive : (st.gained after).live = after.calls.filterMap Call.record? := by
      rw [Status.gained, ho.live_of_off hoff, List.nil_append]
    rw [← hlive] at hsettled
    exact hsettled

/-- Whatever was done to a container before, a start with success leaves it settled: everything in it
is resolved and every service runs, and its started services are those of the storage, once each. -/
theorem Client.start_settled {σ : Type} (client : Client σ) (config : ContainerConfig)
    (context : Context) (token : Token) (nextIdentity : Identity) (host : σ)
    (ops : List Operation) :
    let w := client.playOut (.fresh config context token nextIdentity host) ops
    let turn := (client.perform w .start).1
    turn.result = .ok none → Settled turn.after.storage turn.after.started := by
  intro w turn hresult
  have hnew : (World.fresh config context token nextIdentity host).container.InOrder :=
    Container.new_inOrder config context token
  have ho : w.container.InOrder := Client.playOut_inOrder hnew ops
  obtain ⟨hstep, _, _⟩ := client.perform_step .start ho
  have hstep : Step w.container.status .start turn.calls (.ok none) turn.after.status :=
    hresult ▸ hstep
  exact hstep.settled ho.status

/-- A start of the samples fails because a start hook stumbles; after a stop the next one succeeds. -/
theorem Client.start_settled_stumbling :
    (Turn.restart Item.samples).result = .ok none ∧
      Settled (Turn.restart Item.samples).after.storage
        (Turn.restart Item.samples).after.started := by
  have hoption : (Turn.restart Item.samples).result.toOption = some none := by decide +kernel
  have hresult : (Turn.restart Item.samples).result = .ok none := by
    revert hoption
    cases (Turn.restart Item.samples).result with
    | ok => exact congrArg Except.ok ∘ Option.some.inj
    | error => exact nofun
  rw [Turn.restart, ← Client.playOut_append] at hresult ⊢
  exact ⟨hresult, Client.start_settled .stumbling default (.root 0) ⟨1⟩ 1 true _ hresult⟩

end Wiring
