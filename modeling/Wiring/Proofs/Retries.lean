import Wiring.Proofs.Pace
import Wiring.Proofs.Simulation
import Wiring.Proofs.Steps
import Wiring.Proofs.Wired

/-!
# Providers are called until they succeed

The calls of a provider in a run of a container are failures but for the last, and in each start it
is called at most once (`Client.starts_retry`). What a container remembers of a call with success is
that the slot of the provider is occupied: a step of a walk calls the provider of a free slot, and a
success leaves the slot occupied, whatever fails afterwards (`Settles.attempts`). An occupied slot
stays so (`Storage.Endures`), so that no walk calls the provider again.
-/

namespace Wiring

/-! ## Calls of providers -/

/-- The constructor or template that a call asks, whatever the answer. -/
def Call.item? : Call → Option Item
  | construct c _ _ => some (.constructor c)
  | assemble t _ _ => some (.template t)
  | _ => none

/-- The calls of an item among some calls. -/
def Item.callsIn (item : Item) (calls : List Call) : List Call :=
  calls.filter fun call => call.item? = some item

theorem Item.callsIn_append (item : Item) (calls calls' : List Call) :
    item.callsIn (calls ++ calls') = item.callsIn calls ++ item.callsIn calls' :=
  List.filter_append _ _

theorem Item.callsIn_of_none (item : Item) {calls : List Call}
    (h : ∀ call ∈ calls, call.item? = none) : item.callsIn calls = [] := by
  refine List.filter_eq_nil_iff.2 fun call hmem => ?_
  simp [h call hmem]

/-- A call of an item and others that ask none are one more call of that item. -/
theorem Item.callsIn_attempt (item : Item) {calls rest : List Call} {call : Call} {asked : Item}
    (hasked : call.item? = some asked) (hrest : ∀ call ∈ rest, call.item? = none) :
    item.callsIn (calls ++ call :: rest) =
      item.callsIn calls ++ if item = asked then [call] else [] := by
  have hsplit : calls ++ call :: rest = calls ++ [call] ++ rest := by simp
  rw [hsplit, callsIn_append, callsIn_append, item.callsIn_of_none hrest, List.append_nil]
  by_cases heq : item = asked <;> simp [callsIn, hasked, heq, Ne.symm]

variable {s₀ : Storage} {s s' : Scene} {r : Except Error Unit} {a : Address} {e : Entry}
  {call : Call} {item : Item}

/-- The call of the provider in a slot, with what the storage has for it. -/
inductive Attempts (s : Storage) (a : Address) (e : Entry) : Call → Prop
  | construct : e = .provider a (.constructor c) → c.address = a →
      s.arguments c.callable.params = .ok args → Attempts s a e (.construct c args result)
  | assemble : e = .provider a (.template t) → t.type.slot? = some a →
      s.fillFields t.fields (.empty a) = .ok values → Attempts s a e (.assemble t values result)

/-- A call of a provider asks the item that is registered in the slot. -/
theorem Attempts.exists_item (h : Attempts s₀ a e call) :
    ∃ item, call.item? = some item ∧ item.slot? = some a ∧ e = item.entry a := by
  cases h with
  | construct he haddr => exact ⟨_, rfl, congrArg some haddr, he⟩
  | assemble he hslot => exact ⟨_, rfl, hslot, he⟩

/-- The slot of a provider that is called is free. -/
theorem Attempts.free (h : Attempts s₀ a e call) (hget : s₀.get? a = some e) : s₀.Free a := by
  intro e' hget'
  obtain rfl := Option.some.inj (hget.symm.trans hget')
  cases h with
  | construct he => exact congrArg Entry.isResolved he
  | assemble he => exact congrArg Entry.isResolved he

/-- From `s` to `s'` no provider was called. -/
def Scene.AsksNone (s s' : Scene) : Prop :=
  ∃ new, s'.calls = s.calls ++ new ∧ ∀ call ∈ new, call.item? = none

namespace Scene.AsksNone

theorem refl (s : Scene) : s.AsksNone s := ⟨[], by simp, by simp⟩

theorem trans {s₁ s₂ s₃ : Scene} (h₁ : s₁.AsksNone s₂) (h₂ : s₂.AsksNone s₃) : s₁.AsksNone s₃ := by
  obtain ⟨new₁, hcalls₁, hnone₁⟩ := h₁
  obtain ⟨new₂, hcalls₂, hnone₂⟩ := h₂
  refine ⟨new₁ ++ new₂, by rw [hcalls₂, hcalls₁, List.append_assoc], fun call hmem => ?_⟩
  rcases List.mem_append.1 hmem with hmem | hmem
  · exact hnone₁ call hmem
  · exact hnone₂ call hmem

end Scene.AsksNone

theorem Starts.asksNone {service : Service} (h : Starts a service s r s') : s.AsksNone s' := by
  cases h with
  | up => exact ⟨_, rfl, by simp [Call.item?]⟩
  | fault f => exact ⟨_, rfl, by simp [Call.item?]⟩

theorem Absorbs.asksNone {c : Component} (h : Absorbs c s r s') : s.AsksNone s' := by
  cases h with
  | untracked => exact .refl _
  | refused => exact .refl _
  | stored => exact ⟨[], by simp, by simp⟩
  | started _ _ _ hstarts => exact hstarts.asksNone

/-- Absorbing what a provider gave calls no provider. -/
theorem AbsorbsAll.asksNone {cs : List Component} (h : AbsorbsAll cs s r s') : s.AsksNone s' := by
  induction h with
  | nil => exact .refl _
  | cons habsorbs _ ih => exact habsorbs.asksNone.trans ih
  | fail habsorbs => exact habsorbs.asksNone

/-- Starting what a callable gave calls no provider. -/
theorem StartsOutputs.asksNone {cs : List Component} (h : StartsOutputs cs s r s') :
    s.AsksNone s' := by
  induction h with
  | nil => exact .refl _
  | skip _ _ ih => exact ih
  | up _ _ ih => exact Scene.AsksNone.trans ⟨_, rfl, by simp [Call.item?]⟩ ih
  | fault => exact ⟨_, rfl, by simp [Call.item?]⟩

theorem item?_of_mem_suppliesFrom {c : Constructor} {position : Nat} {products : List Product}
    (h : call ∈ suppliesFrom c position products) : call.item? = none := by
  obtain ⟨_, _, _, rfl⟩ := mem_suppliesFrom.1 h
  rfl

/-- Calling a callable makes one call of a provider, if any, and it is the first. -/
theorem Calls.attempts {c : Constructor} {result : Except Error (List Component)}
    (h : Calls c s result s') : s'.calls = s.calls ∨
      ∃ args answer rest, s'.calls = s.calls ++ .construct c args answer :: rest ∧
        (∀ call ∈ rest, call.item? = none) ∧ s.storage.arguments c.callable.params = .ok args := by
  cases h with
  | unsupplied => exact .inl rfl
  | failed f hargs => exact .inr ⟨_, _, [], rfl, by simp, hargs⟩
  | supplied products hargs =>
    exact .inr ⟨_, _, _, rfl, fun call hmem => item?_of_mem_suppliesFrom hmem, hargs⟩

/-! ## Steps -/

/-- A step of a walk calls no provider, or it calls that of its slot, first of all and once. If that
fails so does the step, and otherwise the slot is occupied from then on. -/
theorem Settles.attempts (h : Settles e s r s') (hs : s.storage.Sound)
    (hget : s.storage.get? a = some e) : s.AsksNone s' ∨
      ∃ call rest, s'.calls = s.calls ++ call :: rest ∧ (∀ call ∈ rest, call.item? = none) ∧
        Attempts s.storage a e call ∧ (call.isFailure = true → ∃ err, r = .error err) ∧
        (call.isFailure = false → ¬ s'.storage.Free a) := by
  have hfits := hs.fits hget
  obtain rfl := hfits.address_eq
  cases h with
  | shadowed => exact .inl (.refl _)
  | rested => exact .inl (.refl _)
  | waited _ _ _ _ hstarts => exact .inl hstarts.asksNone
  | shapeless => exact .inl (.refl _)
  | uncalled _ hres hpayload hcalls =>
    obtain ⟨haddr, he⟩ := hfits.eq_constructor hres hpayload
    cases hcalls with
    | unsupplied => exact .inl (.refl _)
    | failed f hargs =>
      exact .inr ⟨_, [], rfl, by simp, .construct he haddr hargs, fun _ => ⟨_, rfl⟩, nofun⟩
  | @called c _ _ _ _ _ hres hpayload hcalls habsorbs =>
    obtain ⟨haddr, he⟩ := hfits.eq_constructor hres hpayload
    cases hcalls with
    | @supplied args products hargs =>
      obtain ⟨new, hnew, hnone⟩ := habsorbs.asksNone
      refine .inr ⟨.construct c args (.ok ()), suppliesFrom c 0 products ++ new, ?_,
        fun call hmem => ?_, .construct he haddr hargs, nofun, fun _ hfree => ?_⟩
      · rw [hnew, List.append_assoc, List.cons_append]
      · rcases List.mem_append.1 hmem with hmem | hmem
        · exact item?_of_mem_suppliesFrom hmem
        · exact hnone call hmem
      · cases habsorbs.free hfree { e with relation := .resolvedValue } (by
          rw [Storage.get?_markResolved, if_pos rfl, hget]
          rfl)
  | unassembled _ hres hpayload hassembles =>
    obtain ⟨hslot, he⟩ := hfits.eq_template hres hpayload
    cases hassembles with
    | unfilled => exact .inl (.refl _)
    | failed err hvalues =>
      exact .inr ⟨_, [], rfl, by simp, .assemble he hslot hvalues, fun _ => ⟨_, rfl⟩, nofun⟩
  | @assembled t _ _ _ _ _ hres hpayload hassembles habsorbs =>
    obtain ⟨hslot, he⟩ := hfits.eq_template hres hpayload
    cases hassembles with
    | @assembled values product hvalues =>
      obtain ⟨new, hnew, hnone⟩ := habsorbs.asksNone
      refine .inr ⟨.assemble t values (.ok product), new, ?_, hnone, .assemble he hslot hvalues,
        nofun, fun _ => ?_⟩
      · rw [hnew, List.append_assoc, List.singleton_append]
      · exact habsorbs.occupied hslot
  | idle => exact .inl (.refl _)

/-! ## Walks -/

/-- An item was not asked, or it was asked once, when its slot was free at the beginning in `s₀`;
after a success the slot is occupied. -/
def Scene.AskedOnce (s₀ : Storage) (s : Scene) (item : Item) : Prop :=
  item.callsIn s.calls = [] ∨ ∃ call a, item.callsIn s.calls = [call] ∧ item.slot? = some a ∧
    s₀.Free a ∧ (call.isFailure = false → ¬ s.storage.Free a)

/-- What holds in the course of a walk that began in `s₀` and has not failed. -/
structure Walked (s₀ : Storage) (s : Scene) : Prop where
  sound : s.storage.Sound
  free : ∀ ⦃a⦄, s.storage.Free a → s₀.Free a
  asked : ∀ item, s.AskedOnce s₀ item
  occupied : ∀ ⦃item : Item⦄, item.callsIn s.calls ≠ [] →
    ∃ a, item.slot? = some a ∧ ¬ s.storage.Free a

theorem Walked.start (hs : s₀.Sound) : Walked s₀ ⟨s₀, []⟩ where
  sound := hs
  free _ hfree := hfree
  asked _ := .inl rfl
  occupied _ hcalls := absurd rfl hcalls

/-- A step of a walk asks no item a second time. -/
theorem Walked.step (hw : Walked s₀ s) (h : Settles e s r s') (hget : s.storage.get? a = some e) :
    (∀ item, s'.AskedOnce s₀ item) ∧ (r = .ok () → Walked s₀ s') := by
  have hsound := h.sound hw.sound hget
  have hfree : ∀ ⦃b⦄, s'.storage.Free b → s₀.Free b := fun b hb => hw.free (h.free hb)
  -- What is said of an item that the step does not ask stays true.
  have hsame : ∀ {item : Item}, item.callsIn s'.calls = item.callsIn s.calls →
      s'.AskedOnce s₀ item ∧ (item.callsIn s'.calls ≠ [] →
        ∃ b, item.slot? = some b ∧ ¬ s'.storage.Free b) := by
    intro item hcalls
    rw [Scene.AskedOnce, hcalls]
    refine ⟨(hw.asked item).imp_right ?_, fun hne => ?_⟩
    · rintro ⟨call, b, hcall, hslot, hfree₀, hoccupied⟩
      exact ⟨call, b, hcall, hslot, hfree₀, fun hok hb => hoccupied hok (h.free hb)⟩
    · obtain ⟨b, hslot, hoccupied⟩ := hw.occupied hne
      exact ⟨b, hslot, fun hb => hoccupied (h.free hb)⟩
  rcases h.attempts hw.sound hget with
    ⟨new, hnew, hnone⟩ | ⟨call, rest, hcalls, hrest, hattempts, hfails, hsucceeds⟩
  · have hall : ∀ item : Item, item.callsIn s'.calls = item.callsIn s.calls := fun item => by
      rw [hnew, item.callsIn_append, item.callsIn_of_none hnone, List.append_nil]
    exact ⟨fun item => (hsame (hall item)).1,
      fun _ => ⟨hsound, hfree, fun item => (hsame (hall item)).1, fun item => (hsame (hall item)).2⟩⟩
  · obtain ⟨asked, hasked, hslot, he⟩ := hattempts.exists_item
    have hcallsIn : ∀ item : Item, item.callsIn s'.calls =
        item.callsIn s.calls ++ if item = asked then [call] else [] := fun item => by
      rw [hcalls, item.callsIn_attempt hasked hrest]
    have hothers : ∀ {item : Item}, item ≠ asked →
        item.callsIn s'.calls = item.callsIn s.calls := fun {item} hne => by
      rw [hcallsIn, if_neg hne, List.append_nil]
    -- The slot is free, so that the item was not asked before.
    have hfirst : asked.callsIn s'.calls = [call] := by
      rw [hcallsIn, if_pos rfl]
      by_cases hne : asked.callsIn s.calls = []
      · rw [hne, List.nil_append]
      · obtain ⟨b, hslot', hoccupied⟩ := hw.occupied hne
        obtain rfl := Option.some.inj (hslot.symm.trans hslot')
        exact absurd (hattempts.free hget) hoccupied
    have hall : ∀ item, s'.AskedOnce s₀ item := fun item => by
      by_cases heq : item = asked
      · subst heq
        exact .inr ⟨call, a, hfirst, hslot, hw.free (hattempts.free hget), hsucceeds⟩
      · exact (hsame (hothers heq)).1
    refine ⟨hall, fun hr => ⟨hsound, hfree, hall, fun item hne => ?_⟩⟩
    by_cases heq : item = asked
    · subst heq
      refine ⟨a, hslot, hsucceeds (Bool.eq_false_iff.2 fun hfail => ?_)⟩
      obtain ⟨err, herr⟩ := hfails hfail
      cases hr.symm.trans herr
    · exact (hsame (hothers heq)).2 hne

/-- A walk asks each item at most once. -/
theorem SettlesAll.askedOnce {order : List Address} (h : SettlesAll order s r s')
    (hw : Walked s₀ s) (item : Item) : s'.AskedOnce s₀ item := by
  induction h with
  | nil => exact hw.asked item
  | skip _ _ ih => exact ih hw
  | step hget hsettles _ ih => exact ih ((hw.step hsettles hget).2 rfl)
  | fail hget hsettles => exact (hw.step hsettles hget).1 item

/-! ## Operations -/

variable {σ : Type} (client : Client σ)

/-- The callbacks of a program that cannot reach the container leave it as it is, and what an
operation does besides lets the storage endure. -/
theorem Client.recorded_endures (w₀ : World (Recorded σ)) :
    Client.Simulates (fun w w' => w' = w ∧ w₀.container.storage.Endures w.container.storage ∧
      w₀.nextIdentity ≤ w.nextIdentity) client.recorded client.recorded where
  container := by
    rintro w _ ⟨rfl, _⟩
    rfl
  nextIdentity := by
    rintro w _ ⟨rfl, _⟩
    rfl
  change := by
    rintro w _ ⟨rfl, hstorage, hidentity⟩ c hc
    exact ⟨rfl, hstorage.trans hc.endures, hidentity⟩
  announce := by
    rintro w _ ⟨rfl, hw⟩ notice
    exact ⟨rfl, hw⟩
  identify := by
    rintro w _ ⟨rfl, hstorage, hidentity⟩
    exact ⟨rfl, hstorage, Nat.le_succ_of_le hidentity⟩
  construct := by
    rintro w _ c args ⟨rfl, hw⟩ _
    exact ⟨rfl, rfl, hw⟩
  supply := by
    rintro c position w _ ⟨rfl, hw⟩
    exact ⟨rfl, rfl, hw⟩
  assemble := by
    rintro w _ t a values ⟨rfl, hw⟩ _
    exact ⟨rfl, rfl, hw⟩
  up := by
    rintro service signal w _ ⟨rfl, hw⟩
    exact ⟨rfl, rfl, hw⟩
  down := by
    rintro service w _ ⟨rfl, hw⟩
    exact ⟨rfl, rfl, hw⟩

/-- In every operation the storage endures, and identities are given out in ascending order. -/
theorem Client.perform_endures (w : World σ) (op : Operation) :
    w.container.storage.Endures (client.perform w op).1.after.storage ∧
      w.nextIdentity ≤ (client.perform w op).2.nextIdentity :=
  (op.act_simulates (client.recorded_endures w.unrecorded) (w := w.unrecorded)
    ⟨rfl, .refl _, Nat.le_refl _⟩).2.2

/-- An invocation makes one call of a provider, if any, and it is the first: that of the callable
under a new identity, with arguments from the storage of a running container. -/
theorem Client.perform_invoke {w : World σ} (ho : w.container.InOrder) (callable : Callable) :
    (client.perform w (.invoke callable)).1.calls = [] ∨ ∃ args answer rest,
      (client.perform w (.invoke callable)).1.calls =
        .construct ⟨w.nextIdentity, callable⟩ args answer :: rest ∧
      (∀ call ∈ rest, call.item? = none) ∧ w.container.running = true ∧
      w.container.storage.arguments callable.params = .ok args := by
  obtain ⟨r, w', hout⟩ : ∃ r w',
      ((Operation.invoke callable).act client.recorded).outcome w.unrecorded = (r, w') := ⟨_, _, rfl⟩
  have hcalls : (client.perform w (.invoke callable)).1.calls = w'.host.calls :=
    congrArg (fun out => out.2.host.calls) hout
  rw [hcalls]
  simp only [Operation.act, Container.invoke, Action.outcome_bind, Action.outcome_get] at hout
  cases hrunning : w.container.running with
  | false =>
    rw [if_neg (by simp [World.unrecorded, hrunning])] at hout
    cases hout
    exact .inl rfl
  | true =>
    rw [if_pos (by simp [World.unrecorded, hrunning]), Action.outcome_bind,
      Action.outcome_freshIdentity] at hout
    have hon : w.container.history.switch = .on := by
      simpa [Container.status] using ho.status.on_of_running hrunning
    obtain ⟨hobeys, _⟩ := callAndStart_obeys client ⟨w.unrecorded.nextIdentity, callable⟩
      { w.unrecorded with nextIdentity := w.unrecorded.nextIdentity + 1 } hon
    simp only at hout
    generalize Action.outcome _ _ = out at hobeys hout
    obtain ⟨result, w₁⟩ := out
    have hsame : w'.host.calls = w₁.host.calls := by
      cases result <;> cases hout <;> rfl
    rw [hsame]
    obtain ⟨e, _, hcalled⟩ | ⟨components, called, hcalled, hstarts⟩ := hobeys
    · refine hcalled.attempts.imp id ?_
      rintro ⟨args, answer, rest, hnew, hrest, hargs⟩
      exact ⟨args, answer, rest, hnew, hrest, rfl, hargs⟩
    · obtain ⟨new, hnew, hnone⟩ := hstarts.asksNone
      cases hcalled with
      | supplied products hargs =>
        refine .inr ⟨_, _, suppliesFrom _ 0 products ++ new, hnew, fun call hmem => ?_, rfl, hargs⟩
        rcases List.mem_append.1 hmem with hmem | hmem
        · exact item?_of_mem_suppliesFrom hmem
        · exact hnone call hmem

/-! ## Runs -/

/-- Stopping calls no provider. -/
theorem Unwinds.item?_of_mem {records : List Record} {calls : List Call}
    {failures : List StopFailure} (h : Unwinds records calls failures) :
    ∀ call ∈ calls, call.item? = none := by
  induction h with
  | nil => simp
  | down _ ih => simpa [Call.item?] using ih
  | fault _ _ ih => simpa [Call.item?] using ih

/-- In a start each item is asked at most once. -/
theorem Step.askedOnce {st st' : Status} {calls : List Call} {result : Except Error (Option Object)}
    (h : Step st .start calls result st') (ho : st.InOrder) (item : Item) :
    Scene.AskedOnce st.storage ⟨st'.storage, calls⟩ item := by
  rcases h.walk_of_start with ⟨order, r, _, _, hwalk⟩ | rfl
  · exact hwalk.askedOnce (.start ho.sound) item
  · exact .inl rfl

/-- Operations besides starts and invocations call no provider. -/
theorem Step.asksNone {st st' : Status} {op : Operation} {calls : List Call}
    {result : Except Error (Option Object)} (h : Step st op calls result st') (hstart : op ≠ .start)
    (hinvoke : ∀ callable, op ≠ .invoke callable) : ∀ call ∈ calls, call.item? = none := by
  cases h with
  | registerRunning => simp
  | registered => simp
  | resolved => simp
  | stopOff => simp
  | stopped _ hunwinds => exact hunwinds.item?_of_mem
  | notStarted => exact absurd rfl (hinvoke _)
  | uncalled => exact absurd rfl (hinvoke _)
  | invoked => exact absurd rfl (hinvoke _)
  | _ => exact absurd rfl hstart

/-- Besides a start, only an invocation asks an item: its callable, under a new identity. -/
theorem Client.perform_asks {w : World σ} (ho : w.container.InOrder) {op : Operation}
    (hop : op ≠ .start) (hmem : call ∈ (client.perform w op).1.calls)
    (hasks : call.item? = some item) : ∃ callable, op = .invoke callable ∧
      item = .constructor ⟨w.nextIdentity, callable⟩ := by
  by_cases hinvoke : ∀ callable, op ≠ .invoke callable
  · obtain ⟨hstep, _, _⟩ := client.perform_step op ho
    cases (hstep.asksNone hop hinvoke call hmem).symm.trans hasks
  · obtain ⟨callable, hinvoke⟩ := Classical.not_forall.1 hinvoke
    obtain rfl := Classical.not_not.1 hinvoke
    refine ⟨callable, rfl, ?_⟩
    rcases client.perform_invoke ho callable with hnil | ⟨args, answer, rest, hcalls, hrest, _⟩
    · rw [hnil] at hmem
      cases hmem
    · rw [hcalls] at hmem
      rcases List.mem_cons.1 hmem with rfl | hmem
      · exact (Option.some.inj hasks).symm
      · cases (hrest call hmem).symm.trans hasks

/-- Whether the turn is a start. -/
def Turn.isStart (turn : Turn) : Bool :=
  match turn.operation with
  | .start => true
  | _ => false

/-- The calls that the starts among some turns made. -/
def startCalls (turns : List Turn) : List Call := (turns.filter Turn.isStart).flatMap Turn.calls

theorem startCalls_concat (turns : List Turn) (turn : Turn) :
    startCalls (turns ++ [turn]) =
      startCalls turns ++ if turn.isStart = true then turn.calls else [] := by
  rw [startCalls, List.filter_append, List.flatMap_append, startCalls]
  cases hstart : turn.isStart <;> simp [hstart]

/-- In a run that began when `nextIdentity` was the next identity, starts call a provider until it
succeeds and not after that. -/
structure Retried (nextIdentity : Identity) (turns : List Turn) : Prop where
  /-- All starts together call an item with success at most once. -/
  success : ∀ item : Item,
    ((item.callsIn (startCalls turns)).filter fun call => !call.isFailure).length ≤ 1
  /-- If an item is called again, all its calls before that failed. -/
  again : ∀ item : Item,
    (item.callsIn (startCalls turns)).Pairwise fun earlier _ => earlier.isFailure = true
  /-- One start calls an item at most once. -/
  once : ∀ turn ∈ turns, turn.operation = .start → ∀ item : Item,
    (item.callsIn turn.calls).length ≤ 1
  /-- Other operations call no item, but for an invocation, which calls its callable under an
  identity of its own. -/
  elsewhere : ∀ turn ∈ turns, turn.operation ≠ .start → ∀ call ∈ turn.calls, ∀ item,
    call.item? = some item → ∃ callable identity, turn.operation = .invoke callable ∧
      nextIdentity ≤ identity ∧ item = .constructor ⟨identity, callable⟩

/-- Calls of which all but the last fail succeed at most once. -/
theorem length_success_le_one {calls : List Call}
    (h : calls.Pairwise fun earlier _ => earlier.isFailure = true) :
    (calls.filter fun call => !call.isFailure).length ≤ 1 := by
  have hsuccess := h.filter fun call => !call.isFailure
  have hmem : ∀ call ∈ calls.filter fun call => !call.isFailure, call.isFailure = false :=
    fun call hmem => by simpa using (List.mem_filter.1 hmem).2
  generalize (calls.filter fun call => !call.isFailure) = successes at hsuccess hmem
  match successes with
  | [] => exact Nat.zero_le 1
  | [_] => exact Nat.le_refl 1
  | first :: second :: rest =>
    have hfail := (List.pairwise_cons.1 hsuccess).1 second List.mem_cons_self
    exact Bool.noConfusion (hfail.symm.trans (hmem first List.mem_cons_self))

/-- Calls that all failed but for the last of each item, and the slots of the items that were called
with success are occupied. -/
structure Spent (calls : List Call) (s : Storage) : Prop where
  again : ∀ item : Item,
    (item.callsIn calls).Pairwise fun earlier _ => earlier.isFailure = true
  occupied : ∀ item : Item, ∀ call ∈ item.callsIn calls, call.isFailure = false →
    ∃ a, item.slot? = some a ∧ ¬ s.Free a

namespace Spent

variable {calls new : List Call} {st st' : Storage}

theorem nil (s : Storage) : Spent [] s := ⟨fun _ => .nil, nofun⟩

/-- Nothing else takes a slot back. -/
theorem endures (h : Spent calls st) (hendures : st.Endures st') : Spent calls st' := by
  refine ⟨h.again, fun item call hmem hok => ?_⟩
  obtain ⟨a, hslot, hoccupied⟩ := h.occupied item call hmem hok
  exact ⟨a, hslot, hendures.not_free hoccupied⟩

/-- The calls of a walk. -/
theorem append (h : Spent calls st) (hendures : st.Endures st')
    (honce : ∀ item, Scene.AskedOnce st ⟨st', new⟩ item) : Spent (calls ++ new) st' := by
  constructor
  · intro item
    rw [item.callsIn_append]
    rcases honce item with hnil | ⟨call, a, hone, hslot, hfree, _⟩
    · have hnil : item.callsIn new = [] := hnil
      rw [hnil, List.append_nil]
      exact h.again item
    · have hone : item.callsIn new = [call] := hone
      rw [hone]
      refine List.pairwise_append.2 ⟨h.again item, List.pairwise_singleton _ _, ?_⟩
      -- The slot of the item was free before the walk, so all calls before it failed.
      intro earlier hearlier _ _
      cases hok : earlier.isFailure with
      | true => rfl
      | false =>
        obtain ⟨b, hslot', hoccupied⟩ := h.occupied item earlier hearlier hok
        obtain rfl := Option.some.inj (hslot.symm.trans hslot')
        exact absurd hfree hoccupied
  · intro item call hmem hok
    rw [item.callsIn_append] at hmem
    rcases List.mem_append.1 hmem with hmem | hmem
    · exact (h.endures hendures).occupied item call hmem hok
    · rcases honce item with hnil | ⟨only, a, hone, hslot, _, hoccupied⟩
      · have hnil : item.callsIn new = [] := hnil
        rw [hnil] at hmem
        cases hmem
      · have hone : item.callsIn new = [only] := hone
        rw [hone] at hmem
        obtain rfl := List.mem_singleton.1 hmem
        exact ⟨a, hslot, hoccupied hok⟩

end Spent

variable {client} {turns : List Turn}

/-- A run spends the providers that it calls in its starts. -/
theorem Spent.run {w : World σ} {ops : List Operation}
    (h : Spent (startCalls turns) w.container.storage) (ho : w.container.InOrder) :
    Spent (startCalls (turns ++ client.play w ops)) (client.playOut w ops).container.storage := by
  refine Client.play_induction (p := fun turns c => Spent (startCalls turns) c.storage)
    (fun op _ turns w ho h => ?_) h ho
  obtain ⟨hstep, _, _⟩ := client.perform_step op ho
  obtain ⟨hendures, _⟩ := client.perform_endures w op
  rw [startCalls_concat]
  split
  · next hstart =>
    cases op with
    | start => exact h.append hendures (hstep.askedOnce ho.status)
    | _ => cases hstart
  · rw [List.append_nil]
    exact h.endures hendures

/-- What each turn of a run asks. -/
theorem Client.play_asks {w : World σ} {ops : List Operation} {nextIdentity : Identity}
    (ho : w.container.InOrder) (hidentity : nextIdentity ≤ w.nextIdentity) :
    ∀ turn ∈ client.play w ops,
      (turn.operation = .start → ∀ item : Item, (item.callsIn turn.calls).length ≤ 1) ∧
        (turn.operation ≠ .start → ∀ call ∈ turn.calls, ∀ item, call.item? = some item →
          ∃ callable identity, turn.operation = .invoke callable ∧ nextIdentity ≤ identity ∧
            item = .constructor ⟨identity, callable⟩) := by
  induction ops generalizing w with
  | nil => simp [Client.play]
  | cons op ops ih =>
    obtain ⟨hstep, hafter, ho'⟩ := client.perform_step op ho
    obtain ⟨_, hidentity'⟩ := client.perform_endures w op
    intro turn hmem
    rcases List.mem_cons.1 hmem with rfl | hmem
    · refine ⟨fun hop item => ?_, fun hop call hcall item hasks => ?_⟩
      · obtain rfl : op = .start := hop
        rcases hstep.askedOnce ho.status item with hnil | ⟨call, a, hone, _⟩
        · exact (congrArg List.length hnil).trans_le (Nat.zero_le 1)
        · exact (congrArg List.length hone).le
      · obtain ⟨callable, hinvoke, hitem⟩ := client.perform_asks ho hop hcall hasks
        exact ⟨callable, _, hinvoke, hidentity, hitem⟩
    · exact ih (hafter ▸ ho') (Nat.le_trans hidentity hidentity') turn hmem

/-- Whatever is done to a new container and whatever the program answers, starts call each constructor
and each template until it succeeds, at most once in each start, and never again after that. -/
theorem Client.starts_retry (client : Client σ) (config : ContainerConfig) (context : Context)
    (token : Token) (nextIdentity : Identity) (host : σ) (ops : List Operation) :
    Retried nextIdentity
      (client.play (.fresh config context token nextIdentity host) ops) := by
  have ho : (World.fresh config context token nextIdentity host).container.InOrder :=
    Container.new_inOrder config context token
  have hstart : Spent (startCalls [])
      (World.fresh config context token nextIdentity host).container.storage := .nil _
  have hspent : Spent (startCalls ([] ++ client.play _ ops)) _ := hstart.run ho
  rw [List.nil_append] at hspent
  have hasks : ∀ turn ∈ client.play (.fresh config context token nextIdentity host) ops, _ :=
    Client.play_asks ho (Nat.le_refl nextIdentity)
  exact ⟨fun item => length_success_le_one (hspent.again item), hspent.again,
    fun turn hmem => (hasks turn hmem).1, fun turn hmem => (hasks turn hmem).2⟩

end Wiring
