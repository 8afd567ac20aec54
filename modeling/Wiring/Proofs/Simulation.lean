import Wiring.Proofs.Endurance
import Wiring.Proofs.Recording

/-!
# Relations between worlds that operations keep

`Client.Simulates R` says that the callbacks of two programs keep a relation `R` between worlds, and
that `R` allows all else that an operation does to a world: to read the container, to change it so
that its storage accrues, to give notices and identities. Then every operation keeps `R` and comes to
the same result on both sides (`Operation.act_simulates`). A callback is only asked to keep `R` where
it is called: with arguments or field values that the storage of the world has. A property of one
world that all operations keep is the special case of a relation with itself.
-/

namespace Wiring

open World

variable {σ τ α β : Type} {R : World σ → World τ → Prop}

/-! ## Computations -/

/-- Two computations from related worlds come to the same result and leave related worlds. -/
def World.Simulates (R : World σ → World τ → Prop) (x : StateM (World σ) α)
    (y : StateM (World τ) α) : Prop :=
  ∀ ⦃w w'⦄, R w w' → (y w').1 = (x w).1 ∧ R (x w).2 (y w').2

namespace World.Simulates

theorem pure (a : α) : Simulates R (Pure.pure a) (Pure.pure a) := fun _ _ hw => ⟨rfl, hw⟩

theorem bind {x : StateM (World σ) α} {y : StateM (World τ) α} {f : α → StateM (World σ) β}
    {g : α → StateM (World τ) β} (h : Simulates R x y) (hnext : ∀ a, Simulates R (f a) (g a)) :
    Simulates R (x >>= f) (y >>= g) := by
  intro w w' hw
  obtain ⟨hresult, hw₁⟩ := h hw
  show (g (y w').1 (y w').2).1 = _ ∧ R _ (g (y w').1 (y w').2).2
  rw [hresult]
  exact hnext (x w).1 hw₁

end World.Simulates

/-- Two actions from related worlds come to the same result and leave related worlds. -/
def Action.Simulates (R : World σ → World τ → Prop) (x : Action σ α) (y : Action τ α) : Prop :=
  World.Simulates R x.run y.run

namespace Action.Simulates

theorem pure (a : α) : Simulates R (Pure.pure a) (Pure.pure a) := fun _ _ hw => ⟨rfl, hw⟩

theorem throw (e : Error) :
    Simulates (α := α) R (MonadExcept.throw e) (MonadExcept.throw e) := fun _ _ hw => ⟨rfl, hw⟩

theorem ofExcept (r : Except Error α) : Simulates R (liftExcept r) (liftExcept r) := by
  cases r <;> exact fun _ _ hw => ⟨rfl, hw⟩

theorem lift {x : StateM (World σ) α} {y : StateM (World τ) α} (h : World.Simulates R x y) :
    Simulates R (ExceptT.lift x) (ExceptT.lift y) :=
  h.bind fun _ => .pure _

theorem attempt {x : Action σ α} {y : Action τ α} (h : Simulates R x y) :
    Simulates R x.attempt y.attempt :=
  .lift h

theorem bind {x : Action σ α} {y : Action τ α} {f : α → Action σ β} {g : α → Action τ β}
    (h : Simulates R x y) (hnext : ∀ a, Simulates R (f a) (g a)) :
    Simulates R (x >>= f) (y >>= g) := by
  unfold Simulates
  rw [ExceptT.run_bind, ExceptT.run_bind]
  refine World.Simulates.bind h fun r => ?_
  cases r with
  | ok a => exact hnext a
  | error e => exact .pure _

theorem ite {c : Prop} [Decidable c] {x x' : Action σ α} {y y' : Action τ α}
    (h : Simulates R x y) (h' : Simulates R x' y') :
    Simulates R (if c then x else x') (if c then y else y') := by
  split
  · exact h
  · exact h'

/-- It is enough to compare the outcomes. -/
theorem of_outcome {x : Action σ α} {y : Action τ α}
    (h : ∀ ⦃w w'⦄, R w w' →
      (y.outcome w').1 = (x.outcome w).1 ∧ R (x.outcome w).2 (y.outcome w').2) :
    Simulates R x y := h

theorem outcome {x : Action σ α} {y : Action τ α} (h : Simulates R x y) ⦃w : World σ⦄ ⦃w' : World τ⦄
    (hw : R w w') : (y.outcome w').1 = (x.outcome w).1 ∧ R (x.outcome w).2 (y.outcome w').2 := h hw

theorem get {f : World σ → Action σ α} {g : World τ → Action τ α}
    (h : ∀ ⦃w w'⦄, R w w' → Simulates R (f w) (g w')) :
    Simulates R (MonadState.get >>= f) (MonadState.get >>= g) :=
  fun _ _ hw => h hw hw

end Action.Simulates

/-! ## Programs -/

/-- The callbacks of two programs keep a relation between worlds, and so does what an operation does
to a world besides. -/
structure Client.Simulates (R : World σ → World τ → Prop) (client : Client (World σ))
    (client' : Client (World τ)) : Prop where
  container : ∀ ⦃w w'⦄, R w w' → w'.container = w.container
  nextIdentity : ∀ ⦃w w'⦄, R w w' → w'.nextIdentity = w.nextIdentity
  change : ∀ ⦃w w'⦄, R w w' → ∀ c : Container, w.container.storage.Accrues c.storage →
    R { w with container := c } { w' with container := c }
  announce : ∀ ⦃w w'⦄, R w w' → ∀ notice,
    R { w with notices := w.notices ++ [notice] } { w' with notices := w'.notices ++ [notice] }
  identify : ∀ ⦃w w'⦄, R w w' →
    R { w with nextIdentity := w.nextIdentity + 1 } { w' with nextIdentity := w'.nextIdentity + 1 }
  construct : ∀ ⦃w w' c args⦄, R w w' →
    w.container.storage.arguments c.callable.params = .ok args →
      (client'.construct c args w').1 = (client.construct c args w).1 ∧
        R (client.construct c args w).2 (client'.construct c args w').2
  supply : ∀ c position, World.Simulates R (client.supply c position) (client'.supply c position)
  assemble : ∀ ⦃w w' t a values⦄, R w w' →
    w.container.storage.fillFields t.fields (.empty a) = .ok values →
      (client'.assemble t values w').1 = (client.assemble t values w).1 ∧
        R (client.assemble t values w).2 (client'.assemble t values w').2
  up : ∀ service signal, World.Simulates R (client.up service signal) (client'.up service signal)
  down : ∀ service, World.Simulates R (client.down service) (client'.down service)

namespace Client.Simulates

variable {client : Client (World σ)} {client' : Client (World τ)} (h : Client.Simulates R client client')

include h

theorem announces (notice : Notice) :
    World.Simulates R (World.announce notice) (World.announce notice) :=
  fun _ _ hw => ⟨rfl, h.announce hw notice⟩

theorem reports (notice : Notice) :
    Action.Simulates R (World.announce notice) (World.announce notice) :=
  fun _ _ hw => ⟨rfl, h.announce hw notice⟩

/-- A change of the container in which every storage accrues. -/
theorem changes {f : Container → Container} (hf : ∀ c : Container, c.storage.Accrues (f c).storage) :
    Action.Simulates R (World.change f) (World.change f) := by
  intro w w' hw
  refine ⟨rfl, ?_⟩
  show R { w with container := f w.container } { w' with container := f w'.container }
  rw [h.container hw]
  exact h.change hw _ (hf w.container)

/-- A change of the container that leaves its storage alone. -/
theorem touches {f : Container → Container} (hf : ∀ c : Container, (f c).storage = c.storage) :
    Action.Simulates R (World.change f) (World.change f) :=
  h.changes fun c => by
    rw [hf c]
    exact .refl _

theorem identifies : Action.Simulates R freshIdentity freshIdentity :=
  .of_outcome fun _ _ hw => ⟨congrArg Except.ok (h.nextIdentity hw), h.identify hw⟩

/-- The storage is read, and replaced by one to which it accrues. -/
theorem stores {f : Storage → Except Error Storage} (hf : ∀ s s', f s = .ok s' → s.Accrues s')
    {x : Action σ α} {y : Action τ α} (hnext : Action.Simulates R x y) :
    Action.Simulates R
      (do
        let storage ← liftExcept (f (← get).container.storage)
        setStorage storage
        x)
      (do
        let storage ← liftExcept (f (← get).container.storage)
        setStorage storage
        y) := by
  refine .of_outcome fun w w' hw => ?_
  simp only [Action.outcome_bind, Action.outcome_get, Action.outcome_liftExcept, h.container hw]
  cases hstored : f w.container.storage with
  | error e => exact ⟨rfl, hw⟩
  | ok s =>
    simp only [Action.outcome_setStorage, h.container hw]
    exact hnext (h.change hw { w.container with storage := s } (hf _ _ hstored))

/-- A callback is called with what the storage answers. -/
theorem asks {γ : Type} {f : Storage → Except Error γ} {x : γ → StateM (World σ) β}
    {y : γ → StateM (World τ) β}
    (hasks : ∀ ⦃w w' a⦄, R w w' → f w.container.storage = .ok a →
      (y a w').1 = (x a w).1 ∧ R (x a w).2 (y a w').2)
    {k : β → Action σ α} {k' : β → Action τ α} (hnext : ∀ b, Action.Simulates R (k b) (k' b)) :
    Action.Simulates R
      (do
        let a ← liftExcept (f (← get).container.storage)
        k (← ExceptT.lift (x a)))
      (do
        let a ← liftExcept (f (← get).container.storage)
        k' (← ExceptT.lift (y a))) := by
  refine .of_outcome fun w w' hw => ?_
  simp only [Action.outcome_bind, Action.outcome_get, Action.outcome_liftExcept,
    h.container hw]
  cases hanswer : f w.container.storage with
  | error e => exact ⟨rfl, hw⟩
  | ok a =>
    obtain ⟨hresult, hw₁⟩ := hasks hw hanswer
    simp only [Action.outcome_lift, hresult]
    exact hnext _ hw₁

end Client.Simulates

/-! ## Services -/

namespace Container

variable {client : Client (World σ)} {client' : Client (World τ)} (h : Client.Simulates R client client')

include h

theorem recordAndStart_simulates (label : String) (service : Service) :
    Action.Simulates R (recordAndStart client label service)
      (recordAndStart client' label service) := by
  refine .get fun w w' hw => ?_
  dsimp only
  rw [h.container hw]
  cases w.container.history.record ⟨label, service⟩ with
  | error e => exact .throw e
  | ok history =>
    refine .bind (h.touches fun _ => rfl) fun _ => .bind (.lift (h.up _ _)) fun r => ?_
    cases r with
    | ok _ => exact .pure ()
    | error fault => exact .throw _

theorem stopRecords_simulates (records : List Record) :
    World.Simulates R (stopRecords client records) (stopRecords client' records) := by
  induction records with
  | nil => exact .pure []
  | cons record rest ih =>
    refine .bind (h.down _) fun r => ?_
    cases r with
    | ok _ => exact ih
    | error fault => exact .bind (h.announces _) fun _ => ih.bind fun _ => .pure _

theorem unwindAll_simulates : Action.Simulates R (unwindAll client) (unwindAll client') := by
  refine .get fun w w' hw => ?_
  rw [h.container hw]
  cases w.container.history.unwind with
  | error e => exact .throw e
  | ok unwound =>
    refine .bind (h.touches fun _ => rfl) fun _ =>
      .bind (.lift (stopRecords_simulates h _)) fun failures => ?_
    cases failures with
    | nil => exact .pure ()
    | cons => exact .throw _

theorem startService_simulates (a : Address) (service : Service) :
    Action.Simulates R (startService client a service) (startService client' a service) :=
  .bind (recordAndStart_simulates h _ _) fun _ =>
    h.changes fun _ => .setService _ a .runningUp

/-! ## Resolution -/

theorem absorb_simulates (c : Component) :
    Action.Simulates R (absorb client c) (absorb client' c) := by
  refine h.stores (f := fun s => s.insertProduct c) (fun _ _ => .insertProduct) ?_
  cases c.type.slot? with
  | none => exact .pure ()
  | some a =>
    cases c.service? with
    | none => exact .pure ()
    | some service => exact startService_simulates h a service

theorem absorbAll_simulates (cs : List Component) :
    Action.Simulates R (absorbAll client cs) (absorbAll client' cs) := by
  induction cs with
  | nil => exact .pure ()
  | cons c rest ih => exact .bind (absorb_simulates h c) fun _ => ih

theorem supplyFrom_simulates (c : Constructor) (position : Nat) (outputs : List ComponentType) :
    World.Simulates R (supplyFrom client c position outputs)
      (supplyFrom client' c position outputs) := by
  induction outputs generalizing position with
  | nil => exact .pure []
  | cons t rest ih => exact .bind (h.supply c position) fun _ => (ih _).bind fun _ => .pure _

/-- A constructor is called with arguments that the storage has. -/
theorem call_simulates (c : Constructor) :
    Action.Simulates R (call client c) (call client' c) := by
  refine h.asks (f := fun s => s.arguments c.callable.params) (x := client.construct c)
    (y := client'.construct c) (fun _ _ _ hw hargs => h.construct hw hargs) fun r => ?_
  cases r with
  | ok _ => exact .lift (supplyFrom_simulates h c 0 _)
  | error fault => exact .throw _

theorem runTemplate_simulates (a : Address) (t : Template) :
    Action.Simulates R (runTemplate client a t) (runTemplate client' a t) := by
  refine h.asks (f := fun s => s.fillFields t.fields (.empty a)) (x := client.assemble t)
    (y := client'.assemble t) (fun _ _ _ hw hvalues => h.assemble hw hvalues) fun r => ?_
  cases r with
  | ok product => exact absorb_simulates h _
  | error e => exact .throw _

theorem runConstructor_simulates (a : Address) (c : Constructor) :
    Action.Simulates R (runConstructor client a c) (runConstructor client' a c) :=
  .bind (call_simulates h c) fun _ =>
    .bind (h.changes fun _ => .markResolved _ a) fun _ =>
      absorbAll_simulates h _

theorem settle_simulates (e : Entry) :
    Action.Simulates R (settle client e) (settle client' e) := by
  refine .ite (.throw _) (.ite (.ite ?_ (.pure ())) ?_)
  · cases e.service? with
    | none => exact .throw _
    | some service => exact startService_simulates h e.address service
  · cases e.payload with
    | constructor c => exact runConstructor_simulates h e.address c
    | template t => exact runTemplate_simulates h e.address t
    | value c => exact .pure ()

theorem settleAll_simulates (order : List Address) :
    Action.Simulates R (settleAll client order) (settleAll client' order) := by
  induction order with
  | nil => exact .pure ()
  | cons a rest ih =>
    refine .get fun w w' hw => ?_
    rw [h.container hw]
    cases w.container.storage.get? a with
    | none => exact .bind (.pure ()) fun _ => ih
    | some e => exact .bind (settle_simulates h e) fun _ => ih

theorem resolveAll_simulates : Action.Simulates R (resolveAll client) (resolveAll client') := by
  refine .get fun w w' hw => ?_
  dsimp only
  rw [h.container hw]
  refine .bind (.ofExcept _) fun _ => .bind (h.touches fun _ => rfl) fun _ =>
    .bind (.ofExcept _) fun order => ?_
  have hsettle := (settleAll_simulates h order).bind fun _ =>
    h.touches (f := fun c => { c with history := c.history.rewindToLatest }) fun _ => rfl
  split
  · exact .bind (h.reports _) fun _ => hsettle
  · exact hsettle

/-! ## Operations -/

theorem addItems_simulates (items : List Item) :
    Action.Simulates R (addItems items) (addItems items) := by
  induction items with
  | nil => exact .pure ()
  | cons item rest ih => exact h.stores (f := fun s => s.add item) (fun _ _ => .add) ih

theorem register_simulates (items : List Item) :
    Action.Simulates R (register items) (register items) := by
  refine .get fun w w' hw => ?_
  rw [h.container hw]
  exact .ite (.throw _) (addItems_simulates h items)

theorem start_simulates : Action.Simulates R (start client) (start client') := by
  refine .get fun w w' hw => ?_
  dsimp only
  rw [h.container hw]
  refine .ite (.throw _) (.bind (h.touches fun _ => rfl) fun _ =>
    .bind (.attempt (resolveAll_simulates h)) fun r => ?_)
  cases r with
  | ok _ =>
    refine .get fun v v' hv => ?_
    rw [h.container hv]
    exact h.reports _
  | error e => exact .bind (h.touches fun _ => rfl) fun _ => .bind (h.reports _) fun _ => .throw _

theorem startOutputs_simulates (cs : List Component) :
    Action.Simulates R (startOutputs client cs) (startOutputs client' cs) := by
  induction cs with
  | nil => exact .pure ()
  | cons c rest ih =>
    unfold startOutputs
    cases c.service? with
    | none => exact .bind (.pure ()) fun _ => ih
    | some service => exact .bind (recordAndStart_simulates h _ _) fun _ => ih

theorem invoke_simulates (callable : Callable) :
    Action.Simulates R (invoke client callable) (invoke client' callable) := by
  refine .get fun w w' hw => ?_
  rw [h.container hw]
  exact .ite (.bind h.identifies fun _ => .bind (call_simulates h _) fun _ =>
    startOutputs_simulates h _) (.throw _)

theorem stop_simulates : Action.Simulates R (stop client) (stop client') := by
  refine .get fun w w' hw => ?_
  dsimp only
  rw [h.container hw]
  refine .bind (h.touches fun _ => rfl) fun _ => ?_
  cases w.container.history.beginStop? with
  | none => exact .pure ()
  | some history =>
    exact .bind (h.touches fun _ => rfl) fun _ => .bind (h.reports _) fun _ =>
      .bind (.attempt (unwindAll_simulates h)) fun r =>
        .bind (h.changes fun _ => .resetRunning _) fun _ => .ofExcept r

theorem resolve_simulates (type : ComponentType) :
    Action.Simulates R (resolve type) (resolve type) := by
  refine .get fun w w' hw => ?_
  rw [h.container hw]
  refine .ite (.bind (.ofExcept _) fun found => ?_) (.throw _)
  dsimp only
  cases found.2.share? type with
  | none => exact .throw _
  | some object => exact .pure _

end Container

/-- An operation keeps every relation that the callbacks keep. -/
theorem Operation.act_simulates {client : Client (World σ)} {client' : Client (World τ)}
    (h : Client.Simulates R client client') (op : Operation) :
    Action.Simulates R (op.act client) (op.act client') := by
  cases op with
  | register items => exact .bind (Container.register_simulates h items) fun _ => .pure _
  | start => exact .bind (Container.start_simulates h) fun _ => .pure _
  | invoke callable => exact .bind (Container.invoke_simulates h callable) fun _ => .pure _
  | resolve type => exact .bind (Container.resolve_simulates h type) fun _ => .pure _
  | stop => exact .bind (Container.stop_simulates h) fun _ => .pure _

end Wiring
