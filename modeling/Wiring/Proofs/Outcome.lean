import Wiring.Container

/-!
# Outcomes of actions

`Action.outcome` is what an action comes to on a world: its result and the world it leaves. The
lemmas compute it, one for each way in which actions are built. From them every operation of a
container is opened once, and nothing else looks into an action.
-/

namespace Wiring

open World

variable {σ α β : Type}

/-- How an action ends on a world, and the world it leaves. -/
def Action.outcome (action : Action σ α) (w : World σ) : Except Error α × World σ :=
  action.run.run w

namespace Action

@[simp] theorem outcome_pure (a : α) (w : World σ) :
    (pure a : Action σ α).outcome w = (.ok a, w) := rfl

@[simp] theorem outcome_throw (e : Error) (w : World σ) :
    (throw e : Action σ α).outcome w = (.error e, w) := rfl

/-- An action goes on where the one before it succeeded. -/
@[simp] theorem outcome_bind (x : Action σ α) (f : α → Action σ β) (w : World σ) :
    (x >>= f).outcome w = match x.outcome w with
      | (.ok a, w') => (f a).outcome w'
      | (.error e, w') => (.error e, w') := by
  cases h : x.outcome w with
  | mk r w' =>
    unfold outcome at h ⊢
    rw [ExceptT.run_bind, StateT.run_bind, h]
    cases r <;> rfl

/-- An action whose answer gives way to another. -/
theorem outcome_bind_pure (x : Action σ α) (b : β) (w : World σ) :
    (x >>= fun _ => pure b).outcome w = ((x.outcome w).1.map fun _ => b, (x.outcome w).2) := by
  rw [outcome_bind]
  obtain ⟨_ | _, w'⟩ := x.outcome w <;> rfl

@[simp] theorem outcome_get (w : World σ) :
    (get : Action σ (World σ)).outcome w = (.ok w, w) := rfl

@[simp] theorem outcome_change (f : Container → Container) (w : World σ) :
    (change f : Action σ Unit).outcome w = (.ok (), { w with container := f w.container }) := rfl

@[simp] theorem outcome_setStorage (s : Storage) (w : World σ) :
    (setStorage s : Action σ Unit).outcome w =
      (.ok (), { w with container := { w.container with storage := s } }) := rfl

@[simp] theorem outcome_setHistory (h : History) (w : World σ) :
    (setHistory h : Action σ Unit).outcome w =
      (.ok (), { w with container := { w.container with history := h } }) := rfl

@[simp] theorem outcome_setRunning (b : Bool) (w : World σ) :
    (setRunning b : Action σ Unit).outcome w =
      (.ok (), { w with container := { w.container with running := b } }) := rfl

@[simp] theorem outcome_announce (n : Notice) (w : World σ) :
    (announce n : Action σ Unit).outcome w = (.ok (), { w with notices := w.notices ++ [n] }) :=
  rfl

@[simp] theorem outcome_freshIdentity (w : World σ) :
    (freshIdentity : Action σ Identity).outcome w =
      (.ok w.nextIdentity, { w with nextIdentity := w.nextIdentity + 1 }) := rfl

@[simp] theorem outcome_liftExcept (r : Except Error α) (w : World σ) :
    (liftExcept r : Action σ α).outcome w = (r, w) := by
  cases r <;> rfl

@[simp] theorem outcome_liftM (x : StateM (World σ) α) (w : World σ) :
    (liftM x : Action σ α).outcome w = (.ok (x w).1, (x w).2) := rfl

@[simp] theorem outcome_lift (x : StateM (World σ) α) (w : World σ) :
    Action.outcome (ExceptT.lift x : Action σ α) w = (.ok (x w).1, (x w).2) := rfl

@[simp] theorem outcome_attempt (x : Action σ α) (w : World σ) :
    x.attempt.outcome w = (.ok (x.outcome w).1, (x.outcome w).2) := rfl

end Action

end Wiring
