import Wiring.Proofs.Simulation

/-!
# Transparency of the record

The runs of this development write down the calls that a container makes. `Client.perform_forget`
states that this changes nothing: an operation comes to the same result and leaves the same world
whether its calls are written down or not, for every program that cannot reach the container. To
forget the record is a relation that the callbacks keep (`Client.recorded_simulates`), hence so does
each operation.
-/

namespace Wiring

open World

variable {σ α : Type}

@[simp] theorem World.forget_unrecorded (w : World σ) : w.unrecorded.forget = w := rfl

/-- A computation with a record does what another one does without it. -/
def World.Mirrors (x : StateM (World (Recorded σ)) α) (y : StateM (World σ) α) : Prop :=
  ∀ w, y w.forget = ((x w).1, (x w).2.forget)

/-- An action with a record does what another one does without it. -/
def Action.Mirrors (x : Action (Recorded σ) α) (y : Action σ α) : Prop :=
  World.Mirrors x.run y.run

/-- A callback does the same whether its calls are written down or not. -/
theorem World.recording_simulates (callback : StateM σ α) (call : Container → α → Call) :
    World.Simulates (fun w w' => w' = w.forget) (World.recording callback call)
      (World.onHost callback) := by
  rintro w _ rfl
  exact ⟨rfl, rfl⟩

/-- Nothing that an operation does depends on the record. -/
theorem Client.recorded_simulates (client : Client σ) :
    Client.Simulates (fun w w' => w' = w.forget) client.recorded client.lift where
  container := by
    rintro w _ rfl
    rfl
  nextIdentity := by
    rintro w _ rfl
    rfl
  change := by
    rintro w _ rfl c _
    rfl
  announce := by
    rintro w _ rfl notice
    rfl
  identify := by
    rintro w _ rfl
    rfl
  construct _ _ _ _ hw _ := World.recording_simulates _ _ hw
  supply _ _ := World.recording_simulates _ _
  assemble _ _ _ _ _ hw _ := World.recording_simulates _ _ hw
  up _ _ := World.recording_simulates _ _
  down _ := World.recording_simulates _ _

theorem Operation.act_mirrors (client : Client σ) (op : Operation) :
    Action.Mirrors (op.act client.recorded) (op.act client.lift) := by
  intro w
  obtain ⟨hresult, hworld⟩ := op.act_simulates client.recorded_simulates (w := w) rfl
  exact Prod.ext hresult hworld

/-- Writing the calls down changes neither the result of an operation nor the world it leaves. -/
theorem Client.perform_forget (client : Client σ) (w : World σ) (op : Operation) :
    (op.act client.lift).outcome w = ((client.perform w op).1.result, (client.perform w op).2) :=
  op.act_mirrors client w.unrecorded

/-- The world after operations performed one after the other is that of a run without a record. -/
theorem Client.playOut_forget (client : Client σ) (w : World σ) (ops : List Operation) :
    client.playOut w ops = ops.foldl (fun w op => ((op.act client.lift).outcome w).2) w := by
  simp only [Client.perform_forget]
  rfl

end Wiring
