import Wiring.Component
import Wiring.Error

/-!
# History of services

The history keeps a record of every started service, oldest first. Records before `floor` belong to
runs that are over; `cursor` stands one past the current record. A history takes records only
while it is on, and it is unwound only while it is stopping, which turns it off again.
-/

namespace Wiring

/-- Whether a history takes records (`on`), is about to be unwound (`stopping`) or rests (`off`). -/
inductive Switch where
  | off
  | on
  | stopping
  deriving DecidableEq, Repr, Inhabited

/-- The word for a switch position. -/
def Switch.name : Switch → String
  | off => "Off"
  | on => "On"
  | stopping => "Stopping"

/-- A started service and the label it was started under. -/
structure Record where
  label : String
  service : Service
  deriving DecidableEq, Repr, Inhabited

/-- The records of all runs, and which of them are live. -/
structure History where
  records : List Record
  floor : Nat
  cursor : Nat
  switch : Switch
  deriving DecidableEq, Repr, Inhabited

namespace History

/-- The history before any run. -/
def empty : History := ⟨[], 0, 0, .off⟩

/-- Moves the cursor behind the latest record. -/
def rewindToLatest (h : History) : History := { h with cursor := h.records.length }

/-- Moves the cursor to the earliest live record. -/
def rewindToEarliest (h : History) : History := { h with cursor := h.floor }

/-- Turns the history on, unless a run is still to be stopped or being stopped. -/
def turnOn (h : History) : Except Error History :=
  match h.switch with
  | .off => .ok { h with switch := .on }
  | .on => .error (.trackerState "stop required after failed start")
  | .stopping => .error (.trackerState "cannot turn on while stopping")

/-- Begins to stop a history that is on; `none` if it is not. -/
def beginStop? (h : History) : Option History :=
  match h.switch with
  | .on => some { h with switch := .stopping }
  | _ => none

/-- Appends a record to a history that is on. -/
def record (h : History) (r : Record) : Except Error History :=
  match h.switch with
  | .on => .ok { h with records := h.records ++ [r] }.rewindToLatest
  | _ => .error (.trackerState "record requires a running tracker")

/-- Walks the cursor back to the floor: the records passed, latest first. -/
def walkBack (h : History) : List Record := ((h.records.take h.cursor).drop h.floor).reverse

/-- Takes the live records out of a history that is stopping, latest first, and turns it off. -/
def unwind (h : History) : Except Error (List Record × History) :=
  match h.switch with
  | .stopping =>
    let h := h.rewindToLatest
    .ok (h.walkBack, { h with floor := h.records.length, switch := .off })
  | _ => .error (.trackerState "unwind requires a stopping tracker")

/-- The labels of the live records, oldest first. Listing them walks the cursor to the end. -/
def labels (h : History) : List String × History :=
  let h := h.rewindToEarliest
  ((h.records.drop h.cursor).map Record.label, h.rewindToLatest)

/-- The number of live records. -/
def length (h : History) : Nat := h.records.length - h.floor

end History

end Wiring
