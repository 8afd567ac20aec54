import Wiring.Error
import Wiring.Graph.Cycle

/-!
# Order of a graph

`Graph.order` lists the addresses of a graph so that each one stands behind everything that must
exist before it. A sweep starts from the nodes without incoming edges and places them in the order
in which they were queued; placing a node releases its successors, and a node whose last incoming
edge is released joins the end of the queue. A graph with a cycle has no order, and the error
names the cycle.
-/

namespace Wiring

/-- A sweep under way: how many incoming edges of each node are not released yet, the nodes that
wait to be placed, and the placed nodes, both oldest first. -/
structure Sweep where
  pending : Table Node Nat
  queue : List Node
  placed : List Node
  deriving Repr, Inhabited

namespace Sweep

/-- The sweep before its first step: no edge is released, and the nodes without incoming edges wait
in ascending order. -/
def start (g : Graph) : Sweep :=
  let targets := g.edges.map (·.2)
  let incoming := g.nodes.map fun node => (node, targets.count node)
  { pending := ⟨incoming⟩
    queue := (incoming.filter fun row => row.2 = 0).map (·.1)
    placed := [] }

/-- Releases one edge into `target`. -/
def release (s : Sweep) (target : Node) : Sweep :=
  match s.pending.get? target with
  | none => s
  | some count =>
    { s with
      pending := s.pending.update target fun _ => count - 1
      queue := if count - 1 = 0 then s.queue ++ [target] else s.queue }

/-- Places the first waiting node and releases its successors; `none` if no node waits. -/
def advance? (g : Graph) (s : Sweep) : Option Sweep :=
  match s.queue with
  | [] => none
  | node :: queue =>
    some ((g.next node).foldl release { s with queue, placed := s.placed ++ [node] })

/-- Advances until no node waits. Every step places a node, and none twice, so the number of nodes
is fuel enough. -/
def run (g : Graph) : Nat → Sweep → Sweep
  | 0, s => s
  | fuel + 1, s =>
    match s.advance? g with
    | none => s
    | some s => run g fuel s

end Sweep

namespace Graph

/-- The nodes in the order of the sweep. -/
def swept (g : Graph) : List Node := ((Sweep.start g).run g g.nodes.length).placed

/-- The addresses in an order in which each stands behind what must exist before it. -/
def order (g : Graph) : Except Error (List Address) :=
  match g.cycle? with
  | some path => .error (.cycle (path.map Node.label))
  | none =>
    let placed := g.swept
    if placed.length = g.nodes.length then .ok (placed.filterMap Node.address?)
    else
      .error (.graphCalculation
        ("ordered " ++ toString placed.length ++ " of " ++ toString g.nodes.length ++ " nodes"))

end Graph

end Wiring
