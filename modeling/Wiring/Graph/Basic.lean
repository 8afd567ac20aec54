import Wiring.Address
import Wiring.Table

/-!
# Dependency graphs

The nodes of a dependency graph are addresses and one synthetic root. An edge from `a` to `b` says
that `a` must exist before `b`; whatever needs nothing else hangs off the root. Nodes and the
successors of a node are listed in ascending order, the root first.
-/

namespace Wiring

/-- A node of a dependency graph. -/
inductive Node where
  /-- Needs nothing; what has no prerequisite comes after it. -/
  | root
  /-- The slot at an address. -/
  | key (address : Address)
  deriving DecidableEq, Repr, Inhabited

namespace Node

/-- The root comes before every address, and addresses keep their own order. -/
def before : Node → Node → Bool
  | root, root => false
  | root, key _ => true
  | key _, root => false
  | key a, key b => a < b

instance : LT Node := ⟨fun m n => m.before n = true⟩

instance : DecidableLT Node := fun m n => inferInstanceAs (Decidable (m.before n = true))

@[simp] theorem not_lt_root (n : Node) : ¬ n < root := by
  cases n <;> exact Bool.false_ne_true

@[simp] theorem root_lt_key (a : Address) : root < key a := rfl

@[simp] theorem key_lt_key {a b : Address} : key a < key b ↔ a < b := decide_eq_true_iff

instance : Std.Irrefl (α := Node) (· < ·) where
  irrefl
    | root => not_lt_root root
    | key a => fun h => Std.Irrefl.irrefl (r := (· < ·)) a (key_lt_key.1 h)

instance : Trans (α := Node) (· < ·) (· < ·) (· < ·) where
  trans {l m n} hlm hmn := by
    cases n with
    | root => exact absurd hmn (not_lt_root m)
    | key c =>
      cases m with
      | root => exact absurd hlm (not_lt_root l)
      | key b =>
        cases l with
        | root => exact root_lt_key c
        | key a => exact key_lt_key.2 (Trans.trans (key_lt_key.1 hlm) (key_lt_key.1 hmn))

instance : Std.Trichotomous (α := Node) (· < ·) where
  trichotomous m n hmn hnm := by
    cases m with
    | root =>
      cases n with
      | root => rfl
      | key b => exact absurd (root_lt_key b) hmn
    | key a =>
      cases n with
      | root => exact absurd (root_lt_key a) hnm
      | key b =>
        exact congrArg key (Std.Trichotomous.trichotomous (r := (· < ·)) a b
          (fun h => hmn (key_lt_key.2 h)) (fun h => hnm (key_lt_key.2 h)))

/-- The address of a node, unless it is the root. -/
def address? : Node → Option Address
  | root => none
  | key a => some a

/-- The text that shows a node. -/
def label : Node → String
  | root => "ROOT"
  | key a => a.text

end Node

/-- A directed graph over nodes, given by the successors of each node. -/
structure Graph where
  successors : Table Node (List Node)
  deriving Repr, Inhabited

namespace Graph

/-- The graph without nodes. -/
def empty : Graph := ⟨.empty⟩

/-- The nodes, ascending. -/
def nodes (g : Graph) : List Node := g.successors.keys

/-- The successors of a node, ascending. -/
def next (g : Graph) (node : Node) : List Node := (g.successors.get? node).getD []

/-- The edges, in ascending order of their sources and then of their targets. -/
def edges (g : Graph) : List (Node × Node) :=
  g.successors.rows.flatMap fun row => row.2.map fun target => (row.1, target)

/-- The number of edges. -/
def edgeCount (g : Graph) : Nat := g.edges.length

/-- Adds a node without edges, unless it is there already. -/
def addNode (g : Graph) (node : Node) : Graph :=
  match g.successors.get? node with
  | some _ => g
  | none => ⟨g.successors.put node []⟩

/-- Adds an edge, and its ends if they are not nodes yet. -/
def addEdge (g : Graph) (source target : Node) : Graph :=
  let g := g.addNode target
  ⟨g.successors.put source (insertAscending target (g.next source))⟩

/-- Adds several edges, one after the other. -/
def addEdges (g : Graph) (edges : List (Node × Node)) : Graph :=
  edges.foldl (fun g edge => g.addEdge edge.1 edge.2) g

end Graph

end Wiring
