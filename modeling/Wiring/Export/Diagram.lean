import Wiring.Export.Snapshot
import Wiring.Export.Yaml

/-!
# Diagrams

A snapshot is drawn in the language of Graphviz or of Mermaid, one statement for each node and each
edge. Labels stand between double quotes; a quote inside a label is marked by a backslash.
`Snapshot.render` writes a snapshot in any of the formats.
-/

namespace Wiring.Export

/-- The formats in which a snapshot is written. -/
inductive Format where
  | json
  | yaml
  | dot
  | mermaid
  deriving DecidableEq, Repr, Inhabited

namespace Diagram

/-- A label as it stands between double quotes. -/
def escape (label : List Char) : List Char :=
  label.flatMap fun c => if c = '\x22' then ['\x5c', '\x22'] else [c]

/-- A label between double quotes. -/
def quote (label : String) : String :=
  String.ofList ('\x22' :: escape label.toList ++ ['\x22'])

/-! ## Graphviz -/

/-- The shape of a node. -/
def dotShape (n : SnapshotNode) : String :=
  match n.kind with
  | some .callable => "box"
  | some .composite => "component"
  | some .other => "ellipse"
  | none => if n.id = rootId then "point" else "ellipse"

/-- The colour of a node: running and waiting services and missing nodes stand out. -/
def dotColor (n : SnapshotNode) : String :=
  match n.service, n.kind with
  | some .runningUp, _ => "palegreen"
  | some .pendingUp, _ => "lightyellow"
  | _, none => if n.id = rootId then "white" else "mistyrose"
  | _, some _ => "white"

/-- The statement for a node. -/
def dotNode (n : SnapshotNode) : String :=
  "  \x22" ++ n.id ++ "\x22 [label=" ++ quote n.label ++ ", shape=" ++ dotShape n ++
    ", fillcolor=" ++ dotColor n ++ ", style=filled];\n"

/-- The statement for an edge. -/
def dotEdge (e : SnapshotEdge) : String :=
  "  \x22" ++ e.source ++ "\x22 -> \x22" ++ e.target ++ "\x22;\n"

/-- A snapshot in the language of Graphviz. -/
def dot (s : Snapshot) : String :=
  "digraph dependencies \x7b\n  rankdir=LR;\n  node [fontname=\x22Helvetica\x22];\n\n" ++
    "".intercalate (s.nodes.map dotNode) ++ "\n" ++ "".intercalate (s.edges.map dotEdge) ++
    "\x7d\n"

/-! ## Mermaid -/

/-- The brackets that give a node its outline. -/
def mermaidBrackets (n : SnapshotNode) : String × String :=
  match n.kind with
  | some .callable => ("[", "]")
  | some .composite => ("[[", "]]")
  | _ => if n.id = rootId then ("((", "))") else ("(", ")")

/-- The statement for a node. -/
def mermaidNode (n : SnapshotNode) : String :=
  let (opening, closing) := mermaidBrackets n
  "  " ++ n.id ++ opening ++ quote n.label ++ closing ++ "\n"

/-- The statement for an edge. -/
def mermaidEdge (e : SnapshotEdge) : String :=
  "  " ++ e.source ++ " --> " ++ e.target ++ "\n"

/-- The statement that puts a node into the class of services or of missing nodes. -/
def mermaidClass (n : SnapshotNode) : String :=
  let isService : Bool :=
    match n.service with
    | some state => state ≠ .notAService
    | none => false
  if isService then "  class " ++ n.id ++ " service\n"
  else if n.isMissing then "  class " ++ n.id ++ " missing\n"
  else ""

/-- A snapshot in the language of Mermaid. -/
def mermaid (s : Snapshot) : String :=
  "graph TD\n" ++ "".intercalate (s.nodes.map mermaidNode) ++
    "".intercalate (s.edges.map mermaidEdge) ++
    "\n  classDef service fill:#e8f5e8\n  classDef missing fill:#ffe4e1\n" ++
    "".intercalate (s.nodes.map mermaidClass)

end Diagram

/-- A snapshot in a format. -/
def Snapshot.render (s : Snapshot) : Format → String
  | .json => s.tree.pretty
  | .yaml => Yaml.render s.tree
  | .dot => Diagram.dot s
  | .mermaid => Diagram.mermaid s

end Wiring.Export
