import Wiring.Proofs.Quotation

/-!
# Drawings of snapshots

A drawing is read statement by statement: settings, defaults, nodes with attributes, and edges
(`Diagram.read?`). The drawing of a snapshot whose ids have no quotes and no backslashes holds, behind
what is the same for all, one statement for each node, with its label, and one for each edge, exactly
if the backslashes of each label are paired (`Snapshot.labels_delimited`). A backslash at the end of a
label hides the closing quote (`Snapshot.labels_not_delimited_backslashed`), and one in front of a
quote lets the label end there.
-/

namespace Wiring.Export

namespace Diagram

/-! ## Statements -/

/-- A statement of a drawing. The values of attributes are given as texts, quoted or not. -/
inductive Statement where
  | setting (name value : String)
  /-- Attributes of all nodes or of all edges. -/
  | defaults (kind : String) (attributes : List (String × String))
  | node (id : String) (attributes : List (String × String))
  | edge (source target : String)
  deriving DecidableEq, Repr

/-- The text that a lexeme stands for, if it is no sign. -/
def Lexeme.text? : Lexeme → Option String
  | word text => some text
  | quoted text => some text
  | sign _ => none

/-- Reads attributes and the closing bracket. -/
def attributes? : List Lexeme → Option (List (String × String))
  | [.word name, .sign '=', value, .sign ']'] => do
    return [(name, ← value.text?)]
  | .word name :: .sign '=' :: value :: .sign ',' :: lexemes => do
    return (name, ← value.text?) :: (← attributes? lexemes)
  | _ => none

/-- Reads one statement; ids are quoted. -/
def statement? : List Lexeme → Option Statement
  | [.word name, .sign '=', .word value] => some (.setting name value)
  | [.quoted source, .sign '-', .sign '>', .quoted target] => some (.edge source target)
  | .word kind :: .sign '[' :: lexemes => (attributes? lexemes).map (.defaults kind)
  | .quoted id :: .sign '[' :: lexemes => (attributes? lexemes).map (.node id)
  | _ => none

/-- Reads statements, each with a semicolon behind it, and the closing brace. -/
def statements? (lexemes : List Lexeme) : Option (List Statement) :=
  let groups := lexemes.splitOn (.sign ';')
  if groups.getLast? = some [.sign '\x7d'] then groups.dropLast.mapM statement? else none

/-- Reads the statements of a drawing. -/
def read? (drawing : String) : Option (List Statement) := do
  match ← lexemes? drawing.toList with
  | .word "digraph" :: .word _ :: .sign '\x7b' :: lexemes => statements? lexemes
  | _ => none

/-- The lexemes of statements, each with its semicolon. -/
def terminated (groups : List (List Lexeme)) : List Lexeme := groups.flatMap (· ++ [.sign ';'])

section

variable {lexemes : List Lexeme} {groups : List (List Lexeme)} {sts : List Statement}

theorem splitOn_terminated (h : ∀ g ∈ groups, .sign ';' ∉ g) (lexemes : List Lexeme) :
    (terminated groups ++ lexemes).splitOn (.sign ';') = groups ++ lexemes.splitOn (.sign ';') := by
  induction groups with
  | nil => rfl
  | cons g groups ih =>
    rw [List.forall_mem_cons] at h
    rw [terminated, List.flatMap_cons, List.append_assoc, List.append_assoc, List.singleton_append,
      List.splitOn_append_cons_self_of_not_mem h.1]
    exact congrArg (g :: ·) (ih h.2)

/-- Statements are read one after the other. -/
theorem statements?_terminated (hends : ∀ g ∈ groups, .sign ';' ∉ g)
    (hread : groups.mapM statement? = some sts) (lexemes : List Lexeme) :
    statements? (terminated groups ++ lexemes) = (statements? lexemes).map (sts ++ ·) := by
  have hne : lexemes.splitOn (.sign ';') ≠ [] := List.splitOn_ne_nil _ _
  simp only [statements?, splitOn_terminated hends]
  rw [List.getLast?_append, Option.or_of_isSome (List.getLast?_isSome.2 hne),
    List.dropLast_append_of_ne_nil hne, List.mapM_append, hread]
  split
  · exact Option.map_eq_bind.symm
  · rfl

/-- What stands in front of any semicolon belongs to the first piece. -/
theorem splitOn_append_of_notMem (h : .sign ';' ∉ lexemes) (more : List Lexeme) :
    ∃ g groups, (lexemes ++ more).splitOn (.sign ';') = (lexemes ++ g) :: groups := by
  induction lexemes with
  | nil => exact List.exists_cons_of_ne_nil (List.splitOn_ne_nil _ more)
  | cons l lexemes ih =>
    rw [List.mem_cons, not_or] at h
    obtain ⟨g, groups, hsplit⟩ := ih h.2
    refine ⟨g, groups, ?_⟩
    rw [List.cons_append, List.splitOn_cons_eq_if_modifyHead, hsplit,
      if_neg (by simpa using Ne.symm h.1)]
    rfl

/-- The first statement begins with what stands in front of any semicolon. -/
theorem exists_statement?_of_statements? {more : List Lexeme} {st : Statement}
    (hends : .sign ';' ∉ lexemes) (h : statements? (lexemes ++ more) = some (st :: sts)) :
    ∃ g, statement? (lexemes ++ g) = some st := by
  obtain ⟨g, groups, hsplit⟩ := splitOn_append_of_notMem hends more
  simp only [statements?, hsplit] at h
  split at h
  · cases groups with
    | nil => cases h
    | cons g' groups =>
      rw [List.dropLast_cons_cons, List.mapM_cons] at h
      obtain ⟨st', hst, hmore⟩ := Option.bind_eq_some_iff.1 h
      obtain ⟨sts', -, ⟨⟩⟩ := Option.bind_eq_some_iff.1 hmore
      exact ⟨g, hst⟩
  · cases h

/-- The first attribute is what it says at the beginning. -/
theorem head?_of_attributes? {name value : String} {attributes : List (String × String)}
    (h : attributes? (.word name :: .sign '=' :: .quoted value :: lexemes) = some attributes) :
    attributes.head? = some (name, value) := by
  rw [attributes?.eq_def] at h
  split at h
  · next heq =>
    cases heq
    obtain ⟨_, ⟨⟩, ⟨⟩⟩ := Option.bind_eq_some_iff.1 h
    rfl
  · next heq =>
    cases heq
    obtain ⟨_, ⟨⟩, hmore⟩ := Option.bind_eq_some_iff.1 h
    obtain ⟨_, -, ⟨⟩⟩ := Option.bind_eq_some_iff.1 hmore
    rfl
  · cases h

end

/-! ## The text of a drawing -/

/-- What a drawing holds in front of the statements for the nodes. -/
def dotHead : String :=
  "digraph dependencies \x7b\n  rankdir=LR;\n  node [fontname=\x22Helvetica\x22];\n\n"

/-- What the statement for a node holds in front of the label. -/
def dotOpening (n : SnapshotNode) : String := "  \x22" ++ n.id ++ "\x22 [label="

/-- What the statement for a node holds behind the label. -/
def dotClosing (n : SnapshotNode) : String :=
  ", shape=" ++ dotShape n ++ ", fillcolor=" ++ dotColor n ++ ", style=filled];\n"

/-- What a drawing holds behind the statements for the nodes. -/
def dotFoot (edges : List SnapshotEdge) : String :=
  "\n" ++ "".intercalate (edges.map dotEdge) ++ "\x7d\n"

/-- What a drawing holds in front of the label of a node, if others come earlier. -/
def beforeLabel (earlier : List SnapshotNode) (n : SnapshotNode) : String :=
  dotHead ++ "".intercalate (earlier.map dotNode) ++ dotOpening n

/-- What a drawing holds behind the label of a node, if others and edges come later. -/
def behindLabel (n : SnapshotNode) (later : List SnapshotNode) (edges : List SnapshotEdge) :
    String :=
  dotClosing n ++ "".intercalate (later.map dotNode) ++ dotFoot edges

section

variable {s : Snapshot} {n : SnapshotNode} {earlier later : List SnapshotNode} {e : SnapshotEdge}

theorem toList_joined {α : Type} (f : α → String) (xs : List α) :
    ("".intercalate (xs.map f)).toList = xs.flatMap fun x => (f x).toList := by
  induction xs with
  | nil => rfl
  | cons x xs ih =>
    rw [List.flatMap_cons, ← ih, String.toList_intercalate, String.toList_intercalate]
    cases xs <;> simp [List.intercalate]

theorem dotNode_eq (n : SnapshotNode) :
    dotNode n = dotOpening n ++ quote n.label ++ dotClosing n := by
  simp [dotNode, dotOpening, dotClosing, ← String.toList_inj]

theorem toList_dot (s : Snapshot) : (dot s).toList =
    dotHead.toList ++ (s.nodes.flatMap (fun n => (dotNode n).toList) ++ (dotFoot s.edges).toList) := by
  have hdot : dot s = dotHead ++ "".intercalate (s.nodes.map dotNode) ++ dotFoot s.edges := by
    rw [dotFoot, ← String.append_assoc, ← String.append_assoc]
    rfl
  rw [hdot, String.toList_append, String.toList_append, toList_joined, List.append_assoc]

/-- The label of a node stands between its quotes, behind the statements for the earlier nodes. -/
theorem toList_dot_of_split (h : s.nodes = earlier ++ n :: later) :
    (dot s).toList = dotHead.toList ++ (earlier.flatMap (fun m => (dotNode m).toList) ++
      ((dotOpening n).toList ++
        '\x22' :: (escape n.label.toList ++ '\x22' :: (behindLabel n later s.edges).toList))) := by
  simp only [toList_dot, h, behindLabel, String.toList_append, toList_joined, List.flatMap_append,
    List.flatMap_cons, dotNode_eq, toList_quote, List.append_assoc, List.cons_append,
    List.nil_append]

theorem toList_beforeLabel (earlier : List SnapshotNode) (n : SnapshotNode) :
    (beforeLabel earlier n).toList =
      dotHead.toList ++ (earlier.flatMap (fun m => (dotNode m).toList) ++ (dotOpening n).toList) := by
  rw [beforeLabel, String.toList_append, String.toList_append, toList_joined, List.append_assoc]

/-- What stands in front of a label and behind it makes up the drawing together with the label. -/
theorem toList_dot_eq (h : s.nodes = earlier ++ n :: later) :
    (dot s).toList = (beforeLabel earlier n).toList ++
      '\x22' :: (escape n.label.toList ++ '\x22' :: (behindLabel n later s.edges).toList) := by
  rw [toList_dot_of_split h, toList_beforeLabel, List.append_assoc, List.append_assoc]

/-! ## The lexemes of a drawing -/

theorem isWord_dotShape (n : SnapshotNode) : IsWord (dotShape n) := by
  unfold dotShape
  split
  iterate 3 decide
  split <;> decide

theorem isWord_dotColor (n : SnapshotNode) : IsWord (dotColor n) := by
  unfold dotColor
  split
  iterate 2 decide
  · split <;> decide
  · decide

/-- The lexemes of the statements in front of those for the nodes. -/
def headLexemes : List (List Lexeme) :=
  [[.word "rankdir", .sign '=', .word "LR"],
    [.word "node", .sign '[', .word "fontname", .sign '=', .quoted "Helvetica", .sign ']']]

/-- The lexemes of the statement for a node. -/
def nodeLexemes (n : SnapshotNode) : List Lexeme :=
  [.quoted n.id, .sign '[', .word "label", .sign '=', .quoted n.label, .sign ',',
    .word "shape", .sign '=', .word (dotShape n), .sign ',',
    .word "fillcolor", .sign '=', .word (dotColor n), .sign ',',
    .word "style", .sign '=', .word "filled", .sign ']']

/-- The lexemes of the statement for an edge. -/
def edgeLexemes (e : SnapshotEdge) : List Lexeme :=
  [.quoted e.source, .sign '-', .sign '>', .quoted e.target]

theorem reads_dotHead : Reads dotHead.toList
    (.word "digraph" :: .word "dependencies" :: .sign '\x7b' :: terminated headLexemes) := by
  have hfont : Unmarked "Helvetica".toList := by decide
  have htext : dotHead.toList =
      "digraph".toList ++ ' ' :: ("dependencies".toList ++ ' ' :: '\x7b' :: '\n' ::
      ' ' :: ' ' :: ("rankdir".toList ++ '=' :: ("LR".toList ++ ';' :: '\n' ::
      ' ' :: ' ' :: ("node".toList ++ ' ' :: '[' :: ("fontname".toList ++ '=' ::
        ((quote "Helvetica").toList ++ [']', ';', '\n', '\n'])))))) := by
    simp [dotHead, toList_quote_of_unmarked hfont]
  rw [htext]
  exact .word (by decide) (by decide) <| .blank rfl <| .word (by decide) (by decide) <|
    .blank rfl <| .sign rfl <| .blank rfl <|
    .blank rfl <| .blank rfl <| .setting (by decide) (by decide) rfl <| .blank rfl <|
    .blank rfl <| .blank rfl <| .word (by decide) (by decide) <| .blank rfl <| .sign rfl <|
    .word (by decide) (by decide) <| .sign rfl <| .quoted hfont.paired <| .sign rfl <| .sign rfl <|
    .blank rfl <| .blank rfl .nil

theorem reads_dotOpening (h : Unmarked n.id.toList) : Reads (dotOpening n).toList
    [.quoted n.id, .sign '[', .word "label", .sign '='] := by
  have htext : (dotOpening n).toList =
      ' ' :: ' ' :: ((quote n.id).toList ++ ' ' :: '[' :: ("label".toList ++ ['='])) := by
    simp [dotOpening, toList_quote_of_unmarked h]
  rw [htext]
  exact .blank rfl <| .blank rfl <| .quoted h.paired <| .blank rfl <| .sign rfl <|
    .word (by decide) (by decide) <| .sign rfl .nil

theorem reads_dotClosing (n : SnapshotNode) : Reads (dotClosing n).toList
    [.sign ',', .word "shape", .sign '=', .word (dotShape n), .sign ',',
      .word "fillcolor", .sign '=', .word (dotColor n), .sign ',',
      .word "style", .sign '=', .word "filled", .sign ']', .sign ';'] := by
  have htext : (dotClosing n).toList =
      ',' :: ' ' :: ("shape".toList ++ '=' :: ((dotShape n).toList ++ ',' ::
      ' ' :: ("fillcolor".toList ++ '=' :: ((dotColor n).toList ++ ',' ::
      ' ' :: ("style".toList ++ '=' :: ("filled".toList ++ [']', ';', '\n'])))))) := by
    simp [dotClosing]
  rw [htext]
  exact .sign rfl <| .blank rfl <| .setting (by decide) (isWord_dotShape n) rfl <|
    .blank rfl <| .setting (by decide) (isWord_dotColor n) rfl <|
    .blank rfl <| .setting (by decide) (by decide) rfl <| .sign rfl <| .blank rfl .nil

theorem reads_dotNode (hid : Unmarked n.id.toList) (hlabel : Paired n.label.toList) :
    Reads (dotNode n).toList (nodeLexemes n ++ [.sign ';']) := by
  rw [dotNode_eq, String.toList_append, String.toList_append, List.append_assoc]
  exact (reads_dotOpening hid).append (.quoted hlabel (reads_dotClosing n))

theorem reads_dotEdge (hsource : Unmarked e.source.toList) (htarget : Unmarked e.target.toList) :
    Reads (dotEdge e).toList (edgeLexemes e ++ [.sign ';']) := by
  have htext : (dotEdge e).toList =
      ' ' :: ' ' :: ((quote e.source).toList ++ ' ' :: '-' :: '>' ::
      ' ' :: ((quote e.target).toList ++ [';', '\n'])) := by
    simp [dotEdge, toList_quote_of_unmarked hsource, toList_quote_of_unmarked htarget]
  rw [htext]
  exact .blank rfl <| .blank rfl <| .quoted hsource.paired <| .blank rfl <| .sign rfl <| .sign rfl <|
    .blank rfl <| .quoted htarget.paired <| .sign rfl <| .blank rfl .nil

/-- Statements drawn one behind the other are read as such. -/
theorem reads_terminated {α : Type} {xs : List α} {f : α → String} {g : α → List Lexeme}
    (h : ∀ x ∈ xs, Reads (f x).toList (g x ++ [.sign ';'])) :
    Reads (xs.flatMap fun x => (f x).toList) (terminated (xs.map g)) := by
  rw [terminated, List.flatMap_map]
  exact .flatMap h

theorem reads_dotFoot {edges : List SnapshotEdge}
    (h : ∀ e ∈ edges, Unmarked e.source.toList ∧ Unmarked e.target.toList) :
    Reads (dotFoot edges).toList (terminated (edges.map edgeLexemes) ++ [.sign '\x7d']) := by
  have htext : (dotFoot edges).toList =
      '\n' :: ((edges.flatMap fun e => (dotEdge e).toList) ++ ['\x7d', '\n']) := by
    rw [dotFoot, String.toList_append, String.toList_append, toList_joined]
    rfl
  rw [htext]
  exact .blank rfl <| (reads_terminated fun e he => reads_dotEdge (h e he).1 (h e he).2).append <|
    .sign rfl <| .blank rfl .nil

/-! ## The statements of a drawing -/

/-- The statements in front of those for the nodes. -/
def headStatements : List Statement :=
  [.setting "rankdir" "LR", .defaults "node" [("fontname", "Helvetica")]]

/-- The statement for a node. -/
def nodeStatement (n : SnapshotNode) : Statement :=
  .node n.id
    [("label", n.label), ("shape", dotShape n), ("fillcolor", dotColor n), ("style", "filled")]

/-- The statement for an edge. -/
def edgeStatement (e : SnapshotEdge) : Statement := .edge e.source e.target

theorem mapM_statement? {α : Type} (f : α → List Lexeme) (g : α → Statement)
    (h : ∀ x, statement? (f x) = some (g x)) (xs : List α) :
    (xs.map f).mapM statement? = some (xs.map g) := by
  rw [List.mapM_map, show statement? ∘ f = fun x => some (g x) from funext h]
  exact List.mapM_pure

/-- A drawing is read as far as the labels of the nodes are paired, and goes on with what is behind
them. -/
theorem read?_of_paired {drawing : String} {text : List Char}
    (hids : ∀ n ∈ earlier, Unmarked n.id.toList) (hlabels : ∀ n ∈ earlier, Paired n.label.toList)
    (h : drawing.toList =
      dotHead.toList ++ (earlier.flatMap (fun n => (dotNode n).toList) ++ text)) :
    read? drawing = ((lexemes? text).bind statements?).map
      (headStatements ++ earlier.map nodeStatement ++ ·) := by
  have hnodes : Reads (earlier.flatMap fun n => (dotNode n).toList)
      (terminated (earlier.map nodeLexemes)) :=
    reads_terminated fun n hn => reads_dotNode (hids n hn) (hlabels n hn)
  have hends : ∀ g ∈ headLexemes ++ earlier.map nodeLexemes, .sign ';' ∉ g := by
    simp [headLexemes, nodeLexemes]
  have hread : (headLexemes ++ earlier.map nodeLexemes).mapM statement? =
      some (headStatements ++ earlier.map nodeStatement) := by
    have hhead : headLexemes.mapM statement? = some headStatements := rfl
    rw [List.mapM_append, hhead, mapM_statement? nodeLexemes nodeStatement fun _ => rfl]
    rfl
  rw [read?, h, reads_dotHead, hnodes]
  cases lexemes? text with
  | none => rfl
  | some lexemes => simpa [terminated] using statements?_terminated hends hread lexemes

/-- A node whose statement says its label has a paired one. -/
theorem paired_of_statements? {behind : List Char} {sts : List Statement}
    (hid : Unmarked n.id.toList)
    (h : (lexemes? ((dotOpening n).toList ++
      '\x22' :: (escape n.label.toList ++ '\x22' :: behind))).bind statements? =
        some (nodeStatement n :: sts)) : Paired n.label.toList := by
  rw [reads_dotOpening hid, lexemes?_quote] at h
  obtain ⟨lexemes, hlexemes, hread⟩ := Option.bind_eq_some_iff.1 h
  obtain ⟨_, hquote, rfl⟩ := Option.map_eq_some_iff.1 hlexemes
  obtain ⟨⟨raw, rest⟩, hscan, hrest⟩ := Option.bind_eq_some_iff.1 hquote
  obtain ⟨more, -, rfl⟩ := Option.map_eq_some_iff.1 hrest
  -- the statement is read as far as its first attribute, and that is the label
  have hends : Lexeme.sign ';' ∉ [.quoted n.id, .sign '[', .word "label", .sign '=',
      .quoted (String.ofList (unescape false raw))] := by simp
  obtain ⟨g, hstatement⟩ := exists_statement?_of_statements? hends hread
  obtain ⟨attributes, hattributes, hnode⟩ := Option.map_eq_some_iff.1 hstatement
  have hfirst := head?_of_attributes? hattributes
  rw [(Statement.node.inj hnode).2] at hfirst
  have hlabel : n.label = String.ofList (unescape false raw) :=
    (Prod.mk.inj (Option.some.inj hfirst)).2
  -- so what the scanner has read is the label as it is drawn
  have hraw : escape n.label.toList = raw := by
    rw [hlabel, String.toList_ofList]
    exact escape_unescape hscan
  have hbehind : behind = rest := by
    have heq := eq_of_scan? hscan
    rw [hraw] at heq
    exact (List.cons.inj (List.append_cancel_left heq)).2
  rw [← hraw, ← hbehind] at hscan
  exact scan?_iff.1 hscan

end

end Diagram

/-! ## Snapshots -/

namespace Snapshot

open Diagram

/-- No id has a quote or a backslash in it. -/
structure IdsUnmarked (s : Snapshot) : Prop where
  nodes : ∀ n ∈ s.nodes, Unmarked n.id.toList
  edges : ∀ e ∈ s.edges, Unmarked e.source.toList ∧ Unmarked e.target.toList

instance (s : Snapshot) : Decidable s.IdsUnmarked :=
  decidable_of_iff
    ((∀ n ∈ s.nodes, Unmarked n.id.toList) ∧
      ∀ e ∈ s.edges, Unmarked e.source.toList ∧ Unmarked e.target.toList)
    ⟨fun h => ⟨h.1, h.2⟩, fun h => ⟨h.nodes, h.edges⟩⟩

/-- The statements of the drawing of a snapshot: one for each node, with its label, and one for each
edge, behind those that are the same for all snapshots. -/
def statements (s : Snapshot) : List Statement :=
  headStatements ++ s.nodes.map nodeStatement ++ s.edges.map edgeStatement

variable {s : Snapshot}

/-- A drawing is read back if all labels are paired. -/
theorem IdsUnmarked.read?_eq (hids : s.IdsUnmarked) (h : ∀ n ∈ s.nodes, Paired n.label.toList) :
    read? (dot s) = some s.statements := by
  have hfoot : lexemes? (dotFoot s.edges).toList = _ := (reads_dotFoot hids.edges).lexemes?_eq
  have hends : ∀ g ∈ s.edges.map edgeLexemes, .sign ';' ∉ g := by simp [edgeLexemes]
  have hread : (s.edges.map edgeLexemes).mapM statement? = some (s.edges.map edgeStatement) :=
    mapM_statement? edgeLexemes edgeStatement (fun _ => rfl) s.edges
  have hedges : statements? (terminated (s.edges.map edgeLexemes) ++ [.sign '\x7d']) =
      some (s.edges.map edgeStatement) := by
    rw [statements?_terminated hends hread, show statements? [.sign '\x7d'] = some [] from rfl,
      Option.map_some, List.append_nil]
  rw [read?_of_paired hids.nodes h (toList_dot s), hfoot, Option.bind_some, hedges]
  rfl

/-- The labels of a drawing that is read back are paired. -/
theorem IdsUnmarked.paired_of_read? (hids : s.IdsUnmarked) (h : read? (dot s) = some s.statements)
    {earlier later : List SnapshotNode} (hsplit : s.nodes = earlier ++ later)
    (hearlier : ∀ n ∈ earlier, Paired n.label.toList) : ∀ n ∈ later, Paired n.label.toList := by
  -- behind paired labels the next statement is read, so the next label is paired as well
  induction later generalizing earlier with
  | nil => exact List.forall_mem_nil _
  | cons n later ih =>
    have hunmarked := hids.nodes
    rw [hsplit, List.forall_mem_append, List.forall_mem_cons] at hunmarked
    have hread := h
    rw [read?_of_paired hunmarked.1 hearlier (toList_dot_of_split hsplit), statements, hsplit]
      at hread
    obtain ⟨sts, hsts, heq⟩ := Option.map_eq_some_iff.1 hread
    simp only [List.map_append, List.map_cons, List.append_assoc, List.cons_append] at heq
    rw [List.append_cancel_left (List.append_cancel_left heq)] at hsts
    have hn : Paired n.label.toList := paired_of_statements? hunmarked.2.1 hsts
    have hnext : s.nodes = earlier ++ [n] ++ later := by
      rw [hsplit, List.append_assoc, List.singleton_append]
    refine List.forall_mem_cons.2 ⟨hn, ih hnext ?_⟩
    exact List.forall_mem_append.2 ⟨hearlier, List.forall_mem_singleton.2 hn⟩

theorem render_dot (s : Snapshot) : s.render .dot = dot s := rfl

/-- In the drawing of a snapshot, a scanner that starts behind the opening quote of a label stops at
its closing quote exactly if the label is paired. The drawing is read as one statement for each node,
with its label, and one for each edge exactly if all labels are paired. -/
theorem labels_delimited (s : Snapshot) (hids : s.IdsUnmarked) :
    (∀ earlier n later, s.nodes = earlier ++ n :: later →
      let label := escape n.label.toList
      let behind := (behindLabel n later s.edges).toList
      (s.render .dot).toList =
          (beforeLabel earlier n).toList ++ '\x22' :: (label ++ '\x22' :: behind) ∧
        (scan? false (label ++ '\x22' :: behind) = some (label, behind) ↔
          Paired n.label.toList)) ∧
      (read? (s.render .dot) = some s.statements ↔ ∀ n ∈ s.nodes, Paired n.label.toList) := by
  rw [render_dot]
  refine ⟨?_, fun h => ?_, hids.read?_eq⟩
  · intro earlier n later hsplit label behind
    exact ⟨toList_dot_eq hsplit, scan?_iff⟩
  · exact hids.paired_of_read? h (List.nil_append s.nodes).symm (List.forall_mem_nil _)

/-- A snapshot whose labels have quotes and backslashes in them. -/
def marked : Snapshot where
  nodes := [
    ⟨rootId, "ROOT", none, none, none, none⟩,
    ⟨"n1", "app.Mark<'\x22'>", some .other, some .resolvedValue, some .runningUp, none⟩,
    ⟨"n2", "app.Mark<'\x5c\x5c'>", some .other, some .resolvedValue, some .notAService, none⟩,
    ⟨"n3", "\x5c\x5c\x22\x5ct\x5c\x5c", some .callable, some .newlyRegistered, none, none⟩]
  edges := [⟨rootId, "n1"⟩, ⟨"n1", "n3"⟩]
  order := []
  metadata := default

/-- They are paired, so the scanner stops where they end, and the drawing is read back. -/
theorem labels_delimited_marked : marked.IdsUnmarked ∧
    (∀ earlier n later, marked.nodes = earlier ++ n :: later →
      let behind := (behindLabel n later marked.edges).toList
      scan? false (escape n.label.toList ++ '\x22' :: behind) =
        some (escape n.label.toList, behind)) ∧
    read? (marked.render .dot) = some [
      .setting "rankdir" "LR",
      .defaults "node" [("fontname", "Helvetica")],
      .node "root"
        [("label", "ROOT"), ("shape", "point"), ("fillcolor", "white"), ("style", "filled")],
      .node "n1" [("label", "app.Mark<'\x22'>"), ("shape", "ellipse"), ("fillcolor", "palegreen"),
        ("style", "filled")],
      .node "n2" [("label", "app.Mark<'\x5c\x5c'>"), ("shape", "ellipse"), ("fillcolor", "white"),
        ("style", "filled")],
      .node "n3" [("label", "\x5c\x5c\x22\x5ct\x5c\x5c"), ("shape", "box"), ("fillcolor", "white"),
        ("style", "filled")],
      .edge "root" "n1",
      .edge "n1" "n3"] := by
  have hids : marked.IdsUnmarked := by decide
  have hlabels : ∀ n ∈ marked.nodes, Paired n.label.toList := by decide
  obtain ⟨hscan, hread⟩ := marked.labels_delimited hids
  refine ⟨hids, fun earlier n later hsplit => ?_, hread.2 hlabels⟩
  have hmem : n ∈ marked.nodes := by
    rw [hsplit]
    exact List.mem_append_right earlier List.mem_cons_self
  exact (hscan earlier n later hsplit).2.2 (hlabels n hmem)

/-- A node whose label is a backslash. -/
def backslash : SnapshotNode :=
  ⟨"n0", "\x5c", some .other, some .resolvedValue, some .notAService, some "app::A"⟩

/-- A snapshot of that node alone. -/
def backslashed : Snapshot where
  nodes := [backslash]
  edges := []
  order := ["\x5c"]
  metadata := default

/-- In its drawing a scanner that starts behind the opening quote of the label passes the closing
quote and finds no other, and no statement is read. -/
theorem labels_not_delimited_backslashed :
    let label := escape backslash.label.toList
    let behind := (behindLabel backslash [] backslashed.edges).toList
    backslashed.IdsUnmarked ∧
      (backslashed.render .dot).toList =
        (beforeLabel [] backslash).toList ++ '\x22' :: (label ++ '\x22' :: behind) ∧
      scan? false (label ++ '\x22' :: behind) = none ∧ read? (backslashed.render .dot) = none := by
  intro label behind
  have hids : backslashed.IdsUnmarked := by decide
  have hsplit : backslashed.nodes = [] ++ backslash :: [] := rfl
  have hscan : scan? false (escape backslash.label.toList ++
      '\x22' :: (behindLabel backslash [] backslashed.edges).toList) = none := by decide +kernel
  rw [render_dot]
  refine ⟨hids, toList_dot_eq hsplit, hscan, ?_⟩
  have hread := read?_of_paired (List.forall_mem_nil _) (List.forall_mem_nil _)
    (toList_dot_of_split hsplit)
  rw [reads_dotOpening (by decide), lexemes?_quote, hscan] at hread
  exact hread

end Snapshot

end Wiring.Export
