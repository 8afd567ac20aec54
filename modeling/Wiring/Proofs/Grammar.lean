import Wiring.Proofs.Distinctness

/-!
# The grammar of type names

A type name is a path whose last identifier may carry arguments in angle brackets: paths again,
references, tuples, arrays, objects with their bounds and functions, nested to any depth. Its text
is that of a row of tokens in which brackets stand in pairs (`Path.tokens`, `Token.texts`), and
`Path.dottedText` has a dot in front of the last identifier and every other character as it was.

The scans that look for the place of the dot, and for the end of the first bound of an object, do
not know tokens. They count brackets, and take the `>` of an arrow for a closing one, so behind the
arrow of a function they may read an argument as if it stood outside the brackets. `dotted_path_iff`
says exactly when this does no harm; `dotted_vectorOfFunctions` is a name that comes out wrong.
-/

namespace Wiring.TypeName

/-! ## Tokens -/

/-- The pairs of brackets in type names. -/
inductive Bracket where
  | angle
  | round
  | square
  deriving DecidableEq

namespace Bracket

def opening : Bracket → Char
  | angle => '<'
  | round => '('
  | square => '['

def closing : Bracket → Char
  | angle => '>'
  | round => ')'
  | square => ']'

end Bracket

/-- What joins names: `::` behind a scope, and `+` in front of a further bound of an object. -/
inductive Joint where
  | scope
  | bound
  deriving DecidableEq

def Joint.text : Joint → List Char
  | scope => [':', ':']
  | bound => ['+']

/-- The character is no bracket and belongs to no joint. -/
def isPlain (c : Char) : Bool := c ∉ ['<', '>', '(', ')', '[', ']', ':', '+']

/-- A text without brackets and joints. -/
structure Word where
  chars : List Char
  plain : chars.all isPlain

/-- A piece of a type name. What stands in a pair of brackets is one piece together with them. -/
inductive Token where
  | word (chunk : Word)
  | joint (kind : Joint)
  | arrow
  | group (bracket : Bracket) (inner : List Token)

namespace Token

mutual

/-- The text of a piece. -/
def text : Token → List Char
  | .word chunk => chunk.chars
  | .joint kind => kind.text
  | .arrow => ['-', '>']
  | .group bracket inner => bracket.opening :: (texts inner ++ [bracket.closing])

/-- The text of pieces in a row. -/
def texts : List Token → List Char
  | [] => []
  | token :: tokens => token.text ++ texts tokens

end

mutual

/-- The number of arrows in a piece. -/
def arrows : Token → Nat
  | .arrow => 1
  | .group _ inner => arrowsIn inner
  | .word _ | .joint _ => 0

/-- The number of arrows in pieces in a row. -/
def arrowsIn : List Token → Nat
  | [] => 0
  | token :: tokens => token.arrows + arrowsIn tokens

end

mutual

/-- A piece read from a depth on has no joint of the kind at depth zero, if a pair of brackets is
one deeper inside than outside and each arrow leads one up, though not above depth zero. -/
def covers (kind : Joint) (depth : Nat) : Token → Bool
  | .joint other => other ≠ kind || depth ≠ 0
  | .group _ inner => coversIn kind (depth + 1) inner
  | .word _ | .arrow => true

/-- Pieces in a row have no joint of the kind at depth zero. -/
def coversIn (kind : Joint) (depth : Nat) : List Token → Bool
  | [] => true
  | token :: tokens => token.covers kind depth && coversIn kind (depth - token.arrows) tokens

end

variable {kind : Joint} {depth : Nat} {tokens tokens' : List Token}

@[simp] theorem texts_append (tokens tokens' : List Token) :
    texts (tokens ++ tokens') = texts tokens ++ texts tokens' := by
  induction tokens with
  | nil => rfl
  | cons token tokens ih => simp [texts, ih]

@[simp] theorem arrowsIn_append (tokens tokens' : List Token) :
    arrowsIn (tokens ++ tokens') = arrowsIn tokens + arrowsIn tokens' := by
  induction tokens with
  | nil => simp [arrowsIn]
  | cons token tokens ih => simp [arrowsIn, ih, Nat.add_assoc]

@[simp] theorem coversIn_append (tokens tokens' : List Token) :
    coversIn kind depth (tokens ++ tokens') =
      (coversIn kind depth tokens && coversIn kind (depth - arrowsIn tokens) tokens') := by
  induction tokens generalizing depth with
  | nil => simp [coversIn, arrowsIn]
  | cons token tokens ih => simp [coversIn, arrowsIn, ih, Nat.sub_sub, Bool.and_assoc]

mutual

/-- Without arrows the depth is never too low, so below the surface there is nothing to be read at
depth zero. -/
theorem covers_of_arrows : (token : Token) → (depth : Nat) → token.arrows < depth →
    token.covers kind depth
  | .joint _, depth, h => by simp [covers]; omega
  | .group _ inner, depth, h => coversIn_of_arrows inner (depth + 1) (by simp [arrows] at h; omega)
  | .word _, _, _ | .arrow, _, _ => rfl

/-- Pieces with fewer arrows than the depth they are read at have no joint at depth zero. -/
theorem coversIn_of_arrows : (tokens : List Token) → (depth : Nat) → arrowsIn tokens < depth →
    coversIn kind depth tokens
  | [], _, _ => rfl
  | token :: tokens, depth, h => by
    simp only [arrowsIn] at h
    simp only [coversIn, Bool.and_eq_true]
    exact ⟨covers_of_arrows token depth (by omega), coversIn_of_arrows tokens _ (by omega)⟩

end

end Token

/-! ## Paths and their arguments -/

/-- An identifier, as far as it matters here: a word with at least one character and no blanks. -/
structure Ident extends Word where
  nonempty : chars ≠ []
  unblank : ∀ c ∈ chars, Text.isBlank c = false

mutual

/-- A path: its scopes, its last identifier, and the arguments of that. -/
inductive Path where
  | mk (scopes : List Ident) (name : Ident) (args : List Form)

/-- A type as an argument. A function has a result, a procedure has none. -/
inductive Form where
  | path (path : Path)
  | reference (exclusive : Bool) (target : Form)
  | tuple (members : List Form)
  | array (element : Form) (length : Nat)
  | object (first : Path) (others : List Path)
  | procedure (params : List Form)
  | function (params : List Form) (result : Form)

end

/-- A number by its digits. -/
def Word.numeral (n : Nat) : Word where
  chars := Nat.toDigits 10 n
  plain := by
    have hjoint : ∀ c ∈ ['<', '>', '(', ')', '[', ']', ':', '+'], ¬ c.isDigit := by simp
    refine List.all_eq_true.mpr fun c hc => decide_eq_true fun hmem => hjoint c hmem ?_
    exact Nat.isDigit_of_mem_toDigits (by decide) (by decide) hc

/-- Scopes, each with its separator. -/
def Ident.qualifiers (scopes : List Ident) : List Token :=
  scopes.flatMap fun scope => [.word scope.toWord, .joint .scope]

def Token.blank : Token := .word ⟨[' '], by decide⟩

/-- Arguments in their brackets, which are left out around nothing. -/
def Token.generics : List Token → List Token
  | [] => []
  | tokens => [.group .angle tokens]

mutual

def Path.tokens : Path → List Token
  | .mk scopes name args =>
    Ident.qualifiers scopes ++ .word name.toWord :: Token.generics (Form.listed args)

def Form.tokens : Form → List Token
  | .path path => path.tokens
  | .reference false target => .word ⟨"&".toList, by decide⟩ :: target.tokens
  | .reference true target => .word ⟨"&mut ".toList, by decide⟩ :: target.tokens
  | .tuple [member] => [.group .round (member.tokens ++ [.word ⟨",".toList, by decide⟩])]
  | .tuple members => [.group .round (Form.listed members)]
  | .array element length =>
    [.group .square (element.tokens ++ [.word ⟨"; ".toList, by decide⟩, .word (.numeral length)])]
  | .object first others => .word ⟨"dyn ".toList, by decide⟩ :: (first.tokens ++ Path.bounds others)
  | .procedure params => [.word ⟨"fn".toList, by decide⟩, .group .round (Form.listed params)]
  | .function params result =>
    .word ⟨"fn".toList, by decide⟩ :: .group .round (Form.listed params) :: .blank :: .arrow ::
      .blank :: result.tokens

/-- Types with commas between them. -/
def Form.listed : List Form → List Token
  | [] => []
  | [form] => form.tokens
  | form :: forms => form.tokens ++ .word ⟨", ".toList, by decide⟩ :: Form.listed forms

/-- Further bounds of an object. -/
def Path.bounds : List Path → List Token
  | [] => []
  | path :: paths =>
    .blank :: .joint .bound :: .blank :: (path.tokens ++ Path.bounds paths)

end

namespace Path

def scopes : Path → List Ident
  | .mk scopes _ _ => scopes

/-- The arguments of the last identifier. -/
def args : Path → List Form
  | .mk _ _ args => args

/-- The last identifier with its arguments. -/
def ending : Path → List Token
  | .mk _ name args => .word name.toWord :: Token.generics (Form.listed args)

/-- The path as it is written. -/
def text (p : Path) : List Char := Token.texts p.tokens

/-- The name of an object with the bounds. -/
def objectText (first : Path) (others : List Path) : List Char :=
  Token.texts (Form.object first others).tokens

/-- An ending behind scopes, with a dot behind the last of them. -/
def dottedBehind (ending : List Char) : List Ident → List Char
  | [] => ending
  | [scope] => scope.chars ++ '.' :: ending
  | scope :: scopes => scope.chars ++ ':' :: ':' :: dottedBehind ending scopes

/-- The path with a dot in front of the last identifier, if there are scopes. -/
def dottedText (p : Path) : List Char := dottedBehind (Token.texts p.ending) p.scopes

/-- No joint of the kind in the arguments is read at depth zero. -/
def covers (p : Path) (kind : Joint) : Bool := Token.coversIn kind 1 (Form.listed p.args)

end Path

/-! ## Scans that count brackets -/

section Scans

variable {α : Type} {kind : Joint} {scan : Nat → List Char → Option α}
  {behind : List Char → α → α} {depth : Nat} {c : Char} {rest : List Char}

/-- A scan for the joints of a kind. A character that does not belong to one, or that is in
brackets, is read over: the result is that for the rest, put `behind` the character. -/
structure Scans (kind : Joint) (scan : Nat → List Char → Option α)
    (behind : List Char → α → α) : Prop where
  nil : behind [] = id
  append : ∀ front front', behind (front ++ front') = behind front ∘ behind front'
  cons : ∀ depth c rest, (c ∈ kind.text → depth ≠ 0) →
    scan depth (c :: rest) = (scan (depthAfter depth c) rest).map (behind [c])

theorem depthAfter_plain (h : isPlain c) : depthAfter depth c = depth := by
  simp [isPlain] at h
  simp [depthAfter, h]

theorem Word.isPlain_of_mem (chunk : Word) (h : c ∈ chunk.chars) : isPlain c :=
  List.all_eq_true.mp chunk.plain c h

theorem Word.notMem_text (chunk : Word) (h : c ∈ chunk.chars) : c ∉ kind.text := by
  have hjoint : ∀ c ∈ kind.text, ¬ isPlain c := by cases kind <;> simp [Joint.text, isPlain]
  exact fun hmem => hjoint c hmem (chunk.isPlain_of_mem h)

theorem Bracket.notMem_text (pair : Bracket) (kind : Joint) :
    pair.opening ∉ kind.text ∧ pair.closing ∉ kind.text := by
  cases pair <;> cases kind <;> decide

namespace Scans

/-- Text without brackets is read over at one depth. -/
theorem flat (h : Scans kind scan behind) {chars : List Char}
    (hflat : ∀ c ∈ chars, depthAfter depth c = depth)
    (hkind : ∀ c ∈ chars, c ∈ kind.text → depth ≠ 0) :
    scan depth (chars ++ rest) = (scan depth rest).map (behind chars) := by
  induction chars with
  | nil => rw [h.nil, Option.map_id]; rfl
  | cons c chars ih =>
    have hrest := ih (fun c hmem => hflat c (.tail _ hmem)) fun c hmem => hkind c (.tail _ hmem)
    rw [List.cons_append, h.cons depth c _ (hkind c (.head _)), hflat c (.head _), hrest,
      Option.map_map, ← h.append]
    rfl

/-- A word is read over. -/
theorem word (h : Scans kind scan behind) (chunk : Word) :
    scan depth (chunk.chars ++ rest) = (scan depth rest).map (behind chunk.chars) :=
  h.flat (fun _ hmem => depthAfter_plain (chunk.isPlain_of_mem hmem))
    fun _ hmem hkind => absurd hkind (chunk.notMem_text hmem)

/-- A joint is read over, unless it is of the kind and at depth zero. -/
theorem joint (h : Scans kind scan behind) {other : Joint} (hcovers : other = kind → depth ≠ 0) :
    scan depth (other.text ++ rest) = (scan depth rest).map (behind other.text) := by
  refine h.flat (fun c hmem => ?_) fun c hmem hkind => hcovers ?_
  · cases other <;> simp [Joint.text] at hmem <;> subst hmem <;> rfl
  · cases other <;> cases kind <;> simp_all [Joint.text]

/-- An opening bracket is read over and counts one up. -/
theorem opening (h : Scans kind scan behind) (pair : Bracket) :
    scan depth (pair.opening :: rest) = (scan (depth + 1) rest).map (behind [pair.opening]) := by
  rw [h.cons _ _ _ fun hmem => absurd hmem (pair.notMem_text kind).1]
  cases pair <;> rfl

/-- A closing bracket is read over and counts one down. -/
theorem closing (h : Scans kind scan behind) (pair : Bracket) :
    scan depth (pair.closing :: rest) = (scan (depth - 1) rest).map (behind [pair.closing]) := by
  rw [h.cons _ _ _ fun hmem => absurd hmem (pair.notMem_text kind).2]
  cases pair <;> rfl

/-- Of an arrow the `>` is read like a closing bracket. -/
theorem arrow (h : Scans kind scan behind) :
    scan depth ('-' :: '>' :: rest) = (scan (depth - 1) rest).map (behind ['-', '>']) := by
  rw [h.cons, h.cons, Option.map_map, ← h.append]
  · rfl
  all_goals cases kind <;> simp [Joint.text]

mutual

/-- A piece that covers its joints is read over. -/
theorem token (h : Scans kind scan behind) : (token : Token) → (depth : Nat) →
    (rest : List Char) → token.covers kind depth →
    scan depth (token.text ++ rest) = (scan (depth - token.arrows) rest).map (behind token.text)
  | .word chunk, _, _, _ => h.word chunk
  | .joint other, depth, _, hcovers =>
    h.joint fun heq => by simpa [Token.covers, heq] using hcovers
  | .arrow, _, _, _ => h.arrow
  | .group pair inner, depth, rest, hcovers => by
    have hdepth : depth + 1 - Token.arrowsIn inner - 1 = depth - Token.arrowsIn inner := by omega
    simp only [Token.text, List.cons_append, List.append_assoc, List.nil_append]
    rw [h.opening pair, h.tokens inner (depth + 1) _ hcovers, h.closing pair, hdepth,
      Option.map_map, Option.map_map, ← h.append, ← h.append]
    rfl

/-- Pieces in a row that cover their joints are read over. -/
theorem tokens (h : Scans kind scan behind) : (tokens : List Token) → (depth : Nat) →
    (rest : List Char) → Token.coversIn kind depth tokens →
    scan depth (Token.texts tokens ++ rest) =
      (scan (depth - Token.arrowsIn tokens) rest).map (behind (Token.texts tokens))
  | [], _, _, _ => by simp [Token.texts, Token.arrowsIn, h.nil]
  | token :: tokens, depth, rest, hcovers => by
    rw [Token.coversIn, Bool.and_eq_true] at hcovers
    rw [Token.texts, List.append_assoc, h.token token depth _ hcovers.1,
      h.tokens tokens _ rest hcovers.2, Option.map_map, ← h.append, Token.arrowsIn, Nat.sub_sub]

end

mutual

/-- In a piece that does not cover its joints, the scan comes to one of them at depth zero. -/
theorem token_of_not (h : Scans kind scan behind) : (token : Token) → (depth : Nat) →
    ¬ token.covers kind depth → ∃ front back, token.text = front ++ kind.text ++ back ∧
      ∀ rest, scan depth (token.text ++ rest) =
        (scan 0 (kind.text ++ back ++ rest)).map (behind front)
  | .joint other, depth, hnot => by
    obtain ⟨rfl, rfl⟩ : other = kind ∧ depth = 0 := by simpa [Token.covers] using hnot
    exact ⟨[], [], by simp [Token.text], fun rest => by simp [Token.text, h.nil]⟩
  | .group pair inner, depth, hnot => by
    obtain ⟨front, back, htext, hscan⟩ := h.tokens_of_not inner (depth + 1) hnot
    refine ⟨pair.opening :: front, back ++ [pair.closing], by simp [Token.text, htext],
      fun rest => ?_⟩
    have hinner := hscan (pair.closing :: rest)
    simp only [Token.text, List.cons_append, List.append_assoc, List.nil_append] at hinner ⊢
    rw [h.opening pair, hinner, Option.map_map, ← h.append]
    rfl
  | .word _, _, hnot => absurd rfl hnot
  | .arrow, _, hnot => absurd rfl hnot

/-- In a row of pieces that do not cover their joints, the scan comes to one of them at depth
zero. -/
theorem tokens_of_not (h : Scans kind scan behind) : (tokens : List Token) → (depth : Nat) →
    ¬ Token.coversIn kind depth tokens → ∃ front back,
      Token.texts tokens = front ++ kind.text ++ back ∧
      ∀ rest, scan depth (Token.texts tokens ++ rest) =
        (scan 0 (kind.text ++ back ++ rest)).map (behind front)
  | [], _, hnot => absurd rfl hnot
  | token :: tokens, depth, hnot => by
    by_cases hhead : token.covers kind depth
    · obtain ⟨front, back, htext, hscan⟩ :=
        h.tokens_of_not tokens (depth - token.arrows) (by simpa [Token.coversIn, hhead] using hnot)
      refine ⟨token.text ++ front, back, by simp [Token.texts, htext], fun rest => ?_⟩
      rw [Token.texts, List.append_assoc, h.token token depth _ hhead, hscan, Option.map_map,
        ← h.append]
    · obtain ⟨front, back, htext, hscan⟩ := h.token_of_not token depth hhead
      refine ⟨front, back ++ Token.texts tokens, by simp [Token.texts, htext], fun rest => ?_⟩
      rw [Token.texts, List.append_assoc, hscan]
      simp

end

end Scans

/-- The parts of a path that has more text in front. -/
def behindParts (front : List Char) (parts : List Char × List Char) : List Char × List Char :=
  (front ++ parts.1, parts.2)

/-- The search for the last separator is a scan. -/
theorem scans_splitScope? : Scans .scope splitScope? behindParts where
  nil := rfl
  append front front' := by
    funext parts
    simp [behindParts]
  cons depth c rest hc := by
    rw [splitScope?]
    · cases splitScope? (depthAfter depth c) rest <;> rfl
    · rintro _ rfl rfl
      exact absurd rfl (hc (.head _))

/-- The search for the first `+` is a scan. -/
theorem scans_beforePlus? : Scans .bound beforePlus? (· ++ ·) where
  nil := rfl
  append front front' := by
    funext bound
    simp
  cons depth c rest hc := by
    rw [beforePlus?, if_neg fun ⟨hplus, hdepth⟩ => hc (hplus ▸ .head _) hdepth]
    cases beforePlus? (depthAfter depth c) rest <;> rfl

end Scans

/-! ## The place of the dot -/

section Paths

variable {kind : Joint} {rest : List Char} {parts : List Char × List Char}

theorem coversIn_generics (tokens : List Token) :
    Token.coversIn kind 0 (Token.generics tokens) = Token.coversIn kind 1 tokens := by
  cases tokens with
  | nil => rfl
  | cons token tokens => exact Bool.and_true _

theorem coversIn_ending (p : Path) : Token.coversIn kind 0 p.ending = p.covers kind := by
  obtain ⟨scopes, name, args⟩ := p
  exact (Bool.true_and _).trans (coversIn_generics _)

/-- There is no `+` in front of the arguments of a path. -/
theorem coversIn_tokens (p : Path) : Token.coversIn .bound 0 p.tokens = p.covers .bound := by
  have hscopes (scopes : List Ident) : Token.coversIn .bound 0 (Ident.qualifiers scopes) := by
    induction scopes with
    | nil => rfl
    | cons scope scopes ih => exact ih
  obtain ⟨scopes, name, args⟩ := p
  rw [← coversIn_ending, Path.tokens, Token.coversIn_append, hscopes, Bool.true_and, Nat.zero_sub]
  rfl

theorem texts_qualifiers_cons (scope : Ident) (scopes : List Ident) :
    Token.texts (Ident.qualifiers (scope :: scopes)) ++ rest =
      scope.chars ++ ':' :: ':' :: (Token.texts (Ident.qualifiers scopes) ++ rest) := by
  simp [Ident.qualifiers, Token.texts, Token.text, Joint.text]

theorem text_eq (p : Path) :
    p.text = Token.texts (Ident.qualifiers p.scopes) ++ Token.texts p.ending := by
  obtain ⟨scopes, name, args⟩ := p
  exact Token.texts_append _ _

/-- Behind a scope there is a separator to split at, unless there is a later one. -/
theorem splitScope?_scope (scope : Ident) (rest : List Char) :
    splitScope? 0 (scope.chars ++ ':' :: ':' :: rest) =
      some (((splitScope? 0 rest).map (behindParts (scope.chars ++ [':', ':']))).getD
        (scope.chars, rest)) := by
  rw [scans_splitScope?.word scope.toWord, splitScope?]
  cases splitScope? 0 rest <;> simp [behindParts]

/-- A separator in what follows the scopes is the one to split at. -/
theorem splitScope?_qualifiers (scopes : List Ident) (h : splitScope? 0 rest = some parts) :
    splitScope? 0 (Token.texts (Ident.qualifiers scopes) ++ rest) =
      some (behindParts (Token.texts (Ident.qualifiers scopes)) parts) := by
  induction scopes with
  | nil => exact h
  | cons scope scopes ih =>
    have htexts : Token.texts (Ident.qualifiers (scope :: scopes)) ++ [] =
        scope.chars ++ ':' :: ':' :: (Token.texts (Ident.qualifiers scopes) ++ []) :=
      texts_qualifiers_cons scope scopes
    rw [texts_qualifiers_cons, splitScope?_scope, ih]
    simp_all [behindParts]

/-- With no separator in what follows, the dot stands behind the last scope. -/
theorem dotPath_qualifiers (scopes : List Ident) (h : splitScope? 0 rest = none) :
    dotPath (Token.texts (Ident.qualifiers scopes) ++ rest) = Path.dottedBehind rest scopes := by
  cases scopes with
  | nil => simp [Ident.qualifiers, Token.texts, dotPath, h, Path.dottedBehind]
  | cons scope scopes =>
    suffices hsplit : ∃ parts, splitScope? 0
        (Token.texts (Ident.qualifiers (scope :: scopes)) ++ rest) = some parts ∧
        parts.1 ++ '.' :: parts.2 = Path.dottedBehind rest (scope :: scopes) by
      obtain ⟨parts, hsplit, hdotted⟩ := hsplit
      simp [dotPath, hsplit, hdotted]
    induction scopes generalizing scope with
    | nil =>
      refine ⟨(scope.chars, rest), ?_, rfl⟩
      rw [texts_qualifiers_cons, splitScope?_scope]
      simp [Ident.qualifiers, Token.texts, h]
    | cons next scopes ih =>
      obtain ⟨parts, hsplit, hdotted⟩ := ih next
      refine ⟨behindParts (scope.chars ++ [':', ':']) parts, ?_, ?_⟩
      · rw [texts_qualifiers_cons, splitScope?_scope, hsplit]
        rfl
      · simp [behindParts, Path.dottedBehind, hdotted]

/-- A dot at a separator further behind is in the wrong place. -/
theorem ne_dottedBehind (scopes : List Ident) (scope name : List Char) :
    Token.texts (Ident.qualifiers scopes) ++ scope ++ '.' :: name ≠
      Path.dottedBehind (scope ++ ':' :: ':' :: name) scopes := by
  match scopes with
  | [] =>
    intro h
    simpa [Ident.qualifiers, Token.texts, Path.dottedBehind] using congrArg List.length h
  | [first] =>
    rw [List.append_assoc, texts_qualifiers_cons, Path.dottedBehind]
    simp
  | first :: next :: scopes =>
    have ih := ne_dottedBehind (next :: scopes) scope name
    rw [List.append_assoc] at ih
    rw [List.append_assoc, texts_qualifiers_cons, Path.dottedBehind]
    · simpa using ih
    · simp

/-- The dot comes out in its place exactly if no separator in the arguments is read at depth
zero. -/
theorem dotPath_text_iff (p : Path) : dotPath p.text = p.dottedText ↔ p.covers .scope := by
  rw [text_eq, Path.dottedText, ← coversIn_ending]
  constructor
  · intro h
    by_contra hnot
    obtain ⟨front, back, -, hscan⟩ := scans_splitScope?.tokens_of_not p.ending 0 hnot
    obtain ⟨parts, hparts⟩ : ∃ parts, splitScope? 0 (Token.texts p.ending) = some parts := by
      have hfound := hscan []
      simp only [Joint.text, List.append_nil, List.cons_append, splitScope?] at hfound
      rw [hfound]
      split <;> exact ⟨_, rfl⟩
    refine ne_dottedBehind p.scopes parts.1 parts.2 ?_
    rw [← eq_of_splitScope? hparts, ← h, dotPath, splitScope?_qualifiers p.scopes hparts]
    rfl
  · intro hcovers
    have hscan := scans_splitScope?.tokens p.ending 0 [] hcovers
    rw [List.append_nil] at hscan
    exact dotPath_qualifiers p.scopes (by simpa [splitScope?] using hscan)

end Paths

/-! ## The first bound -/

section Bounds

variable {rest : List Char}

/-- No path begins like the name of an object, because no identifier has a blank. -/
theorem path_text (p : Path) : path p.text = p.text := by
  obtain ⟨first, rest, htext, hrest⟩ : ∃ (first : Ident) (rest : List Char),
      p.text = first.chars ++ rest ∧ ∀ c ∈ rest.head?, c ∉ "dyn ".toList := by
    obtain ⟨_ | ⟨scope, scopes⟩, name, args⟩ := p
    · refine ⟨name, Token.texts (Token.generics (Form.listed args)), rfl, ?_⟩
      cases Form.listed args <;> simp [Token.generics, Token.texts, Token.text, Bracket.opening]
    · refine ⟨scope, ':' :: ':' :: (Token.texts (Ident.qualifiers scopes) ++
        Token.texts (Path.ending (.mk scopes name args))), ?_, by simp⟩
      rw [text_eq]
      exact texts_qualifiers_cons scope scopes
  have hblank : ' ' ∉ first.chars := fun hmem => absurd (first.unblank _ hmem) (by decide)
  refine path_eq_self ?_
  rintro ⟨behind, hbehind⟩
  rw [htext] at hbehind
  rcases List.append_eq_append_iff.mp hbehind with ⟨more, hfirst, -⟩ | ⟨more, hdyn, hmore⟩
  · exact hblank (hfirst ▸ by simp)
  · cases more with
    | nil => exact hblank (by rw [← List.append_nil first.chars, ← hdyn]; decide)
    | cons c more => exact hrest c (by rw [hmore]; rfl) (by rw [hdyn]; simp)

/-- A path ends in its last identifier or in a bracket. -/
theorem text_ends (p : Path) :
    ∃ front c, p.text = front ++ [c] ∧ Text.isBlank c = false ∧ c ≠ '+' := by
  obtain ⟨scopes, name, args⟩ := p
  rw [text_eq]
  cases hlisted : Form.listed args with
  | nil =>
    obtain hnil | ⟨chars, c, hchars⟩ := List.eq_nil_or_concat name.chars
    · exact absurd hnil name.nonempty
    · have hmem : c ∈ name.chars := by simp [hchars]
      refine ⟨Token.texts (Ident.qualifiers scopes) ++ chars, c, ?_, name.unblank c hmem, ?_⟩
      · simp [Path.scopes, Path.ending, hlisted, Token.generics, Token.texts, Token.text, hchars]
      · rintro rfl
        exact absurd (name.isPlain_of_mem hmem) (by decide)
  | cons token tokens =>
    refine ⟨Token.texts (Ident.qualifiers scopes) ++ name.chars ++
      '<' :: Token.texts (token :: tokens), '>', ?_, by decide, by decide⟩
    simp [Path.scopes, Path.ending, hlisted, Token.generics, Token.texts, Token.text,
      Bracket.opening, Bracket.closing]

/-- The first bound comes out as it is, if no `+` in its arguments is read at depth zero. -/
theorem firstBound_of_covers (p : Path) (others : List Path) (h : p.covers .bound) :
    firstBound (p.text ++ Token.texts (Path.bounds others)) = p.text := by
  have hscan := scans_beforePlus?.tokens p.tokens 0 (Token.texts (Path.bounds others))
    ((coversIn_tokens p).trans h)
  rw [Nat.zero_sub] at hscan
  rw [firstBound, Path.text, hscan, ← Path.text]
  cases others with
  | nil => simp [Path.bounds, Token.texts, beforePlus?]
  | cons other others =>
    obtain ⟨front, c, htext, hblank, -⟩ := text_ends p
    have hplus : beforePlus? 0 (Token.texts (Path.bounds (other :: others))) = some [' '] := by
      simp [Path.bounds, Token.blank, Token.texts, Token.text, Joint.text, beforePlus?, depthAfter]
    have htrim : Text.trimEnd (p.text ++ [' ']) = p.text := by
      have hspace : Text.isBlank ' ' = true := by decide
      simp [Text.trimEnd, htext, hspace, hblank]
    simpa [hplus] using htrim

/-- What comes out instead is too short. -/
theorem firstBound_of_not (p : Path) (rest : List Char) (h : ¬ p.covers .bound) :
    (firstBound (p.text ++ rest)).length + 2 ≤ p.text.length := by
  obtain ⟨front, back, htext, hscan⟩ :=
    scans_beforePlus?.tokens_of_not p.tokens 0 (by rwa [coversIn_tokens])
  have hbound : firstBound (p.text ++ rest) = Text.trimEnd front := by
    rw [firstBound, Path.text, hscan]
    simp [Joint.text, beforePlus?]
  have htrim : (Text.trimEnd front).length ≤ front.length := by
    simpa [Text.trimEnd] using (List.dropWhile_suffix Text.isBlank (l := front.reverse)).length_le
  have hback : back ≠ [] := by
    rintro rfl
    obtain ⟨front', c, htext', -, hc⟩ := text_ends p
    have hlast : p.text.getLast? = some '+' := by simp [Path.text, htext, Joint.text]
    simp [htext'] at hlast
    exact hc hlast
  have hlength : p.text.length = front.length + 1 + back.length := by
    simp [Path.text, htext, Joint.text, Nat.add_comm, Nat.add_left_comm]
  have := List.length_pos_iff.mpr hback
  rw [hbound]
  omega

/-- Dotting shortens a path by at most one character. -/
theorem length_dotPath (text : List Char) :
    (dotPath text).length ≤ text.length ∧ text.length ≤ (dotPath text).length + 1 := by
  rcases dotPath_cases text with heq | ⟨scope, name, rfl, heq⟩ <;> rw [heq]
  · omega
  · simp only [List.length_append, List.length_cons]
    omega

/-- So does putting the dot in its place. -/
theorem length_dottedText (p : Path) : p.text.length ≤ p.dottedText.length + 1 := by
  have hbehind (ending : List Char) (scopes : List Ident) :
      (Token.texts (Ident.qualifiers scopes) ++ ending).length ≤
        (Path.dottedBehind ending scopes).length + 1 := by
    induction scopes with
    | nil => exact Nat.le_succ _
    | cons scope scopes ih =>
      rw [texts_qualifiers_cons]
      cases scopes with
      | nil =>
        simp [Ident.qualifiers, Token.texts, Path.dottedBehind]
        omega
      | cons next scopes =>
        simp only [Path.dottedBehind, List.length_append, List.length_cons] at ih ⊢
        omega
  rw [text_eq]
  exact hbehind _ p.scopes

theorem dotted_ofList (text : List Char) :
    dotted (String.ofList text) = String.ofList (dotPath (path text)) := by
  rw [dotted, String.toList_ofList]

theorem path_objectText (p : Path) (others : List Path) :
    path (p.objectText others) = firstBound (p.text ++ Token.texts (Path.bounds others)) := by
  simp [Path.objectText, Form.tokens, Token.texts, Token.text, path, Path.text]

/-- When the name of a path comes out with the dot in front of its last identifier and every other
character as it was, and when the name of an object comes out like that of its first bound: exactly
if no `::`, or no `+`, of the arguments is read at depth zero. Without the arrow of a function among
the arguments that is so. -/
theorem dotted_path_iff (p : Path) (others : List Path) :
    (dotted (String.ofList p.text) = String.ofList p.dottedText ↔ p.covers .scope) ∧
    (dotted (String.ofList (p.objectText others)) = dotted (String.ofList p.text) ↔
      p.covers .bound) ∧
    (dotted (String.ofList (p.objectText others)) = String.ofList p.dottedText ↔
      p.covers .scope ∧ p.covers .bound) ∧
    (Token.arrowsIn (Form.listed p.args) = 0 → p.covers .scope ∧ p.covers .bound) := by
  have hinj {text text' : List Char} : String.ofList text = String.ofList text' ↔ text = text' :=
    ⟨fun h => String.ofList_injective h, congrArg _⟩
  simp only [dotted_ofList, hinj, path_text, path_objectText]
  have hdot := dotPath_text_iff p
  have hshort := firstBound_of_not p (Token.texts (Path.bounds others))
  have hlength := length_dotPath (firstBound (p.text ++ Token.texts (Path.bounds others)))
  refine ⟨hdot, ⟨fun h => ?_, fun h => ?_⟩, ⟨fun h => ?_, fun h => ?_⟩, fun h => ?_⟩
  · by_contra hnot
    have := length_dotPath p.text
    have := hshort hnot
    rw [h] at hlength
    omega
  · rw [firstBound_of_covers p others h]
  · have hbound : p.covers .bound := by
      by_contra hnot
      have := length_dottedText p
      have := hshort hnot
      rw [h] at hlength
      omega
    rw [firstBound_of_covers p others hbound] at h
    exact ⟨hdot.mp h, hbound⟩
  · rw [firstBound_of_covers p others h.2]
    exact hdot.mpr h.1
  · have hdepth : Token.arrowsIn (Form.listed p.args) < 1 := by omega
    exact ⟨Token.coversIn_of_arrows _ 1 hdepth, Token.coversIn_of_arrows _ 1 hdepth⟩

/-- A fixed identifier. -/
def Ident.of (s : String)
    (h : s.toList.all isPlain ∧ s.toList ≠ [] ∧ s.toList.all (! Text.isBlank ·)) : Ident where
  chars := s.toList
  plain := h.1
  nonempty := h.2.1
  unblank := by simpa using h.2.2

/-- The vectors of functions from `u8` to `app::A`. -/
def vectorOfFunctions : Path :=
  let byte : Path := .mk [] (.of "u8" (by decide)) []
  let component : Path := .mk [.of "app" (by decide)] (.of "A" (by decide)) []
  .mk [.of "alloc" (by decide), .of "vec" (by decide)] (.of "Vec" (by decide))
    [.function [.path byte] (.path component)]

/-- Behind the arrow of a function the scan is at depth zero, although it is in the brackets of the
arguments, and it takes the separator there for the one in front of the last identifier. -/
theorem dotted_vectorOfFunctions :
    String.ofList vectorOfFunctions.text = "alloc::vec::Vec<fn(u8) -> app::A>" ∧
      String.ofList vectorOfFunctions.dottedText = "alloc::vec.Vec<fn(u8) -> app::A>" ∧
      dotted "alloc::vec::Vec<fn(u8) -> app::A>" = "alloc::vec::Vec<fn(u8) -> app.A>" ∧
      ¬ ∀ p : Path, dotted (String.ofList p.text) = String.ofList p.dottedText := by
  have hactual : dotted "alloc::vec::Vec<fn(u8) -> app::A>" =
    "alloc::vec::Vec<fn(u8) -> app.A>" := by decide +kernel
  have htext : String.ofList vectorOfFunctions.text = "alloc::vec::Vec<fn(u8) -> app::A>" := by
    decide +kernel
  have hdotted : String.ofList vectorOfFunctions.dottedText =
    "alloc::vec.Vec<fn(u8) -> app::A>" := by decide +kernel
  refine ⟨htext, hdotted, hactual, fun h => ?_⟩
  have hpath := h vectorOfFunctions
  rw [htext, hdotted, hactual] at hpath
  exact absurd hpath (by decide)

end Bounds

end Wiring.TypeName
