import Wiring.Export.Diagram

/-!
# Quoted labels

A label is drawn between double quotes, and each quote in it has a backslash put in front. A scanner
that takes a backslash as escaping the next character, wherever it comes from, stops at the closing
quote exactly if the label's own backslashes come in pairs wherever a quote or the end follows them
(`scan?_iff`). Such a label can be read back (`Paired.unescape_eq`).

Drawings are read as lexemes: words, signs, and quoted texts as far as the scanner goes (`lexemes?`).
`Reads` says of a piece of a drawing as which lexemes it is read, whatever comes behind it.
-/

namespace Wiring.Export.Diagram

/-! ## Quoted texts -/

/-- Reads on in a quoted text, where a backslash escapes the next character: what stands before the
first quote that is not escaped, and what comes behind it. -/
def scan? : (escaped : Bool) → List Char → Option (List Char × List Char)
  | _, [] => none
  | true, c :: cs => (scan? false cs).map (Prod.map (c :: ·) id)
  | false, c :: cs =>
    if c = '\x22' then some ([], cs)
    else (scan? (c = '\x5c') cs).map (Prod.map (c :: ·) id)

/-- What a quoted text says: a backslash in front of a quote only marks it. -/
def unescape : (escaped : Bool) → List Char → List Char
  | false, [] => []
  | true, [] => ['\x5c']
  | false, c :: cs => if c = '\x5c' then unescape true cs else c :: unescape false cs
  | true, c :: cs =>
    if c = '\x22' then '\x22' :: unescape false cs else '\x5c' :: c :: unescape false cs

/-- Whether a text ends in an odd number of backslashes, so that the next character is escaped. -/
def escapes (text : List Char) : Bool := (text.reverse.takeWhile (· = '\x5c')).length % 2 = 1

/-- The backslashes of a text come in pairs wherever a quote or the end follows them. -/
structure Paired (text : List Char) : Prop where
  quotes : ∀ before after, text = before ++ '\x22' :: after → escapes before = false
  ending : escapes text = false

/-- A text without quotes and backslashes. -/
structure Unmarked (text : List Char) : Prop where
  quote : '\x22' ∉ text
  backslash : '\x5c' ∉ text

section

variable {label behind raw rest : List Char} {c : Char}

theorem escape_quote : escape ('\x22' :: label) = '\x5c' :: '\x22' :: escape label := rfl

theorem escape_cons_of_ne (hc : c ≠ '\x22') : escape (c :: label) = c :: escape label := by
  simp [escape, hc]

theorem escapes_concat (text : List Char) (c : Char) :
    escapes (text ++ [c]) = (c = '\x5c' && !escapes text) := by
  simp only [escapes, List.reverse_append, List.reverse_singleton, List.singleton_append,
    List.takeWhile_cons]
  by_cases hc : c = '\x5c'
  · simp only [hc, decide_true, if_true, List.length_cons, Bool.true_and]
    rw [← decide_not, decide_eq_decide]
    omega
  · simp [hc]

/-- A quote of a text is its first character or stands further behind. -/
theorem forall_quote_cons {p : List Char → Prop} :
    (∀ before after, c :: label = before ++ '\x22' :: after → p before) ↔
      (c = '\x22' → p []) ∧ ∀ before after, label = before ++ '\x22' :: after → p (c :: before) := by
  constructor
  · refine fun h => ⟨?_, fun before after heq => h (c :: before) after (heq ▸ rfl)⟩
    rintro rfl
    exact h [] label rfl
  · rintro ⟨hfirst, hlater⟩ before after heq
    rcases List.cons_eq_append_iff.1 heq with ⟨rfl, hquote⟩ | ⟨before, rfl, hlabel⟩
    · exact hfirst (List.cons.inj hquote).1.symm
    · exact hlater before after hlabel

/-! ### The scanner on a label -/

/-- Behind the front of a label, the scanner goes on to the closing quote exactly if neither a quote
nor the end is found escaped. -/
theorem scan?_escape_iff (front : List Char) :
    scan? (escapes front) (escape label ++ '\x22' :: behind) = some (escape label, behind) ↔
      (∀ before after, label = before ++ '\x22' :: after → escapes (front ++ before) = false) ∧
        escapes (front ++ label) = false := by
  -- of the front only its last backslashes count, so the label is taken over character by character
  induction label generalizing front with
  | nil => cases h : escapes front <;> simp [escape, scan?, h]
  | cons c label ih =>
    have ih := ih (front ++ [c])
    simp only [List.append_assoc, List.singleton_append, escapes_concat] at ih
    rw [forall_quote_cons, and_assoc, ← ih, List.append_nil]
    by_cases hquote : c = '\x22'
    · rw [hquote, escape_quote]
      cases h : escapes front <;> simp [scan?, Prod.map]
    · rw [escape_cons_of_ne hquote]
      cases h : escapes front <;> simp [scan?, hquote]

/-- The scanner stops at the closing quote of a label exactly if the label is paired. -/
theorem scan?_iff :
    scan? false (escape label ++ '\x22' :: behind) = some (escape label, behind) ↔ Paired label := by
  rw [show false = escapes [] from rfl, scan?_escape_iff []]
  exact ⟨fun h => ⟨h.1, h.2⟩, fun h => ⟨h.quotes, h.ending⟩⟩

instance (label : List Char) : Decidable (Paired label) :=
  decidable_of_iff (scan? false (escape label ++ ['\x22']) = some (escape label, [])) scan?_iff

/-- What is read in front of a character is read behind it as well. -/
theorem exists_of_map_cons {read : Option (List Char × List Char)}
    (h : read.map (Prod.map (c :: ·) id) = some (raw, rest)) :
    ∃ raw', raw = c :: raw' ∧ read = some (raw', rest) := by
  obtain ⟨⟨raw', rest'⟩, hread, heq⟩ := Option.map_eq_some_iff.1 h
  obtain ⟨rfl, rfl⟩ := Prod.mk.inj heq
  exact ⟨raw', rfl, hread⟩

/-- A quote comes behind what the scanner has read. -/
theorem eq_of_scan? {escaped : Bool} {cs : List Char} (h : scan? escaped cs = some (raw, rest)) :
    cs = raw ++ '\x22' :: rest := by
  induction cs generalizing escaped raw with
  | nil => cases escaped <;> cases h
  | cons c cs ih =>
    cases escaped with
    | true =>
      obtain ⟨raw, rfl, hread⟩ := exists_of_map_cons h
      exact congrArg (c :: ·) (ih hread)
    | false =>
      rw [scan?] at h
      split at h
      · next hquote =>
        obtain ⟨rfl, rfl⟩ := Prod.mk.inj (Option.some.inj h)
        exact congrArg (· :: cs) hquote
      · obtain ⟨raw, rfl, hread⟩ := exists_of_map_cons h
        exact congrArg (c :: ·) (ih hread)

/-! ### What a quoted text says -/

/-- What the scanner has read is as it is written for what it says. -/
theorem escape_unescape {escaped : Bool} {cs : List Char} (h : scan? escaped cs = some (raw, rest)) :
    escape (unescape escaped raw) = if escaped then '\x5c' :: raw else raw := by
  induction cs generalizing escaped raw with
  | nil => cases escaped <;> cases h
  | cons c cs ih =>
    cases escaped with
    | true =>
      obtain ⟨raw, rfl, hread⟩ := exists_of_map_cons h
      by_cases hquote : c = '\x22'
      · simpa [unescape, hquote, escape_quote] using ih hread
      · simpa [unescape, hquote, escape_cons_of_ne] using ih hread
    | false =>
      rw [scan?] at h
      split at h
      · obtain ⟨rfl, rfl⟩ := Prod.mk.inj (Option.some.inj h)
        rfl
      · next hquote =>
        obtain ⟨raw, rfl, hread⟩ := exists_of_map_cons h
        by_cases hc : c = '\x5c'
        · simpa [unescape, hc] using ih hread
        · simpa [unescape, hc, escape_cons_of_ne hquote] using ih hread

/-- What is written for a label says the label, behind a front that leaves none of its quotes
escaped; a backslash that is still open at the front counts as said. -/
theorem unescape_escape (front : List Char)
    (h : ∀ before after, label = before ++ '\x22' :: after → escapes (front ++ before) = false) :
    unescape (escapes front) (escape label) = if escapes front then '\x5c' :: label else label := by
  induction label generalizing front with
  | nil => cases escapes front <;> rfl
  | cons c label ih =>
    obtain ⟨hfirst, hlater⟩ := forall_quote_cons.1 h
    have ih := ih (front ++ [c])
    simp only [List.append_assoc, List.singleton_append, escapes_concat] at ih
    have ih := ih hlater
    by_cases hquote : c = '\x22'
    · have hfront : escapes front = false := by simpa using hfirst hquote
      rw [hquote, escape_quote]
      simpa [unescape, hfront, hquote] using ih
    · rw [escape_cons_of_ne hquote]
      by_cases hc : c = '\x5c' <;> cases hfront : escapes front <;> simp_all [unescape]

/-- A paired label is read back. -/
theorem Paired.unescape_eq (h : Paired label) : unescape false (escape label) = label :=
  unescape_escape [] h.quotes

instance (text : List Char) : Decidable (Unmarked text) :=
  decidable_of_iff ('\x22' ∉ text ∧ '\x5c' ∉ text)
    ⟨fun h => ⟨h.1, h.2⟩, fun h => ⟨h.quote, h.backslash⟩⟩

theorem Unmarked.of_cons (h : Unmarked (c :: label)) : c ≠ '\x22' ∧ Unmarked label :=
  ⟨fun hc => h.quote (hc ▸ List.mem_cons_self), fun hmem => h.quote (List.mem_cons_of_mem c hmem),
    fun hmem => h.backslash (List.mem_cons_of_mem c hmem)⟩

theorem Unmarked.escape_eq (h : Unmarked label) : escape label = label := by
  induction label with
  | nil => rfl
  | cons c label ih => rw [escape_cons_of_ne h.of_cons.1, ih h.of_cons.2]

theorem escapes_of_notMem {text : List Char} (h : '\x5c' ∉ text) : escapes text = false := by
  rw [escapes]
  cases hreverse : text.reverse with
  | nil => rfl
  | cons c cs =>
    have hmem : c ∈ text := List.mem_reverse.1 (hreverse ▸ List.mem_cons_self)
    have hc : c ≠ '\x5c' := fun hc => h (hc ▸ hmem)
    rw [List.takeWhile_cons_of_neg (by simpa using hc)]
    rfl

/-- Without backslashes a label is paired, whatever quotes it has. -/
theorem paired_of_notMem (h : '\x5c' ∉ label) : Paired label where
  quotes before after heq := by
    refine escapes_of_notMem fun hmem => h ?_
    rw [heq]
    exact List.mem_append_left _ hmem
  ending := escapes_of_notMem h

theorem Unmarked.paired (h : Unmarked label) : Paired label := paired_of_notMem h.backslash

theorem toList_quote (label : String) :
    (quote label).toList = '\x22' :: (escape label.toList ++ ['\x22']) := by
  simp [quote]

/-- A text without quotes and backslashes stands between the quotes as it is. -/
theorem toList_quote_of_unmarked {text : String} (h : Unmarked text.toList) :
    (quote text).toList = '\x22' :: (text.toList ++ ['\x22']) := by
  rw [toList_quote, h.escape_eq]

end

/-! ## Lexemes -/

/-- What a character is in a drawing, outside quoted texts. -/
inductive CharKind where
  | letter
  | blank
  | quote
  | sign
  deriving DecidableEq, Repr

/-- The kind of a character. -/
def CharKind.of (c : Char) : CharKind :=
  if c.isAlphanum then .letter
  else if c.isWhitespace then .blank
  else if c = '\x22' then .quote
  else .sign

/-- Whether a character belongs to a word. -/
def isLetter (c : Char) : Bool := CharKind.of c = .letter

/-- A lexical unit of a drawing; a quoted text counts as what it says. -/
inductive Lexeme where
  | word (text : String)
  | quoted (text : String)
  | sign (c : Char)
  deriving DecidableEq, Repr

/-- Cuts a drawing into lexemes; `none` if a quoted text does not end. -/
def lexemes? : List Char → Option (List Lexeme)
  | [] => some []
  | c :: cs =>
    match CharKind.of c with
    | .letter =>
      (lexemes? (cs.dropWhile isLetter)).map
        (.word (String.ofList (c :: cs.takeWhile isLetter)) :: ·)
    | .blank => lexemes? cs
    | .quote =>
      match _hscan : scan? false cs with
      | none => none
      | some (raw, rest) => (lexemes? rest).map (.quoted (String.ofList (unescape false raw)) :: ·)
    | .sign => (lexemes? cs).map (.sign c :: ·)
termination_by cs => cs.length
decreasing_by
  · exact Nat.lt_succ_of_le (List.dropWhile_sublist _).length_le
  · exact Nat.lt_add_one _
  · rw [eq_of_scan? _hscan]
    simp only [List.length_cons, List.length_append]
    omega
  · exact Nat.lt_add_one _

/-- A quoted text is read as far as the scanner goes. -/
theorem lexemes?_quote (cs : List Char) :
    lexemes? ('\x22' :: cs) = (scan? false cs).bind fun read =>
      (lexemes? read.2).map (.quoted (String.ofList (unescape false read.1)) :: ·) := by
  have hkind : CharKind.of '\x22' = .quote := rfl
  rw [lexemes?]
  simp only [hkind]
  split
  · next hnone => rw [hnone, Option.bind_none]
  · next hsome => rw [hsome, Option.bind_some]

/-- A text of letters only, and at least one. -/
def IsWord (text : String) : Prop := text.toList ≠ [] ∧ text.toList.all isLetter

instance (text : String) : Decidable (IsWord text) := inferInstanceAs (Decidable (_ ∧ _))

/-- A piece of a drawing is read as the given lexemes, whatever comes behind it. -/
def Reads (text : List Char) (lexemes : List Lexeme) : Prop :=
  ∀ rest, lexemes? (text ++ rest) = (lexemes? rest).map (lexemes ++ ·)

namespace Reads

variable {text text' : List Char} {lexemes lexemes' : List Lexeme} {c : Char}

theorem nil : Reads [] [] := fun rest => by simp

theorem append (h : Reads text lexemes) (h' : Reads text' lexemes') :
    Reads (text ++ text') (lexemes ++ lexemes') := by
  intro rest
  rw [List.append_assoc, h, h', Option.map_map]
  simp only [Function.comp_def, List.append_assoc]

theorem flatMap {α : Type} {xs : List α} {f : α → List Char} {g : α → List Lexeme}
    (h : ∀ x ∈ xs, Reads (f x) (g x)) : Reads (xs.flatMap f) (xs.flatMap g) := by
  induction xs with
  | nil => exact nil
  | cons x xs ih =>
    rw [List.forall_mem_cons] at h
    rw [List.flatMap_cons, List.flatMap_cons]
    exact h.1.append (ih h.2)

theorem blank (hc : CharKind.of c = .blank) (h : Reads text lexemes) : Reads (c :: text) lexemes := by
  intro rest
  rw [List.cons_append, lexemes?, hc]
  exact h rest

theorem sign (hc : CharKind.of c = .sign) (h : Reads text lexemes) :
    Reads (c :: text) (.sign c :: lexemes) := by
  intro rest
  rw [List.cons_append, lexemes?, hc]
  simp [h rest, Function.comp_def]

/-- A word ends in front of the first character that is no letter. -/
theorem word {word : String} (hword : IsWord word) (hc : CharKind.of c ≠ .letter)
    (h : Reads (c :: text) lexemes) : Reads (word.toList ++ c :: text) (.word word :: lexemes) := by
  intro rest
  obtain ⟨hne, hall⟩ := hword
  obtain ⟨d, ds, hcons⟩ := List.exists_cons_of_ne_nil hne
  rw [hcons, List.all_eq_true, List.forall_mem_cons] at hall
  have hkind : CharKind.of d = .letter := of_decide_eq_true hall.1
  have hend : ¬ isLetter c := by simpa [isLetter] using hc
  rw [hcons, List.append_assoc, List.cons_append, lexemes?, hkind]
  simp only [List.cons_append, List.takeWhile_append_of_pos hall.2, List.takeWhile_cons_of_neg hend,
    List.dropWhile_append_of_pos hall.2, List.dropWhile_cons_of_neg hend, List.append_nil, ← hcons,
    String.ofList_toList]
  rw [← List.cons_append, h rest, Option.map_map]
  rfl

/-- A word that is set to another, in front of a sign. -/
theorem setting {name value : String} (hname : IsWord name) (hvalue : IsWord value)
    (hc : CharKind.of c = .sign) (h : Reads text lexemes) :
    Reads (name.toList ++ '=' :: (value.toList ++ c :: text))
      (.word name :: .sign '=' :: .word value :: .sign c :: lexemes) :=
  word hname (by decide) (sign rfl (word hvalue (by simp [hc]) (sign hc h)))

/-- A paired label between its quotes is read as one lexeme. -/
theorem quoted {label : String} (hlabel : Paired label.toList) (h : Reads text lexemes) :
    Reads ((quote label).toList ++ text) (.quoted label :: lexemes) := by
  intro rest
  have hscan : scan? false (escape label.toList ++ '\x22' :: (text ++ rest)) =
      some (escape label.toList, text ++ rest) := scan?_iff.2 hlabel
  simp [toList_quote, lexemes?_quote, hscan, hlabel.unescape_eq, h rest, Function.comp_def]

theorem lexemes?_eq (h : Reads text lexemes) : lexemes? text = some lexemes := by
  have hend := h []
  rw [List.append_nil] at hend
  rw [hend, lexemes?, Option.map_some, List.append_nil]

end Reads

end Wiring.Export.Diagram
