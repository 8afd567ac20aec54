import Mathlib.Data.List.Induction
import Mathlib.Logic.Relation
import Wiring.Scenario.Drill

/-!
# Cancellation follows ancestry

Contexts are made, derived from one another, copied and cancelled in any order. How each of them came
up (`Contexts.origins`) says who is a copy of whom (`Contexts.Twins`) and who is derived from whom
(`Contexts.Ancestor`), whatever flags they were given. `Contexts.Traces` ties the two: a context has
the flag of its copies and of no other, and below it the flags of those it is derived from. So a
context is cancelled exactly if one of its copies, one of its ancestors or a copy of an ancestor was
cancelled, before it came up or after (`Contexts.cancellation_follows`).
-/

namespace Wiring

/-! ## Lineage -/

/-- The flags by which a context is cancelled: its own, and those of the contexts it is derived
from. -/
def Context.lineage : Context → List Nat
  | root flag => [flag]
  | child flag parent => flag :: parent.lineage

theorem Context.flag_mem_lineage (c : Context) : c.flag ∈ c.lineage := by
  cases c <;> exact List.mem_cons_self

theorem Context.isCancelled_iff (flags : Flags) (c : Context) :
    c.isCancelled flags = true ↔ ∃ flag ∈ c.lineage, flag ∈ flags.raised := by
  induction c with
  | root flag => simp [isCancelled, lineage, Flags.isRaised]
  | child flag parent ih => simp [isCancelled, lineage, Flags.isRaised, ih]

namespace Scenario

/-- How a context came up: on its own, derived from a context, or as a copy of one. -/
inductive Origin where
  | new
  | child (parent : Nat)
  | copy (of : Nat)
  deriving DecidableEq, Repr

namespace ContextCommand

/-- How the context came up that a command adds, if it adds one. -/
def origin? : ContextCommand → Option Origin
  | new => some .new
  | child parent => some (.child parent)
  | copy of => some (.copy of)
  | cancel _ | check _ | display _ => none

/-- The context that a command is about. -/
def subject? : ContextCommand → Option Nat
  | new => none
  | child n | copy n | cancel n | check n | display n => some n

end ContextCommand

namespace Contexts

/-- The contexts after commands were carried out. -/
def after (commands : List ContextCommand) : Contexts :=
  commands.foldl (fun s command => (s.perform command).2) start

/-- How the contexts came up, by their numbers. The first one is there from the beginning. -/
def origins (commands : List ContextCommand) : List Origin :=
  .new :: commands.filterMap ContextCommand.origin?

/-- Every command is about a context that is there by then, given how many are there before. -/
def Legal : Nat → List ContextCommand → Prop
  | _, [] => True
  | count, command :: rest =>
    (∀ n ∈ command.subject?, n < count) ∧ Legal (count + command.origin?.toList.length) rest

instance decidableLegal : (count : Nat) → (commands : List ContextCommand) →
    Decidable (Legal count commands)
  | _, [] => inferInstanceAs (Decidable True)
  | count, command :: rest =>
    have := decidableLegal (count + command.origin?.toList.length) rest
    inferInstanceAs (Decidable ((∀ n ∈ command.subject?, n < count) ∧
      Legal (count + command.origin?.toList.length) rest))

/-! ## Ancestry -/

section

variable (origins : List Origin)

/-- Two contexts are copies of each other, through any number of copies in between. -/
def Twins : Nat → Nat → Prop := Relation.EqvGen fun i o => origins[i]? = some (.copy o)

/-- Context `i`, or a copy of it, was derived from context `p`. -/
def Parent (p i : Nat) : Prop := ∃ c, Twins origins c i ∧ origins[c]? = some (.child p)

/-- Context `i` goes back to context `a` through one derivation or several. -/
def Ancestor : Nat → Nat → Prop := Relation.TransGen (Parent origins)

/-- Context `j` is a copy of context `i`, or of an ancestor of it. -/
def Governs (j i : Nat) : Prop := Twins origins j i ∨ ∃ a, Ancestor origins a i ∧ Twins origins j a

end

/-- The context was cancelled. -/
def Cancelled (commands : List ContextCommand) (i : Nat) : Prop :=
  ((after commands).context i).isCancelled (after commands).flags = true

/-! ## Contexts and their origins -/

/-- What context `i` is if it came up so. The contexts that it was made from came up before it. -/
inductive Makes (contexts : Array Context) (i : Nat) : Origin → Context → Prop
  | new : Makes contexts i .new (.root flag)
  | child : p < i → contexts[p]? = some parent → Makes contexts i (.child p) (.child flag parent)
  | copy : o < i → contexts[o]? = some c → Makes contexts i (.copy o) c

/-- The contexts are as their origins say, and have flags of their own unless they are copies. -/
structure Traces (origins : List Origin) (s : Contexts) : Prop where
  size : s.contexts.size = origins.length
  made : ∀ ⦃i : Nat⦄ ⦃o : Origin⦄, origins[i]? = some o →
    ∃ c, s.contexts[i]? = some c ∧ Makes s.contexts i o c
  given : ∀ ⦃i : Nat⦄ ⦃c : Context⦄, s.contexts[i]? = some c → c.flag < s.flags.next
  own : ∀ ⦃i j : Nat⦄ ⦃c d : Context⦄, s.contexts[i]? = some c → s.contexts[j]? = some d →
    c.flag = d.flag → (∀ o, origins[i]? ≠ some (.copy o)) → (∀ o, origins[j]? ≠ some (.copy o)) →
      i = j

variable {os : List Origin} {s : Contexts} {i j a p : Nat} {c d : Context}

theorem getElem?_start (h : start.contexts[i]? = some c) : i = 0 ∧ c = .root 0 := by
  obtain ⟨hlt, rfl⟩ := Array.getElem?_eq_some_iff.1 h
  obtain rfl : i = 0 := Nat.lt_one_iff.1 hlt
  exact ⟨rfl, rfl⟩

theorem start_traces : Traces [.new] start where
  size := rfl
  made i o h := by
    obtain ⟨hlt, rfl⟩ := List.getElem?_eq_some_iff.1 h
    obtain rfl : i = 0 := Nat.lt_one_iff.1 hlt
    exact ⟨.root 0, rfl, .new⟩
  given i c h := by
    obtain ⟨-, rfl⟩ := getElem?_start h
    exact Nat.zero_lt_one
  own i j c d hi hj _ _ _ := (getElem?_start hi).1.trans (getElem?_start hj).1.symm

theorem context_eq (h : i < s.contexts.size) : s.contexts[i]? = some (s.context i) := by
  rw [context, Array.getElem?_eq_getElem h]
  rfl

/-- Contexts that are there stay as they are. -/
theorem getElem?_perform (s : Contexts) (command : ContextCommand) (h : i < s.contexts.size) :
    (s.perform command).2.contexts[i]? = s.contexts[i]? := by
  have hpush (made : Context × Flags) : (s.push made).contexts[i]? = s.contexts[i]? := by
    rw [push, Array.getElem?_push, if_neg (Nat.ne_of_lt h)]
  cases command with
  | new | child | copy => exact hpush _
  | check n =>
    rw [perform]
    split <;> rfl
  | cancel | display => rfl

theorem Makes.push {contexts : Array Context} {o : Origin} (h : Makes contexts i o c)
    (added : Context) (hi : i ≤ contexts.size) : Makes (contexts.push added) i o c := by
  have hget {k : Nat} (hk : k < i) : (contexts.push added)[k]? = contexts[k]? := by
    rw [Array.getElem?_push, if_neg (by omega)]
  cases h with
  | new => exact .new
  | child hp hparent => exact .child hp ((hget hp).trans hparent)
  | copy ho hc => exact .copy ho ((hget ho).trans hc)

/-- A context is added that is as its origin says, with a flag of its own or as a copy. -/
theorem Traces.push (h : Traces os s) {o : Origin} {made : Context × Flags}
    (hmade : Makes s.contexts os.length o made.1) (hnext : s.flags.next ≤ made.2.next)
    (hgiven : made.1.flag < made.2.next)
    (hfresh : s.flags.next ≤ made.1.flag ∨ ∃ k, o = .copy k) :
    Traces (os ++ [o]) (s.push made) := by
  have hold {k : Nat} (hk : k < os.length) : (s.push made).contexts[k]? = s.contexts[k]? := by
    rw [Contexts.push, Array.getElem?_push, if_neg (by rw [h.size]; omega)]
  have hnew : (s.push made).contexts[os.length]? = some made.1 := by
    rw [Contexts.push, Array.getElem?_push, if_pos h.size.symm]
  have hsize : (s.push made).contexts.size = os.length + 1 := by
    rw [Contexts.push, Array.size_push, h.size]
  -- A context is one of those before, or the one that is added.
  have hcases {k : Nat} {e : Context} (hk : (s.push made).contexts[k]? = some e) :
      (k < os.length ∧ s.contexts[k]? = some e) ∨ k = os.length ∧ e = made.1 := by
    obtain ⟨hlt, -⟩ := Array.getElem?_eq_some_iff.1 hk
    rcases Nat.lt_or_ge k os.length with hlt' | hge
    · exact .inl ⟨hlt', (hold hlt').symm.trans hk⟩
    · obtain rfl : k = os.length := by omega
      exact .inr ⟨rfl, Option.some.inj (hk.symm.trans hnew)⟩
  refine ⟨by rw [hsize, List.length_append]; rfl, fun k o' hk => ?_, fun k e hk => ?_, ?_⟩
  · rcases Nat.lt_or_ge k os.length with hlt | hge
    · rw [List.getElem?_append_left hlt] at hk
      obtain ⟨e, he, hmakes⟩ := h.made hk
      exact ⟨e, (hold hlt).trans he, hmakes.push made.1 (by rw [h.size]; omega)⟩
    · rw [List.getElem?_append_right hge] at hk
      obtain ⟨hlt, heq⟩ := List.getElem?_eq_some_iff.1 hk
      obtain rfl : k = os.length := by simp at hlt; omega
      simp only [Nat.sub_self, List.getElem_cons_zero] at heq
      exact ⟨made.1, hnew, heq ▸ hmade.push made.1 (Nat.le_of_eq h.size.symm)⟩
  · rcases hcases hk with ⟨-, hk⟩ | ⟨-, rfl⟩
    · exact Nat.lt_of_lt_of_le (h.given hk) hnext
    · exact hgiven
  · -- An added context with the flag of an earlier one is a copy.
    have hapart {k : Nat} {e : Context} (hk : s.contexts[k]? = some e) (hflag : e.flag = made.1.flag)
        (hnot : ∀ n, (os ++ [o])[os.length]? ≠ some (.copy n)) : False := by
      have hlt := h.given hk
      rcases hfresh with hle | ⟨n, rfl⟩
      · omega
      · exact hnot n (by simp)
    intro i j c d hi hj hflag hnoti hnotj
    rcases hcases hi with ⟨hlti, hi⟩ | ⟨rfl, rfl⟩ <;> rcases hcases hj with ⟨hltj, hj⟩ | ⟨rfl, rfl⟩
    · rw [List.getElem?_append_left hlti] at hnoti
      rw [List.getElem?_append_left hltj] at hnotj
      exact h.own hi hj hflag hnoti hnotj
    · exact (hapart hi hflag hnotj).elim
    · exact (hapart hj hflag.symm hnoti).elim
    · rfl

/-- Every command about a context that is there keeps the contexts as their origins say. -/
theorem Traces.perform (h : Traces os s) {command : ContextCommand}
    (hsubject : ∀ n ∈ command.subject?, n < os.length) :
    Traces (os ++ command.origin?.toList) (s.perform command).2 := by
  have hthere {n : Nat} (hn : n < os.length) : s.contexts[n]? = some (s.context n) :=
    context_eq (h.size ▸ hn)
  cases command with
  | new => exact h.push .new (Nat.le_succ _) (Nat.lt_succ_self _) (.inl (Nat.le_refl _))
  | child parent =>
    have hn := hsubject parent rfl
    exact h.push (.child hn (hthere hn)) (Nat.le_succ _) (Nat.lt_succ_self _) (.inl (Nat.le_refl _))
  | copy of =>
    have hn := hsubject of rfl
    exact h.push (.copy hn (hthere hn)) (Nat.le_refl _) (h.given (hthere hn)) (.inr ⟨of, rfl⟩)
  | cancel n =>
    rw [ContextCommand.origin?, Option.toList_none, List.append_nil]
    exact ⟨h.size, h.made, h.given, h.own⟩
  | check n =>
    rw [ContextCommand.origin?, Option.toList_none, List.append_nil, Contexts.perform]
    split <;> exact h
  | display n =>
    rw [ContextCommand.origin?, Option.toList_none, List.append_nil]
    exact h

/-! ## Flags and ancestry -/

namespace Traces

variable (h : Traces os s)

include h

/-- Copies are the same context. -/
theorem eq_of_twins (htwins : Twins os i j) : s.contexts[i]? = s.contexts[j]? := by
  induction htwins with
  | rel i o hcopy =>
    obtain ⟨c, hc, hmakes⟩ := h.made hcopy
    cases hmakes with
    | copy _ ho => exact hc.trans ho.symm
  | refl => rfl
  | symm _ _ _ ih => exact ih.symm
  | trans _ _ _ _ _ ih ih' => exact ih.trans ih'

/-- A context that is a copy goes back to one that is not. -/
theorem exists_original (i : Nat) : ∃ o, Twins os i o ∧ ∀ k, os[o]? ≠ some (.copy k) := by
  induction i using Nat.strongRecOn with
  | ind i ih =>
    by_cases hcopy : ∃ o, os[i]? = some (.copy o)
    · obtain ⟨o, hcopy⟩ := hcopy
      obtain ⟨c, -, hmakes⟩ := h.made hcopy
      cases hmakes with
      | copy hlt _ =>
        obtain ⟨k, htwins, hk⟩ := ih o hlt
        exact ⟨k, .trans _ _ _ (.rel _ _ hcopy) htwins, hk⟩
    · exact ⟨i, .refl i, fun k hk => hcopy ⟨k, hk⟩⟩

/-- Contexts with the same flag are copies of each other. -/
theorem twins_of_flag (hi : s.contexts[i]? = some c) (hj : s.contexts[j]? = some d)
    (hflag : c.flag = d.flag) : Twins os i j := by
  obtain ⟨k, hik, hk⟩ := h.exists_original i
  obtain ⟨l, hjl, hl⟩ := h.exists_original j
  obtain rfl : k = l := h.own (h.eq_of_twins hik ▸ hi) (h.eq_of_twins hjl ▸ hj) hflag hk hl
  exact .trans _ _ _ hik (.symm _ _ hjl)

/-- A context that is derived from another one, or is a copy of such a context, is a child of it. -/
theorem exists_child (hparent : Parent os p i) : ∃ flag parent,
    s.contexts[p]? = some parent ∧ s.contexts[i]? = some (.child flag parent) := by
  obtain ⟨c, htwins, hc⟩ := hparent
  obtain ⟨d, hd, hmakes⟩ := h.made hc
  cases hmakes with
  | child _ hp => exact ⟨_, _, hp, h.eq_of_twins htwins ▸ hd⟩

/-- The lineage of an ancestor is a proper part of the lineage of a context. -/
theorem lineage_of_ancestor (hancestor : Ancestor os a i) : ∃ c d, s.contexts[a]? = some c ∧
    s.contexts[i]? = some d ∧ c.lineage ⊆ d.lineage ∧ c.lineage.length < d.lineage.length := by
  induction hancestor with
  | single hparent =>
    obtain ⟨flag, parent, ha, hi⟩ := h.exists_child hparent
    exact ⟨parent, _, ha, hi, List.subset_cons_self _ _, Nat.lt_succ_self _⟩
  | tail _ hparent ih =>
    obtain ⟨c, d, ha, hd, hsubset, hlt⟩ := ih
    obtain ⟨flag, parent, hp, hi⟩ := h.exists_child hparent
    obtain rfl := Option.some.inj (hp.symm.trans hd)
    exact ⟨c, _, ha, hi, List.Subset.trans hsubset (List.subset_cons_self _ _), Nat.lt_succ_of_lt hlt⟩

/-- A context that governs another one has a flag in its lineage. -/
theorem mem_lineage_of_governs (hgoverns : Governs os j i) (hi : s.contexts[i]? = some c)
    (hj : s.contexts[j]? = some d) : d.flag ∈ c.lineage := by
  rcases hgoverns with htwins | ⟨a, hancestor, htwins⟩
  · obtain rfl := Option.some.inj (hj.symm.trans ((h.eq_of_twins htwins).trans hi))
    exact d.flag_mem_lineage
  · obtain ⟨e, c', ha, hi', hsubset, -⟩ := h.lineage_of_ancestor hancestor
    obtain rfl := Option.some.inj (hi.symm.trans hi')
    obtain rfl := Option.some.inj (hj.symm.trans ((h.eq_of_twins htwins).trans ha))
    exact hsubset d.flag_mem_lineage

/-- The flags in the lineage of a context belong to contexts that govern it. -/
theorem governs_of_mem_lineage (hi : s.contexts[i]? = some c) (hj : s.contexts[j]? = some d)
    (hmem : d.flag ∈ c.lineage) : Governs os j i := by
  induction i using Nat.strongRecOn generalizing c with
  | ind i ih =>
    obtain ⟨hlt, -⟩ := Array.getElem?_eq_some_iff.1 hi
    obtain ⟨o, ho⟩ : ∃ o, os[i]? = some o := ⟨_, List.getElem?_eq_getElem (h.size ▸ hlt)⟩
    obtain ⟨c', hi', hmakes⟩ := h.made ho
    obtain rfl := Option.some.inj (hi.symm.trans hi')
    cases hmakes with
    | new =>
      obtain hflag := List.mem_singleton.1 hmem
      exact .inl (h.twins_of_flag hj hi hflag)
    | @child p parent flag hp hparent =>
      rcases List.mem_cons.1 hmem with hflag | hmem
      · exact .inl (h.twins_of_flag hj hi hflag)
      · have hstep : Parent os p i := ⟨i, .refl i, ho⟩
        rcases ih p hp hparent hmem with htwins | ⟨a, hancestor, htwins⟩
        · exact .inr ⟨p, .single hstep, htwins⟩
        · exact .inr ⟨a, hancestor.tail hstep, htwins⟩
    | @copy o _ hlt' hc =>
      have hio : Twins os o i := .symm _ _ (.rel _ _ ho)
      rcases ih o hlt' hc hmem with htwins | ⟨a, hancestor, htwins⟩
      · exact .inl (.trans _ _ _ htwins hio)
      · -- The last step up to a context is one up to its copies as well.
        refine .inr ⟨a, ?_, htwins⟩
        have hparent {q : Nat} (hq : Parent os q o) : Parent os q i :=
          hq.imp fun k hk => ⟨.trans _ _ _ hk.1 hio, hk.2⟩
        cases hancestor with
        | single hq => exact .single (hparent hq)
        | tail hup hq => exact hup.tail (hparent hq)

theorem mem_lineage_iff (hi : s.contexts[i]? = some c) (hj : s.contexts[j]? = some d) :
    d.flag ∈ c.lineage ↔ Governs os j i :=
  ⟨h.governs_of_mem_lineage hi hj, fun hgoverns => h.mem_lineage_of_governs hgoverns hi hj⟩

/-- No context governs its ancestors. -/
theorem not_governs_ancestor (hancestor : Ancestor os i j) : ¬ Governs os j i := by
  obtain ⟨c, d, hi, hj, -, hlt⟩ := h.lineage_of_ancestor hancestor
  rintro (htwins | ⟨a, hup, htwins⟩)
  · obtain rfl := Option.some.inj (hj.symm.trans ((h.eq_of_twins htwins).trans hi))
    exact Nat.lt_irrefl _ hlt
  · obtain ⟨e, c', ha, hi', -, hlt'⟩ := h.lineage_of_ancestor hup
    obtain rfl := Option.some.inj (hi.symm.trans hi')
    obtain rfl := Option.some.inj (hj.symm.trans ((h.eq_of_twins htwins).trans ha))
    exact Nat.lt_asymm hlt hlt'

/-- No context governs another child of its parent. -/
theorem not_governs_sibling {q : Nat} (hi : Parent os p i) (hj : Parent os q j)
    (hparents : Twins os p q) (hother : ¬ Twins os j i) : ¬ Governs os j i := by
  obtain ⟨f, parent, hp, hi⟩ := h.exists_child hi
  obtain ⟨g, parent', hq, hj⟩ := h.exists_child hj
  obtain rfl := Option.some.inj (hp.symm.trans ((h.eq_of_twins hparents).trans hq))
  rintro (htwins | ⟨a, hup, htwins⟩)
  · exact hother htwins
  · obtain ⟨e, c', ha, hi', -, hlt⟩ := h.lineage_of_ancestor hup
    obtain rfl := Option.some.inj (hi.symm.trans hi')
    obtain rfl := Option.some.inj (hj.symm.trans ((h.eq_of_twins htwins).trans ha))
    exact Nat.lt_irrefl _ hlt

end Traces

/-! ## Runs -/

theorem after_append (commands more : List ContextCommand) : after (commands ++ more) =
    more.foldl (fun s command => (s.perform command).2) (after commands) :=
  List.foldl_append

theorem origins_append (commands more : List ContextCommand) :
    origins (commands ++ more) = origins commands ++ more.filterMap ContextCommand.origin? := by
  simp [origins]

theorem legal_concat {count : Nat} {commands : List ContextCommand} {command : ContextCommand} :
    Legal count (commands ++ [command]) ↔ Legal count commands ∧
      ∀ n ∈ command.subject?, n < count + (commands.filterMap ContextCommand.origin?).length := by
  induction commands generalizing count with
  | nil => simp [Legal]
  | cons first rest ih =>
    have hlength : (first.origin?.toList ++ rest.filterMap ContextCommand.origin?).length =
        ((first :: rest).filterMap ContextCommand.origin?).length := by
      cases hfirst : first.origin? <;> simp [hfirst]
    rw [List.cons_append, Legal, Legal, ih, and_assoc, ← hlength, List.length_append,
      Nat.add_assoc]

/-- A legal command comes after legal ones, and is about a context that is there. -/
theorem legal_concat_iff {commands : List ContextCommand} {command : ContextCommand} :
    Legal 1 (commands ++ [command]) ↔ Legal 1 commands ∧
      ∀ n ∈ command.subject?, n < (origins commands).length := by
  rw [legal_concat, origins, List.length_cons, Nat.add_comm]

/-- After legal commands the contexts are as their origins say. -/
theorem after_traces {commands : List ContextCommand} (hlegal : Legal 1 commands) :
    Traces (origins commands) (after commands) := by
  induction commands using List.reverseRecOn with
  | nil => exact start_traces
  | append_singleton commands command ih =>
    obtain ⟨hbefore, hsubject⟩ := legal_concat_iff.1 hlegal
    have hstep := (ih hbefore).perform hsubject
    rw [after_append, origins_append]
    cases horigin : command.origin? <;> simpa [horigin] using hstep

/-- A legal command is about a context that is there at the end, too. -/
theorem lt_of_subject {commands : List ContextCommand} (hlegal : Legal 1 commands)
    {command : ContextCommand} (hmem : command ∈ commands) {n : Nat}
    (hn : n ∈ command.subject?) : n < (after commands).contexts.size := by
  rw [(after_traces hlegal).size]
  induction commands using List.reverseRecOn with
  | nil => cases hmem
  | append_singleton commands last ih =>
    obtain ⟨hbefore, hsubject⟩ := legal_concat_iff.1 hlegal
    rw [origins_append, List.length_append]
    refine Nat.lt_add_right _ ?_
    rcases List.mem_append.1 hmem with hmem | hlast
    · exact ih hbefore hmem
    · exact hsubject n (List.mem_singleton.1 hlast ▸ hn)

theorem mem_raised_perform (s : Contexts) (command : ContextCommand) {flag : Nat} :
    flag ∈ (s.perform command).2.flags.raised ↔
      flag ∈ s.flags.raised ∨ ∃ n, command = .cancel n ∧ (s.context n).flag = flag := by
  cases command with
  | new | child | copy | display => simp [perform, push, Context.new, Context.derive, Flags.fresh]
  | check n =>
    rw [perform]
    split <;> simp
  | cancel n =>
    simp [perform, Context.cancel, Flags.raise, or_comm, eq_comm]

/-- What is raised or there is so after further commands. -/
theorem perform_all_keeps (more : List ContextCommand) (s : Contexts) :
    let later := more.foldl (fun s command => (s.perform command).2) s
    s.flags.raised ⊆ later.flags.raised ∧
      ∀ i < s.contexts.size, later.contexts[i]? = s.contexts[i]? := by
  induction more generalizing s with
  | nil => exact ⟨List.Subset.refl _, fun _ _ => rfl⟩
  | cons command more ih =>
    obtain ⟨hraised, hcontexts⟩ := ih (s.perform command).2
    refine ⟨fun flag hflag => hraised ((mem_raised_perform s command).2 (.inl hflag)), ?_⟩
    intro i hi
    have hstep := getElem?_perform s command hi
    have hi' : i < (s.perform command).2.contexts.size := by
      rw [Array.getElem?_eq_getElem hi] at hstep
      exact (Array.getElem?_eq_some_iff.1 hstep).1
    exact (hcontexts i hi').trans hstep

/-- A flag is raised exactly if a context that has it was cancelled. -/
theorem mem_raised_iff {commands : List ContextCommand} (hlegal : Legal 1 commands) {flag : Nat} :
    flag ∈ (after commands).flags.raised ↔
      ∃ j, .cancel j ∈ commands ∧ ((after commands).context j).flag = flag := by
  induction commands using List.reverseRecOn with
  | nil => simp [after, start, Context.new, Flags.fresh, Flags.empty]
  | append_singleton commands command ih =>
    obtain ⟨hbefore, hsubject⟩ := legal_concat_iff.1 hlegal
    have hstep : after (commands ++ [command]) = ((after commands).perform command).2 :=
      after_append commands [command]
    have hsame {j : Nat} (hj : j < (after commands).contexts.size) :
        ((after commands).perform command).2.context j = (after commands).context j :=
      congrArg (Option.getD · default) (getElem?_perform _ command hj)
    have hthere {n : Nat} (h : command = .cancel n) : n < (after commands).contexts.size := by
      rw [(after_traces hbefore).size]
      exact hsubject n (h ▸ rfl)
    rw [hstep, mem_raised_perform, ih hbefore]
    constructor
    · rintro (⟨j, hmem, hflag⟩ | ⟨n, rfl, hflag⟩)
      · exact ⟨j, List.mem_append_left _ hmem, (hsame (lt_of_subject hbefore hmem rfl)).symm ▸ hflag⟩
      · exact ⟨n, List.mem_append_right _ List.mem_cons_self, (hsame (hthere rfl)).symm ▸ hflag⟩
    · rintro ⟨j, hmem, hflag⟩
      rcases List.mem_append.1 hmem with hmem | hlast
      · exact .inl ⟨j, hmem, hsame (lt_of_subject hbefore hmem rfl) ▸ hflag⟩
      · have hlast := (List.mem_singleton.1 hlast).symm
        exact .inr ⟨j, hlast, hsame (hthere hlast) ▸ hflag⟩

/-- A context is cancelled exactly if one that governs it was cancelled. -/
theorem cancelled_iff {commands : List ContextCommand} (hlegal : Legal 1 commands) {i : Nat}
    (hi : i < (origins commands).length) :
    Cancelled commands i ↔ ∃ j, .cancel j ∈ commands ∧ Governs (origins commands) j i := by
  have htraces := after_traces hlegal
  have hget := context_eq (htraces.size ▸ hi)
  have hcancelled {j : Nat} (hmem : .cancel j ∈ commands) :=
    htraces.mem_lineage_iff hget (context_eq (lt_of_subject hlegal hmem rfl))
  rw [Cancelled, Context.isCancelled_iff]
  constructor
  · rintro ⟨flag, hflag, hraised⟩
    obtain ⟨j, hmem, rfl⟩ := (mem_raised_iff hlegal).1 hraised
    exact ⟨j, hmem, (hcancelled hmem).1 hflag⟩
  · rintro ⟨j, hmem, hgoverns⟩
    exact ⟨_, (hcancelled hmem).2 hgoverns, (mem_raised_iff hlegal).2 ⟨j, hmem, rfl⟩⟩

/-- A context that is cancelled stays so. -/
theorem Cancelled.append {commands : List ContextCommand} {i : Nat} (h : Cancelled commands i)
    (hi : i < (after commands).contexts.size) (more : List ContextCommand) :
    Cancelled (commands ++ more) i := by
  obtain ⟨hraised, hsame⟩ := perform_all_keeps more (after commands)
  obtain ⟨flag, hmem, hflag⟩ := (Context.isCancelled_iff _ _).1 h
  rw [Cancelled, Context.isCancelled_iff, after_append, context, hsame i hi]
  exact ⟨flag, hmem, hraised hflag⟩

/-- How ancestry decides, after some commands, which contexts are cancelled. -/
structure Follows (commands : List ContextCommand) : Prop where
  /-- A context is cancelled if it, a copy of it, an ancestor or a copy of an ancestor was. -/
  cancelled : ∀ i < (origins commands).length,
    Cancelled commands i ↔ ∃ j, .cancel j ∈ commands ∧ Governs (origins commands) j i
  /-- Whatever is done next does not undo that. -/
  lasting : ∀ i < (origins commands).length, Cancelled commands i →
    ∀ more, Cancelled (commands ++ more) i
  /-- Copies agree. -/
  copies : ∀ i j, Twins (origins commands) i j → (Cancelled commands i ↔ Cancelled commands j)
  /-- Cancelling context `j` next affects those that it governs and no other. -/
  affects : ∀ i < (origins commands).length, ∀ j < (origins commands).length,
    Cancelled (commands ++ [.cancel j]) i ↔ Cancelled commands i ∨ Governs (origins commands) j i
  /-- The ancestors of a context are not among those that it governs. -/
  ancestors : ∀ i j, Ancestor (origins commands) i j → ¬ Governs (origins commands) j i
  /-- The other children of its parent are not, either. -/
  siblings : ∀ p q i j, Parent (origins commands) p i → Parent (origins commands) q j →
    Twins (origins commands) p q → ¬ Twins (origins commands) j i → ¬ Governs (origins commands) j i
  /-- The check of a cancelled context fails, and no other check. -/
  checks : ∀ i, (Cancelled commands i →
      ((after commands).perform (.check i)).1 = .cancelled "context cancelled") ∧
    (¬ Cancelled commands i → ((after commands).perform (.check i)).1 = .done)

/-- Cancellation follows ancestry: after any commands on contexts that are there, in any order, a
context is cancelled exactly if it, a copy of it, one of its ancestors or a copy of an ancestor was
cancelled at some time. -/
theorem cancellation_follows {commands : List ContextCommand} (hlegal : Legal 1 commands) :
    Follows commands where
  cancelled i hi := cancelled_iff hlegal hi
  lasting i hi h := h.append ((after_traces hlegal).size ▸ hi)
  copies i j htwins := by
    have hsame := (after_traces hlegal).eq_of_twins htwins
    rw [Cancelled, Cancelled, context, context, hsame]
  affects i hi j hj := by
    have hnext : origins (commands ++ [.cancel j]) = origins commands := by
      rw [origins_append]
      exact List.append_nil _
    have hlegal' : Legal 1 (commands ++ [.cancel j]) :=
      legal_concat_iff.2 ⟨hlegal, fun n hn => Option.some.inj hn ▸ hj⟩
    rw [cancelled_iff hlegal' (hnext.symm ▸ hi), cancelled_iff hlegal hi, hnext]
    simp only [List.mem_append, List.mem_singleton, ContextCommand.cancel.injEq]
    constructor
    · rintro ⟨k, hk | rfl, hgoverns⟩
      · exact .inl ⟨k, hk, hgoverns⟩
      · exact .inr hgoverns
    · rintro (⟨k, hk, hgoverns⟩ | hgoverns)
      · exact ⟨k, .inl hk, hgoverns⟩
      · exact ⟨j, .inr rfl, hgoverns⟩
  ancestors i j := (after_traces hlegal).not_governs_ancestor
  siblings p q i j := (after_traces hlegal).not_governs_sibling
  checks i := by
    rw [Cancelled, perform, Context.check]
    constructor
    · intro h
      rw [if_pos h]
      rfl
    · intro h
      rw [if_neg h]

/-- Context 2 is derived from a copy of context 0, and context 4 is a sibling of it. Context 3 is derived
from context 2 before that is cancelled; contexts 6 and 7 go back to it and come up afterwards. -/
theorem cancellation_follows_copies :
    let commands : List ContextCommand :=
      [.copy 0, .child 1, .child 2, .child 0, .new, .cancel 2, .copy 3, .child 6]
    Legal 1 commands ∧ Follows commands ∧
      (after commands).cancelled = [false, false, true, true, false, false, true, true] :=
  ⟨by decide, cancellation_follows (by decide), by decide⟩

end Contexts

end Scenario

end Wiring
