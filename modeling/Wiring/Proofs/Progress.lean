import Wiring.Proofs.Requests
import Wiring.Proofs.Settling

/-!
# Progress of a walk

`Progress s₀ s` relates the storage in which a walk begins to a scene in its course: how each entry
came about (`Comes`), that nothing resolved is lost, and that the calls with success are exactly
those which the storage shows: each service that runs was started once, each constructor that was
run and each template that was assembled in the walk was so once, from slots that are held. Every
step of a walk keeps it, whatever the program answers (`SettlesAll.progress`).
-/

namespace Wiring

namespace Call

/-- Whether the call started the service in a slot with success. -/
def isStartOf (a : Address) : Call → Bool
  | up label _ (.ok _) => label = a.text
  | _ => false

/-- Whether the call ran a constructor with success or handed over an output of it. -/
def isRunOf (c : Constructor) : Call → Bool
  | construct c' _ (.ok _) | supply c' _ _ => c' = c
  | _ => false

/-- Whether the call assembled a template with success. -/
def isAssemblyOf (t : Template) : Call → Bool
  | assemble t' _ (.ok _) => t' = t
  | _ => false

/-- Whether the call started, ran or assembled anything with success, or handed over an output. -/
def isSuccess : Call → Bool
  | up _ _ (.ok _) | construct _ _ (.ok _) | supply .. | assemble _ _ (.ok _) => true
  | _ => false

theorem isSuccess_of_isStartOf {a : Address} (call : Call) (h : call.isStartOf a = true) :
    call.isSuccess = true := by
  cases call with
  | up label service result => cases result <;> first | rfl | cases h
  | _ => cases h

theorem isSuccess_of_isRunOf {c : Constructor} (call : Call) (h : call.isRunOf c = true) :
    call.isSuccess = true := by
  cases call with
  | construct c args result => cases result <;> first | rfl | cases h
  | supply => rfl
  | _ => cases h

theorem isSuccess_of_isAssemblyOf {t : Template} (call : Call) (h : call.isAssemblyOf t = true) :
    call.isSuccess = true := by
  cases call with
  | assemble t values result => cases result <;> first | rfl | cases h
  | _ => cases h

end Call

/-- A component for a slot that a provider gave in some calls. -/
inductive Sourced (calls : List Call) (a : Address) : Component → Prop
  | output : .construct c args (.ok ()) ∈ calls → c.callable.outputs[i]? = some t →
      t.slot? = some a → .supply c i product ∈ calls → Sourced calls a (.ofProduct t product)
  | template : .assemble t values (.ok product) ∈ calls → t.type.slot? = some a →
      Sourced calls a (.ofProduct t.type product)

/-- The entry of a constructor that has run. -/
def Entry.ran (c : Constructor) : Entry :=
  { Entry.provider c.address (.constructor c) with relation := .resolvedValue }

/-- How an entry came about in a walk that began in `s₀` and made some calls: it was there, and may
have been started; its constructor has run; or a provider gave its component. -/
inductive Comes (s₀ : Storage) (calls : List Call) (a : Address) : Entry → Prop
  | kept : s₀.get? a = some e →
      (state = e.service ∨ e.service = .pendingUp ∧ state = .runningUp) →
      Comes s₀ calls a { e with service := state }
  | ran : s₀.get? a = some (.provider a (.constructor c)) → c.address = a →
      .construct c args (.ok ()) ∈ calls → Comes s₀ calls a (.ran c)
  | stored : s₀.Free a → c.type.slot? = some a → Sourced calls a c →
      Comes s₀ calls a { Entry.resolved a c with service := state }

namespace Scene

/-- The service in a slot runs and was started once, or it does not and was not. -/
def StartedOnce (s : Scene) (a : Address) : Prop :=
  (s.calls.filter (Call.isStartOf a) = [] ∧
    ∀ e, s.storage.get? a = some e → e.service ≠ .runningUp) ∨
  ∃ e service, s.storage.get? a = some e ∧ e.service = .runningUp ∧ e.service? = some service ∧
    s.calls.filter (Call.isStartOf a) = [.up a.text service (.ok ())]

/-- A constructor was run once, from slots that are held, or was not run. -/
def RunOnce (s₀ : Storage) (s : Scene) (c : Constructor) : Prop :=
  s.calls.filter (Call.isRunOf c) = [] ∨
  (∃ args products, products.length = c.callable.outputs.length ∧
      s.calls.filter (Call.isRunOf c) = .construct c args (.ok ()) :: suppliesFrom c 0 products) ∧
    s₀.get? c.address = some (.provider c.address (.constructor c)) ∧
    s.storage.get? c.address = some (.ran c) ∧
    ∀ t ∈ c.callable.params, s.storage.Held t.request.address

/-- A template was assembled once, from slots that are held, or was not assembled. -/
def AssembledOnce (s₀ : Storage) (s : Scene) (t : Template) : Prop :=
  s.calls.filter (Call.isAssemblyOf t) = [] ∨
  ∃ a, (∃ values product, s.calls.filter (Call.isAssemblyOf t) =
      [.assemble t values (.ok product)]) ∧
    t.type.slot? = some a ∧ s₀.get? a = some (.provider a (.template t)) ∧ s.storage.Held a ∧
    ∀ field ∈ t.fields, s.storage.Held field.type.request.address

end Scene

namespace Scene

variable {s₀ : Storage} {s s' : Scene}

theorem StartedOnce.congr {a : Address} (h : s.StartedOnce a)
    (hcalls : s'.calls.filter (Call.isStartOf a) = s.calls.filter (Call.isStartOf a))
    (hget : s'.storage.get? a = s.storage.get? a) : s'.StartedOnce a := by
  rw [StartedOnce, hcalls, hget]
  exact h

theorem RunOnce.congr {c : Constructor} (h : s.RunOnce s₀ c)
    (hcalls : s'.calls.filter (Call.isRunOf c) = s.calls.filter (Call.isRunOf c))
    (hkeeps : s.storage.Keeps s'.storage)
    (hran : s.storage.get? c.address = some (.ran c) → s'.storage.get? c.address = some (.ran c)) :
    s'.RunOnce s₀ c := by
  rw [RunOnce, hcalls]
  refine h.imp_right fun ⟨hrun, hget₀, hget, hparams⟩ => ⟨hrun, hget₀, hran hget, fun t hmem => ?_⟩
  exact hkeeps.held (hparams t hmem)

theorem AssembledOnce.congr {t : Template} (h : s.AssembledOnce s₀ t)
    (hcalls : s'.calls.filter (Call.isAssemblyOf t) = s.calls.filter (Call.isAssemblyOf t))
    (hkeeps : s.storage.Keeps s'.storage) : s'.AssembledOnce s₀ t := by
  rw [AssembledOnce, hcalls]
  refine h.imp_right fun ⟨a, hassembly, hslot, hget₀, hheld, hfields⟩ =>
    ⟨a, hassembly, hslot, hget₀, hkeeps.held hheld, fun field hmem => ?_⟩
  exact hkeeps.held (hfields field hmem)

end Scene

/-- What holds in the course of a walk that began in `s₀` without a call. -/
structure Progress (s₀ : Storage) (s : Scene) : Prop where
  sound : s.storage.Sound
  comes : ∀ {a e}, s.storage.get? a = some e → Comes s₀ s.calls a e
  stays : ∀ {a e}, s₀.get? a = some e → ∃ e', s.storage.get? a = some e'
  starts : ∀ a, s.StartedOnce a
  runs : ∀ c, s.RunOnce s₀ c
  assemblies : ∀ t, s.AssembledOnce s₀ t

/-! ## Entries and components persist -/

theorem Sourced.mono {calls calls' : List Call} {a : Address} {c : Component}
    (h : Sourced calls a c) (hsub : ∀ call ∈ calls, call ∈ calls') : Sourced calls' a c := by
  cases h with
  | output hrun houtput hslot hsupply =>
    exact .output (hsub _ hrun) houtput hslot (hsub _ hsupply)
  | template hassemble hslot => exact .template (hsub _ hassemble) hslot

theorem Comes.mono {s₀ : Storage} {calls calls' : List Call} {a : Address} {e : Entry}
    (h : Comes s₀ calls a e) (hsub : ∀ call ∈ calls, call ∈ calls') : Comes s₀ calls' a e := by
  cases h with
  | kept hget hstate => exact .kept hget hstate
  | ran hget haddr hrun => exact .ran hget haddr (hsub _ hrun)
  | stored hfree hslot hsourced => exact .stored hfree hslot (hsourced.mono hsub)

namespace Progress

variable {s₀ : Storage} {s : Scene} {a : Address} {e : Entry}

/-- Before the first step nothing has happened, provided no service runs. -/
theorem start (hs : s₀.Sound) (hrest : s₀.Resting) :
    Progress s₀ ⟨s₀, []⟩ where
  sound := hs
  comes hget := .kept hget (.inl rfl)
  stays hget := ⟨_, hget⟩
  starts _ := .inl ⟨rfl, fun _ hget => hrest hget⟩
  runs _ := .inl rfl
  assemblies _ := .inl rfl

/-- A resolved entry of the beginning is still there; at most it was started. -/
theorem kept (h : Progress s₀ s) (hget : s₀.get? a = some e) (hres : e.isResolved = true) :
    ∃ state, s.storage.get? a = some { e with service := state } := by
  obtain ⟨e', hget'⟩ := h.stays hget
  cases h.comes hget' with
  | @kept e'' state hget'' hstate =>
    obtain rfl := Option.some.inj (hget.symm.trans hget'')
    exact ⟨state, hget'⟩
  | ran hget'' =>
    obtain rfl := Option.some.inj (hget.symm.trans hget'')
    cases hres
  | stored hfree => exact Bool.noConfusion (hres.symm.trans (hfree e hget))

/-- What a slot held at the beginning it still holds. -/
theorem keeps (h : Progress s₀ s) : s₀.Keeps s.storage := by
  intro a c hc
  obtain ⟨e, hget, hcomponent⟩ := Storage.component?_eq_some.1 hc
  have hres : e.isResolved = true := by
    simp only [Entry.component?] at hcomponent
    split at hcomponent
    · next hrelation => simp [Entry.isResolved, hrelation]
    · cases hcomponent
  obtain ⟨state, hget'⟩ := h.kept hget hres
  exact Storage.component?_eq_some.2 ⟨_, hget', hcomponent⟩

/-- A constructor that has run stays so, and so does the count of the values for its slot. -/
theorem kept_ran {c : Constructor} {n : Nat} (h : Progress s₀ s)
    (hget : s₀.get? a = some { Entry.ran c with shadowed := n }) :
    s.storage.get? a = some { Entry.ran c with shadowed := n } := by
  obtain ⟨state, hget'⟩ := h.kept hget rfl
  cases h.sound.fits hget'
  exact hget'

/-- A constructor that has run did so before the beginning or in one of the calls. -/
theorem ran_cases {c : Constructor} (h : Progress s₀ s) (hs : s₀.Sound)
    (hget : s.storage.get? a = some (.ran c)) :
    s₀.get? a = some (.ran c) ∨ ∃ args, .construct c args (.ok ()) ∈ s.calls := by
  generalize he : Entry.ran c = e at hget
  cases h.comes hget with
  | kept hget₀ hstate =>
    cases hs.fits hget₀ with
    | constructor =>
      rcases hstate with rfl | ⟨hpending, _⟩
      · exact .inl hget₀
      · cases hpending
    | value => cases congrArg Entry.payload he
    | template => cases congrArg Entry.payload he
  | ran _ _ hrun =>
    obtain rfl : c = _ := Payload.constructor.inj (congrArg Entry.payload he)
    exact .inr ⟨_, hrun⟩
  | stored => cases congrArg Entry.payload he

/-- An unresolved entry was there from the beginning. -/
theorem unresolved (h : Progress s₀ s) (hget : s.storage.get? a = some e)
    (hres : e.isResolved = false) : s₀.get? a = some e := by
  have hfits := h.sound.fits hget
  cases h.comes hget with
  | @kept e state hget₀ hstate =>
    rcases hstate with rfl | ⟨hpending, rfl⟩
    · exact hget₀
    · cases e
      cases hfits
      cases hres
  | ran => cases hres
  | stored => cases hres

/-- A constructor that was run was registered at the beginning and counts as run, and the slots of
its parameters are held. -/
theorem of_run {c : Constructor} {args : List Object} (h : Progress s₀ s)
    (hrun : .construct c args (.ok ()) ∈ s.calls) :
    s₀.get? c.address = some (.provider c.address (.constructor c)) ∧
      s.storage.get? c.address = some (.ran c) ∧
      ∀ t ∈ c.callable.params, s.storage.Held t.request.address := by
  rcases h.runs c with hnone | ⟨_, hget₀, hget, hparams⟩
  · have hmem : Call.construct c args (.ok ()) ∈ s.calls.filter (Call.isRunOf c) :=
      List.mem_filter.2 ⟨hrun, by simp [Call.isRunOf]⟩
    rw [hnone] at hmem
    cases hmem
  · exact ⟨hget₀, hget, hparams⟩

/-- A template that was assembled was registered at the beginning, in its slot; that slot and the
slots of its fields are held. -/
theorem of_assembly {t : Template} {values : FieldValues} {product : Product} (h : Progress s₀ s)
    (hassemble : .assemble t values (.ok product) ∈ s.calls) :
    ∃ a, t.type.slot? = some a ∧ s₀.get? a = some (.provider a (.template t)) ∧
      s.storage.Held a ∧ ∀ field ∈ t.fields, s.storage.Held field.type.request.address := by
  rcases h.assemblies t with hnone | ⟨a, _, hslot, hget₀, hheld, hfields⟩
  · have hmem : Call.assemble t values (.ok product) ∈ s.calls.filter (Call.isAssemblyOf t) :=
      List.mem_filter.2 ⟨hassemble, by simp [Call.isAssemblyOf]⟩
    rw [hnone] at hmem
    cases hmem
  · exact ⟨a, hslot, hget₀, hheld, hfields⟩

/-- A service that is held and does not wait was started once. -/
theorem started {c : Component} {service : Service} (h : Progress s₀ s)
    (hc : s.storage.component? a = some c) (hservice : c.service? = some service)
    (hidle : ∀ e, s.storage.get? a = some e → e.service ≠ .pendingUp) :
    s.calls.filter (Call.isStartOf a) = [.up a.text service (.ok ())] := by
  obtain ⟨e, hget, hcomponent⟩ := Storage.component?_eq_some.1 hc
  have hfits := h.sound.fits hget
  have hpayload := hfits.component?_eq.1 hcomponent
  have hhas : e.service? = some service := by
    simp only [Entry.service?, hpayload]
    exact hservice
  rcases h.starts a with ⟨_, hresting⟩ | ⟨e', service', hget', _, hservice', hcalls⟩
  · exfalso
    cases hstate : e.service with
    | notAService =>
      cases hfits with
      | value c state n hslot hnone =>
        cases hpayload
        cases hservice.symm.trans (hnone.1 hstate)
      | constructor => cases hpayload
      | template => cases hpayload
    | pendingUp => exact hidle e hget hstate
    | runningUp => exact hresting e hget hstate
  · obtain rfl := Option.some.inj (hget.symm.trans hget')
    cases hhas.symm.trans hservice'
    exact hcalls

/-- A slot that is free was free at the beginning. -/
theorem free (h : Progress s₀ s) (hfree : s.storage.Free a) : s₀.Free a := by
  intro e hget
  refine Bool.eq_false_iff.2 fun hres => ?_
  obtain ⟨state, hget'⟩ := h.kept hget hres
  have hres' : ({ e with service := state } : Entry).isResolved = false := hfree _ hget'
  exact Bool.noConfusion (hres.symm.trans hres')

/-- Calls without a success change nothing but the calls. -/
theorem of_calls (h : Progress s₀ s) {new : List Call}
    (hnew : ∀ call ∈ new, call.isSuccess = false) :
    Progress s₀ ⟨s.storage, s.calls ++ new⟩ := by
  have hnone : ∀ p : Call → Bool, (∀ call, p call = true → call.isSuccess = true) →
      (s.calls ++ new).filter p = s.calls.filter p := fun p hp => by
    have hnil : new.filter p = [] := List.filter_eq_nil_iff.2 fun call hmem hcall =>
      Bool.noConfusion ((hnew call hmem).symm.trans (hp call hcall))
    rw [List.filter_append, hnil, List.append_nil]
  refine ⟨h.sound, fun hget => ?_, h.stays, fun a => ?_, fun c => ?_, fun t => ?_⟩
  · exact (h.comes hget).mono fun call hmem => List.mem_append_left _ hmem
  · have := h.starts a
    rwa [Scene.StartedOnce, ← hnone _ Call.isSuccess_of_isStartOf] at this
  · have := h.runs c
    rwa [Scene.RunOnce, ← hnone _ Call.isSuccess_of_isRunOf] at this
  · have := h.assemblies t
    rwa [Scene.AssembledOnce, ← hnone _ Call.isSuccess_of_isAssemblyOf] at this

/-- A service that does not run was not started. -/
theorem not_started (h : Progress s₀ s)
    (hidle : ∀ e, s.storage.get? a = some e → e.service ≠ .runningUp) :
    s.calls.filter (Call.isStartOf a) = [] := by
  rcases h.starts a with ⟨hnone, _⟩ | ⟨e, _, hget, hrunning, _⟩
  · exact hnone
  · exact absurd hrunning (hidle e hget)

/-- The entry of one slot is changed, not that of a constructor that has run, with calls that give
the reason. -/
theorem change {storage : Storage} {new : List Call} (h : Progress s₀ s)
    (hnot : ∀ c, s.storage.get? a ≠ some (.ran c)) (hsound : storage.Sound)
    (hself : storage.get? a = some e) (hother : ∀ {b}, a ≠ b → storage.get? b = s.storage.get? b)
    (hkeeps : s.storage.Keeps storage) (hcomes : Comes s₀ (s.calls ++ new) a e)
    (hstarts : ∀ b, Scene.StartedOnce ⟨storage, s.calls ++ new⟩ b ∨
      a ≠ b ∧ new.filter (Call.isStartOf b) = [])
    (hruns : ∀ c, Scene.RunOnce s₀ ⟨storage, s.calls ++ new⟩ c ∨ new.filter (Call.isRunOf c) = [])
    (hassemblies : ∀ t, Scene.AssembledOnce s₀ ⟨storage, s.calls ++ new⟩ t ∨
      new.filter (Call.isAssemblyOf t) = []) :
    Progress s₀ ⟨storage, s.calls ++ new⟩ := by
  have hsame : ∀ p : Call → Bool, new.filter p = [] →
      (s.calls ++ new).filter p = s.calls.filter p := by
    intro p hnil
    rw [List.filter_append, hnil, List.append_nil]
  refine ⟨hsound, ?_, ?_, ?_, ?_, ?_⟩
  · intro b e' hget'
    by_cases heq : a = b
    · subst heq
      obtain rfl := Option.some.inj (hself.symm.trans hget')
      exact hcomes
    · exact (h.comes ((hother heq).symm.trans hget')).mono fun _ => List.mem_append_left _
  · intro b e' hget₀
    by_cases heq : a = b
    · subst heq
      exact ⟨e, hself⟩
    · obtain ⟨e'', hget''⟩ := h.stays hget₀
      exact ⟨e'', (hother heq).trans hget''⟩
  · intro b
    rcases hstarts b with hstarted | ⟨hne, hnil⟩
    · exact hstarted
    · exact (h.starts b).congr (hsame _ hnil) (hother hne)
  · intro c
    rcases hruns c with hran | hnil
    · exact hran
    · refine (h.runs c).congr (hsame _ hnil) hkeeps fun hget => ?_
      refine (hother fun heq => ?_).trans hget
      exact hnot c (heq ▸ hget)
  · intro t
    rcases hassemblies t with hassembled | hnil
    · exact hassembled
    · exact (h.assemblies t).congr (hsame _ hnil) hkeeps

/-- Starting a service that waits. -/
theorem up {service : Service} (h : Progress s₀ s) (hget : s.storage.get? a = some e)
    (hpending : e.service = .pendingUp) (hservice : e.service? = some service) :
    Progress s₀ ⟨s.storage.setService a .runningUp,
      s.calls ++ [.up a.text service (.ok ())]⟩ := by
  have hself : (s.storage.setService a .runningUp).get? a =
      some { e with service := .runningUp } := by
    rw [Storage.get?_setService, if_pos rfl, hget]
    rfl
  refine h.change ?_ (h.sound.setRunning hget (by simp [hservice])) hself ?_
    (s.storage.keeps_setService a .runningUp) ?_ ?_ ?_ ?_
  · intro c hran
    obtain rfl := Option.some.inj (hget.symm.trans hran)
    cases hpending
  · intro b hne
    rw [Storage.get?_setService, if_neg hne]
  · cases h.comes hget with
    | @kept e state hget₀ hstate =>
      obtain rfl : state = .pendingUp := hpending
      have hwaits : e.service = .pendingUp := hstate.elim Eq.symm And.left
      show Comes s₀ _ a { e with service := .runningUp }
      exact .kept hget₀ (.inr ⟨hwaits, rfl⟩)
    | ran => cases hpending
    | stored hfree hslot hsourced =>
      exact .stored hfree hslot (hsourced.mono fun _ => List.mem_append_left _)
  · intro b
    by_cases heq : a = b
    · subst heq
      have hnone := h.not_started fun e' hget' hrunning => by
        obtain rfl := Option.some.inj (hget.symm.trans hget')
        cases hpending.symm.trans hrunning
      refine .inl (.inr ⟨_, service, hself, rfl, hservice, ?_⟩)
      rw [List.filter_append, hnone]
      simp [Call.isStartOf]
    · have hne : a.text ≠ b.text := fun htext => heq (congrArg Address.mk htext)
      exact .inr ⟨heq, by simp [Call.isStartOf, hne]⟩
  · exact fun c => .inr (by simp [Call.isRunOf])
  · exact fun t => .inr (by simp [Call.isAssemblyOf])

/-- Running a constructor that has not run yet. -/
theorem run {c : Constructor} {args : List Object} (h : Progress s₀ s)
    (hget : s.storage.get? a = some e) (hres : e.isResolved = false)
    (hpayload : e.payload = .constructor c)
    (hargs : s.storage.arguments c.callable.params = .ok args) {products : List Product}
    (hlength : products.length = c.callable.outputs.length) :
    Progress s₀ ⟨s.storage.markResolved a,
      s.calls ++ .construct c args (.ok ()) :: suppliesFrom c 0 products⟩ := by
  obtain ⟨rfl, rfl⟩ := (h.sound.fits hget).eq_constructor hres hpayload
  have hget₀ := h.unresolved hget rfl
  have hkeeps := s.storage.keeps_markResolved c.address
  have hself : (s.storage.markResolved c.address).get? c.address = some (.ran c) := by
    rw [Storage.get?_markResolved, if_pos rfl, hget]
    rfl
  have hnot : ∀ c', s.storage.get? c.address ≠ some (.ran c') := by
    intro c' hran
    cases congrArg Entry.relation (Option.some.inj (hget.symm.trans hran))
  have hsupplies : ∀ p : Call → Bool, (∀ i product, p (.supply c i product) = false) →
      (suppliesFrom c 0 products).filter p = [] := by
    intro p hp
    refine List.filter_eq_nil_iff.2 fun call hmem hcall => ?_
    obtain ⟨i, product, _, rfl⟩ := mem_suppliesFrom.1 hmem
    exact Bool.noConfusion ((hp _ _).symm.trans hcall)
  have hstarts : ∀ b, (.construct c args (.ok ()) :: suppliesFrom c 0 products).filter
      (Call.isStartOf b) = [] := by
    intro b
    rw [List.filter_cons_of_neg (by simp [Call.isStartOf]), hsupplies _ fun _ _ => rfl]
  refine h.change hnot (h.sound.markResolved hget rfl) hself ?_ hkeeps
    (.ran hget₀ rfl (List.mem_append_right _ List.mem_cons_self)) ?_ ?_ ?_
  · intro b hne
    rw [Storage.get?_markResolved, if_neg hne]
  · intro b
    by_cases heq : c.address = b
    · subst heq
      have hnone := h.not_started fun e' hget' hrunning => by
        obtain rfl := Option.some.inj (hget.symm.trans hget')
        cases hrunning
      refine .inl (.inl ⟨?_, fun e' hget' hrunning => ?_⟩)
      · rw [List.filter_append, hnone, hstarts]
        rfl
      · obtain rfl := Option.some.inj (hself.symm.trans hget')
        cases hrunning
    · exact .inr ⟨heq, hstarts b⟩
  · intro c'
    by_cases heq : c = c'
    · subst heq
      have hnone : s.calls.filter (Call.isRunOf c) = [] := by
        rcases h.runs c with hnone | ⟨_, _, hran, _⟩
        · exact hnone
        · exact absurd hran (hnot c)
      have hall : (suppliesFrom c 0 products).filter (Call.isRunOf c) =
          suppliesFrom c 0 products := List.filter_eq_self.2 fun call hmem => by
        obtain ⟨i, product, _, rfl⟩ := mem_suppliesFrom.1 hmem
        simp [Call.isRunOf]
      refine .inl (.inr ⟨⟨args, products, hlength, ?_⟩, hget₀, hself, fun t hmem => ?_⟩)
      · rw [List.filter_append, hnone, List.filter_cons_of_pos (by simp [Call.isRunOf]), hall]
        rfl
      · exact hkeeps.held (Storage.held_of_arguments hargs t hmem)
    · right
      rw [List.filter_cons_of_neg (by simp [Call.isRunOf, heq]),
        hsupplies _ fun _ _ => by simp [Call.isRunOf, heq]]
  · intro t
    right
    rw [List.filter_cons_of_neg (by simp [Call.isAssemblyOf]), hsupplies _ fun _ _ => rfl]

/-- Storing a component in a free slot, after calls that may have assembled it. -/
theorem put {c : Component} (h : Progress s₀ s) (new : List Call) (hslot : c.type.slot? = some a)
    (hfree : s.storage.Free a) (hsourced : Sourced (s.calls ++ new) a c)
    (hstarts : ∀ b, new.filter (Call.isStartOf b) = [])
    (hruns : ∀ c, new.filter (Call.isRunOf c) = [])
    (hassemblies : ∀ t, Scene.AssembledOnce s₀ ⟨s.storage.put (.resolved a c), s.calls ++ new⟩ t ∨
      new.filter (Call.isAssemblyOf t) = []) :
    Progress s₀ ⟨s.storage.put (.resolved a c), s.calls ++ new⟩ := by
  have hself : (s.storage.put (.resolved a c)).get? a = some (.resolved a c) := by
    rw [Storage.get?_put]
    exact if_pos rfl
  refine h.change ?_ (h.sound.put (.resolved hslot)) hself ?_
    (Storage.keeps_put (e := .resolved a c) hfree) (.stored (h.free hfree) hslot hsourced) ?_
    (fun c' => .inr (hruns c')) hassemblies
  · intro c' hran
    cases (hfree _ hran : (Entry.ran c').isResolved = false)
  · intro b hne
    rw [Storage.get?_put]
    exact if_neg hne
  · intro b
    by_cases heq : a = b
    · subst heq
      have hnone := h.not_started fun e' hget' hrunning => by
        have hidle := (h.sound.fits hget').notAService (hfree e' hget')
        cases hidle.symm.trans hrunning
      refine .inl (.inl ⟨?_, fun e' hget' => ?_⟩)
      · rw [List.filter_append, hnone, hstarts]
        rfl
      · obtain rfl := Option.some.inj (hself.symm.trans hget')
        exact Entry.resolved_ne_running a c
    · exact .inr ⟨heq, hstarts b⟩

/-- Assembling a template and storing its component in its place. -/
theorem assemble {t : Template} {values : FieldValues} (h : Progress s₀ s)
    (hget : s.storage.get? a = some e) (hres : e.isResolved = false)
    (hpayload : e.payload = .template t)
    (hvalues : s.storage.fillFields t.fields (.empty a) = .ok values) (product : Product) :
    Progress s₀ ⟨s.storage.put (.resolved a (.ofProduct t.type product)),
      s.calls ++ [.assemble t values (.ok product)]⟩ := by
  obtain ⟨hslot, rfl⟩ := (h.sound.fits hget).eq_template hres hpayload
  have hfree : s.storage.Free a := fun e' hget' => by
    obtain rfl := Option.some.inj (hget.symm.trans hget')
    rfl
  have hkeeps : s.storage.Keeps (s.storage.put (.resolved a (.ofProduct t.type product))) :=
    Storage.keeps_put (e := .resolved a (.ofProduct t.type product)) hfree
  refine h.put _ hslot hfree (.template (List.mem_append_right _ (List.mem_singleton.2 rfl)) hslot)
    (fun b => by simp [Call.isStartOf]) (fun c => by simp [Call.isRunOf]) fun t' => ?_
  by_cases heq : t = t'
  · subst heq
    have hnone : s.calls.filter (Call.isAssemblyOf t) = [] := by
      rcases h.assemblies t with hnone | ⟨b, _, hslot', _, hheld, _⟩
      · exact hnone
      · obtain rfl := Option.some.inj (hslot.symm.trans hslot')
        exact absurd hfree hheld.not_free
    refine .inl (.inr ⟨a, ⟨values, product, ?_⟩, hslot, h.unresolved hget rfl, ?_,
      fun field hmem => ?_⟩)
    · rw [List.filter_append, hnone]
      simp [Call.isAssemblyOf]
    · exact Option.isSome_iff_exists.2 ⟨_, Storage.component?_put _ _ _⟩
    · exact hkeeps.held (Storage.held_of_fillFields hvalues field hmem)
  · exact .inr (by simp [Call.isAssemblyOf, heq])

end Progress

/-! ## The steps of a walk -/

variable {s₀ : Storage} {s s' : Scene} {r : Except Error Unit}

theorem Starts.progress {a : Address} {service : Service} {e : Entry}
    (h : Starts a service s r s') (hp : Progress s₀ s) (hget : s.storage.get? a = some e)
    (hpending : e.service = .pendingUp) (hservice : e.service? = some service) :
    Progress s₀ s' := by
  cases h with
  | up => exact hp.up hget hpending hservice
  | fault => exact hp.of_calls (by simp [Call.isSuccess])

/-- What is absorbed into a free slot is stored there, and then started if it is a service. -/
theorem Absorbs.progress_of_free {a : Address} {c : Component} (h : Absorbs c s r s')
    (hslot : c.type.slot? = some a) (hfree : s.storage.Free a)
    (hput : Progress s₀ ⟨s.storage.put (.resolved a c), s.calls⟩) : Progress s₀ s' := by
  cases h with
  | untracked hnone => cases hslot.symm.trans hnone
  | refused hslot' hnot =>
    obtain rfl := Option.some.inj (hslot.symm.trans hslot')
    exact absurd hfree hnot
  | stored hslot' =>
    obtain rfl := Option.some.inj (hslot.symm.trans hslot')
    exact hput
  | started hslot' _ hservice hstarts =>
    obtain rfl := Option.some.inj (hslot.symm.trans hslot')
    refine hstarts.progress hput (e := .resolved a c) ?_ ?_ hservice
    · rw [Storage.get?_put]
      exact if_pos rfl
    · simp [Entry.resolved, hservice]

/-- Absorbing a component that a provider gave. -/
theorem Absorbs.progress {c : Component} (h : Absorbs c s r s') (hp : Progress s₀ s)
    (hsourced : ∀ a, c.type.slot? = some a → Sourced s.calls a c) : Progress s₀ s' := by
  cases hslot : c.type.slot? with
  | none =>
    cases h with
    | untracked => exact hp
    | refused hslot' => cases hslot.symm.trans hslot'
    | stored hslot' => cases hslot.symm.trans hslot'
    | started hslot' => cases hslot.symm.trans hslot'
  | some a =>
    rcases Classical.em (s.storage.Free a) with hfree | hfree
    · refine h.progress_of_free hslot hfree ?_
      have hsourced' : Sourced (s.calls ++ []) a c := by simpa using hsourced a hslot
      simpa using hp.put [] hslot hfree hsourced' (fun _ => rfl) (fun _ => rfl) fun _ => .inr rfl
    · cases h with
      | untracked => exact hp
      | refused => exact hp
      | stored hslot' hfree' =>
        obtain rfl := Option.some.inj (hslot.symm.trans hslot')
        exact absurd hfree' hfree
      | started hslot' hfree' =>
        obtain rfl := Option.some.inj (hslot.symm.trans hslot')
        exact absurd hfree' hfree

theorem AbsorbsAll.progress {cs : List Component} (h : AbsorbsAll cs s r s') (hp : Progress s₀ s)
    (hsourced : ∀ c ∈ cs, ∀ a, c.type.slot? = some a → Sourced s.calls a c) : Progress s₀ s' := by
  induction h with
  | nil => exact hp
  | cons habsorbs _ ih =>
    refine ih (habsorbs.progress hp (hsourced _ List.mem_cons_self)) fun c hmem a hslot => ?_
    obtain ⟨new, hcalls, _⟩ := habsorbs.grows
    refine (hsourced c (List.mem_cons_of_mem _ hmem) a hslot).mono fun call hcall => ?_
    exact hcalls ▸ List.mem_append_left _ hcall
  | fail habsorbs => exact habsorbs.progress hp (hsourced _ List.mem_cons_self)

/-- The components of the outputs of a constructor come from what it supplied. -/
theorem Constructor.sourced {c : Constructor} {products : List Product} {calls : List Call}
    {args : List Object} (hrun : .construct c args (.ok ()) ∈ calls)
    (hsupplies : ∀ call ∈ suppliesFrom c 0 products, call ∈ calls) :
    ∀ component ∈ c.components products, ∀ a, component.type.slot? = some a →
      Sourced calls a component := by
  intro component hmem a hslot
  obtain ⟨i, hget⟩ := List.mem_iff_getElem?.1 hmem
  rw [Constructor.components, List.getElem?_zipWith_eq_some] at hget
  obtain ⟨t, product, houtput, hproduct, rfl⟩ := hget
  refine .output hrun houtput hslot (hsupplies _ (mem_suppliesFrom.2 ⟨i, product, hproduct, ?_⟩))
  rw [Nat.zero_add]

/-- Settling an entry. -/
theorem Settles.progress {a : Address} {e : Entry} (h : Settles e s r s') (hp : Progress s₀ s)
    (hget : s.storage.get? a = some e) : Progress s₀ s' := by
  rcases h.works hp.sound hget with rfl | hworks
  · exact hp
  cases hworks with
  | waited _ hpending hservice hstarts => exact hstarts.progress hp hget hpending hservice
  | refused => exact hp.of_calls (by simp [Call.isSuccess])
  | ran products _ hargs hlength habsorbs =>
    refine habsorbs.progress (hp.run hget rfl rfl hargs hlength)
      (Constructor.sourced (List.mem_append_right _ List.mem_cons_self) fun call hmem => ?_)
    exact List.mem_append_right _ (List.mem_cons_of_mem _ hmem)
  | unmade => exact hp.of_calls (by simp [Call.isSuccess])
  | made product hslot hvalues habsorbs =>
    exact habsorbs.progress_of_free hslot (Storage.free_of_unresolved hget rfl)
      (hp.assemble hget rfl rfl hvalues product)

/-- A walk from the beginning on. -/
theorem SettlesAll.progress {order : List Address} (h : SettlesAll order s r s')
    (hp : Progress s₀ s) : Progress s₀ s' := by
  induction h with
  | nil => exact hp
  | skip _ _ ih => exact ih hp
  | step hget hsettles _ ih => exact ih (hsettles.progress hp hget)
  | fail hget hsettles => exact hsettles.progress hp hget

end Wiring
