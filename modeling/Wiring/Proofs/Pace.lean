import Wiring.Proofs.Effects

/-!
# The pace of a walk

A walk that has not failed so far keeps pace: what it has passed is settled, the services there run,
and the constructors that it ran have given all their outputs (`Paced`). A walk succeeds at every
address or fails at one to which it kept pace (`SettlesAll.paced`), and each of its calls is made in
a step to which it kept pace (`SettlesAll.exists_step`).
-/

namespace Wiring

/-- Whether the program answered a call with an error. -/
def Call.isFailure : Call → Bool
  | construct _ _ (.error _) | assemble _ _ (.error _) | up _ _ (.error _) | down _ (.error _) => true
  | _ => false

/-- The calls that settling an entry in a slot can make: those of its provider, and of the start
hooks of its service or of what it produced. -/
inductive Asks (s : Storage) (a : Address) (e : Entry) : Call → Prop
  | service : e.isResolved = true → e.service = .pendingUp → Asks s a e (.up a.text service result)
  | construct : e = .provider a (.constructor c) → Asks s a e (.construct c args result)
  | supply : e = .provider a (.constructor c) → Asks s a e (.supply c i product)
  | output : e = .provider a (.constructor c) → t ∈ c.callable.outputs → t.slot? = some b →
      s.Free b → Asks s a e (.up b.text service result)
  | assemble : e = .provider a (.template t) → Asks s a e (.assemble t values result)
  | template : e = .provider a (.template t) → Asks s a e (.up a.text service result)

variable {s₀ : Storage} {s s' : Scene} {r : Except Error Unit} {err : Error} {a b : Address}
  {e : Entry} {call : Call} {done order : List Address}

/-- A start hook is called for the service in the slot, or for what its provider produced. -/
theorem Asks.of_up {service : Service} {result : Except Fault Unit}
    (h : Asks s₀ a e (.up b.text service result)) :
    (b = a ∧ e.isResolved = true ∧ e.service = .pendingUp) ∨
      (∃ c t, e = .provider a (.constructor c) ∧ t ∈ c.callable.outputs ∧ t.slot? = some b ∧
        s₀.Free b) ∨
      ∃ t, b = a ∧ e = .provider a (.template t) := by
  generalize hlabel : b.text = label at h
  cases h with
  | service hres hpending => exact .inl ⟨congrArg Address.mk hlabel, hres, hpending⟩
  | output he ht hslot hfree =>
    obtain rfl : b = _ := congrArg Address.mk hlabel
    exact .inr (.inl ⟨_, _, he, ht, hslot, hfree⟩)
  | template he => exact .inr (.inr ⟨_, congrArg Address.mk hlabel, he⟩)

/-! ## Steps -/

/-- The components of the outputs of a constructor have the types of the outputs. -/
theorem Constructor.map_type_components {c : Constructor} {products : List Product}
    (h : products.length = c.callable.outputs.length) :
    (c.components products).map Component.type = c.callable.outputs := by
  have hfst : ∀ types : List ComponentType, ∀ products : List Product,
      products.length = types.length →
      (List.zipWith Component.ofProduct types products).map Component.type = types := by
    intro types
    induction types with
    | nil => simp
    | cons t types ih =>
      intro products hlength
      cases products with
      | nil => cases hlength
      | cons product products =>
        exact congrArg (t :: ·) (ih products (Nat.succ.inj hlength))
  exact hfst _ _ h

theorem Constructor.exists_component {c : Constructor} {products : List Product} {t : ComponentType}
    (h : products.length = c.callable.outputs.length) (hmem : t ∈ c.callable.outputs) :
    ∃ component ∈ c.components products, component.type = t := by
  rw [← map_type_components h] at hmem
  exact List.mem_map.1 hmem

theorem Constructor.type_mem_outputs {c : Constructor} {products : List Product}
    {component : Component} (h : products.length = c.callable.outputs.length)
    (hmem : component ∈ c.components products) : component.type ∈ c.callable.outputs := by
  rw [← map_type_components h]
  exact List.mem_map.2 ⟨component, hmem, rfl⟩

theorem Starts.mem_calls {service : Service} (h : Starts a service s r s')
    (hcall : call ∈ s'.calls) : call ∈ s.calls ∨
      ∃ result, call = .up a.text service result ∧ (r = .ok () → result = .ok ()) := by
  cases h with
  | up =>
    refine (List.mem_append.1 hcall).imp_right fun hmem => ?_
    exact ⟨.ok (), List.mem_singleton.1 hmem, fun _ => rfl⟩
  | fault f =>
    refine (List.mem_append.1 hcall).imp_right fun hmem => ?_
    exact ⟨.error f, List.mem_singleton.1 hmem, fun h => nomatch h⟩

/-- The calls that run a constructor are none of start hooks. -/
theorem up_mem_of_run {calls : List Call} {c : Constructor} {args : List Object} {products : List Product}
    {label : String} {service : Service} {result : Except Fault Unit}
    (h : .up label service result ∈ calls ++ .construct c args (.ok ()) :: suppliesFrom c 0 products) :
    .up label service result ∈ calls := by
  refine (List.mem_append.1 h).resolve_right fun hmem => ?_
  rcases List.mem_cons.1 hmem with heq | hmem
  · cases heq
  · obtain ⟨_, _, _, heq⟩ := mem_suppliesFrom.1 hmem
    cases heq

/-- Settling an entry makes no other calls, and none that fails if it succeeds. -/
theorem Settles.asks (h : Settles e s r s') (hs : s.storage.Sound)
    (hget : s.storage.get? a = some e) (hcall : call ∈ s'.calls) :
    call ∈ s.calls ∨ Asks s.storage a e call ∧ (r = .ok () → call.isFailure = false) := by
  have hresult : ∀ {label : String} {service : Service} {result : Except Fault Unit},
      (r = .ok () → result = .ok ()) →
      r = .ok () → (Call.up label service result).isFailure = false := fun hresult hr => by
    rw [hresult hr]
    rfl
  rcases h.works hs hget with rfl | hworks
  · exact .inl hcall
  cases hworks with
  | waited hres hpending _ hstarts =>
    refine (hstarts.mem_calls hcall).imp_right ?_
    rintro ⟨result, rfl, hr⟩
    exact ⟨.service hres hpending, hresult hr⟩
  | refused f =>
    refine (List.mem_append.1 hcall).imp_right fun hmem => ?_
    obtain rfl := List.mem_singleton.1 hmem
    exact ⟨.construct rfl, fun h => nomatch h⟩
  | ran products _ _ hlength habsorbs =>
    rcases habsorbs.mem_calls hcall with
      hmem | ⟨component, hmem, b, service, result, hslot, hfree, _, rfl, hr⟩
    · refine (List.mem_append.1 hmem).imp_right fun hmem => ?_
      rcases List.mem_cons.1 hmem with rfl | hmem
      · exact ⟨.construct rfl, fun _ => rfl⟩
      · obtain ⟨i, product, _, rfl⟩ := mem_suppliesFrom.1 hmem
        exact ⟨.supply rfl, fun _ => rfl⟩
    · refine .inr ⟨.output rfl (Constructor.type_mem_outputs hlength hmem) hslot ?_, hresult hr⟩
      exact Storage.free_of_markResolved hfree
  | unmade err =>
    refine (List.mem_append.1 hcall).imp_right fun hmem => ?_
    obtain rfl := List.mem_singleton.1 hmem
    exact ⟨.assemble rfl, fun h => nomatch h⟩
  | made product hslot _ habsorbs =>
    rcases habsorbs.mem_calls hcall with hmem | ⟨b, service, result, hslot', _, _, rfl, hr⟩
    · refine (List.mem_append.1 hmem).imp_right fun hmem => ?_
      obtain rfl := List.mem_singleton.1 hmem
      exact ⟨.assemble rfl, fun _ => rfl⟩
    · obtain rfl : a = b := Option.some.inj (hslot.symm.trans hslot')
      exact .inr ⟨.template rfl, hresult hr.1⟩

/-- A step that asks a constructor for an output has called it with success, and goes on to absorb
its outputs. -/
theorem Settles.absorbs {c : Constructor} (h : Settles (.provider a (.constructor c)) s r s') :
    (∃ err, r = .error err ∧ s'.storage = s.storage ∧ ∀ call ∈ s'.calls, call ∈ s.calls ∨
        ∃ args f, call = .construct c args (.error f)) ∨
      ∃ args products, products.length = c.callable.outputs.length ∧
        AbsorbsAll (c.components products) ⟨s.storage.markResolved a,
          s.calls ++ .construct c args (.ok ()) :: suppliesFrom c 0 products⟩ r s' := by
  cases h with
  | shadowed hne => exact absurd rfl hne
  | rested _ hres => cases hres
  | waited _ hres => cases hres
  | shapeless _ hres => cases hres
  | uncalled _ _ hpayload hcalls =>
    cases hpayload
    refine .inl ⟨_, rfl, hcalls.storage_eq, fun call hmem => ?_⟩
    cases hcalls with
    | unsupplied => exact .inl hmem
    | failed f =>
      exact (List.mem_append.1 hmem).imp_right fun hmem => ⟨_, f, List.mem_singleton.1 hmem⟩
  | called _ _ hpayload hcalls habsorbs =>
    cases hpayload
    cases hcalls with
    | supplied products _ hlength => exact .inr ⟨_, products, hlength, habsorbs⟩
  | unassembled _ _ hpayload => cases hpayload
  | assembled _ _ hpayload => cases hpayload
  | idle _ _ hpayload => cases hpayload

/-- A step that runs a constructor with success leaves all its outputs in their slots. -/
theorem Settles.outputs {c : Constructor} {t : ComponentType}
    (h : Settles (.provider a (.constructor c)) s (.ok ()) s') (hmem : t ∈ c.callable.outputs)
    (hslot : t.slot? = some b) : s'.storage.Held b := by
  rcases h.absorbs with ⟨_, hr, _⟩ | ⟨args, products, hlength, habsorbs⟩
  · cases hr
  · obtain ⟨component, hcomponent, rfl⟩ := Constructor.exists_component hlength hmem
    exact habsorbs.held hcomponent hslot

/-! ## Keeping pace -/

/-- What holds in a walk that began in `s₀` and has passed some addresses without failure. -/
structure Paced (s₀ : Storage) (done : List Address) (s : Scene) : Prop where
  progress : Progress s₀ s
  /-- What was passed is settled. -/
  settled : ∀ ⦃a e⦄, a ∈ done → s₀.get? a = some e → ¬ s.storage.Free a
  /-- Services wait only in slots that are still to come, where they waited from the beginning. -/
  pending : ∀ ⦃a e⦄, s.storage.get? a = some e → e.service = .pendingUp →
    s₀.get? a = some e ∧ a ∉ done
  /-- The constructors that ran have given all their outputs. -/
  outputs : ∀ ⦃c args⦄, .construct c args (.ok ()) ∈ s.calls → ∀ t ∈ c.callable.outputs,
    ∀ ⦃a⦄, t.slot? = some a → s.storage.Held a
  /-- A service that was there from the beginning is started when its slot is passed. -/
  passed : ∀ ⦃a service result⦄, .up a.text service result ∈ s.calls → ¬ s₀.Free a → a ∈ done
  succeeded : ∀ call ∈ s.calls, call.isFailure = false

namespace Paced

/-- What was passed is resolved. -/
theorem resolved_of_mem (h : Paced s₀ done s) (hmem : a ∈ done) (hget : s.storage.get? a = some e) :
    e.isResolved = true := by
  cases hres : e.isResolved with
  | true => rfl
  | false =>
    have hfree := Storage.free_of_unresolved hget hres
    exact absurd hfree (h.settled hmem (h.progress.unresolved hget hres))

theorem start (hs : s₀.Sound) (hrest : s₀.Resting) :
    Paced s₀ [] ⟨s₀, []⟩ where
  progress := .start hs hrest
  settled _ _ hmem := nomatch hmem
  pending _ _ hget _ := ⟨hget, List.not_mem_nil⟩
  outputs _ _ hmem := nomatch hmem
  passed _ _ _ hmem := nomatch hmem
  succeeded _ hmem := nomatch hmem

/-- There is nothing to settle in a slot without an entry. -/
theorem skip (h : Paced s₀ done s) (hget : s.storage.get? a = none) :
    Paced s₀ (done ++ [a]) s where
  progress := h.progress
  settled b e hmem hget₀ := by
    rcases List.mem_append.1 hmem with hmem | hmem
    · exact h.settled hmem hget₀
    · obtain rfl := List.mem_singleton.1 hmem
      obtain ⟨e', hget'⟩ := h.progress.stays hget₀
      cases hget.symm.trans hget'
  pending b e hget' hpending := by
    obtain ⟨hget₀, hnot⟩ := h.pending hget' hpending
    refine ⟨hget₀, fun hmem => ?_⟩
    rcases List.mem_append.1 hmem with hmem | hmem
    · exact hnot hmem
    · obtain rfl := List.mem_singleton.1 hmem
      cases hget.symm.trans hget'
  outputs := h.outputs
  passed b service result hmem hfree := List.mem_append_left _ (h.passed hmem hfree)
  succeeded := h.succeeded

/-- A step with success. -/
theorem step (h : Paced s₀ done s) (hget : s.storage.get? a = some e)
    (hsettles : Settles e s (.ok ()) s') : Paced s₀ (done ++ [a]) s' := by
  have hs := h.progress.sound
  refine ⟨hsettles.progress h.progress hget, fun b e' hmem hget₀ => ?_,
    fun b e' hget' hpending => ?_, fun c args hrun t ht b hslot => ?_,
    fun b service result hmem hfree => ?_, fun call hmem => ?_⟩
  · rcases List.mem_append.1 hmem with hmem | hmem
    · exact fun hfree => h.settled hmem hget₀ (hsettles.free hfree)
    · obtain rfl := List.mem_singleton.1 hmem
      exact hsettles.settled hs hget
  · obtain ⟨hget₁, hne⟩ := hsettles.pending hs hget hget' hpending
    obtain ⟨hget₀, hnot⟩ := h.pending hget₁ hpending
    refine ⟨hget₀, fun hmem => ?_⟩
    rcases List.mem_append.1 hmem with hmem | hmem
    · exact hnot hmem
    · exact hne (List.mem_singleton.1 hmem)
  · rcases hsettles.asks hs hget hrun with hrun | ⟨hasks, _⟩
    · exact hsettles.keeps.held (h.outputs hrun t ht hslot)
    · cases hasks with
      | construct he =>
        subst he
        exact hsettles.outputs ht hslot
  · rcases hsettles.asks hs hget hmem with hmem | ⟨hasks, _⟩
    · exact List.mem_append_left _ (h.passed hmem hfree)
    · rcases hasks.of_up with ⟨rfl, _⟩ | ⟨_, _, _, _, _, hfree'⟩ | ⟨_, rfl, _⟩
      · exact List.mem_append_right _ (List.mem_singleton.2 rfl)
      · exact absurd (h.progress.free hfree') hfree
      · exact List.mem_append_right _ (List.mem_singleton.2 rfl)
  · rcases hsettles.asks hs hget hmem with hmem | ⟨_, hr⟩
    · exact h.succeeded call hmem
    · exact hr rfl

end Paced

/-! ## Walks -/

/-- A walk succeeds at every address, or it fails at one after keeping pace up to there. -/
theorem SettlesAll.paced (h : SettlesAll order s r s') (hp : Paced s₀ done s) :
    (r = .ok () ∧ Paced s₀ (done ++ order) s') ∨
      ∃ before a after e s₁ err, order = before ++ a :: after ∧ r = .error err ∧
        Paced s₀ (done ++ before) s₁ ∧ s₁.storage.get? a = some e ∧
        Settles e s₁ (.error err) s' := by
  induction h generalizing done with
  | nil => exact .inl ⟨rfl, by rwa [List.append_nil]⟩
  | skip hget _ ih =>
    rcases ih (hp.skip hget) with ⟨rfl, hend⟩ | ⟨before, b, after, e, s₁, err, rfl, hr, h₁, hstep⟩
    · exact .inl ⟨rfl, by simpa using hend⟩
    · exact .inr ⟨_ :: before, b, after, e, s₁, err, rfl, hr, by simpa using h₁, hstep⟩
  | step hget hsettles _ ih =>
    rcases ih (hp.step hget hsettles) with
      ⟨rfl, hend⟩ | ⟨before, b, after, e, s₁, err, rfl, hr, h₁, hstep⟩
    · exact .inl ⟨rfl, by simpa using hend⟩
    · exact .inr ⟨_ :: before, b, after, e, s₁, err, rfl, hr, by simpa using h₁, hstep⟩
  | fail hget hsettles =>
    exact .inr ⟨[], _, _, _, _, _, rfl, rfl, by simpa using hp, hget, hsettles⟩

/-- A walk with success kept pace to its end. -/
theorem SettlesAll.paced_of_ok (h : SettlesAll order ⟨s₀, []⟩ (.ok ()) s') (hs : s₀.Sound)
    (hrest : s₀.Resting) : Paced s₀ order s' := by
  obtain ⟨_, hp⟩ | ⟨_, _, _, _, _, _, _, hr, _⟩ := h.paced (.start hs hrest)
  · exact hp
  · cases hr

theorem Scene.Grows.calls_prefix (h : s.Grows s') : s.calls <+: s'.calls := by
  obtain ⟨new, hnew, _⟩ := h
  exact ⟨new, hnew.symm⟩

/-- An element of a list stands behind a given prefix or in it. -/
theorem prefix_cases {α : Type} {xs whole before after : List α} {x : α} (h : xs <+: whole)
    (hwhole : whole = before ++ x :: after) : xs <+: before ∨ before ++ [x] <+: xs := by
  rw [hwhole] at h
  rcases Nat.lt_or_ge before.length xs.length with hlt | hge
  · refine .inr (List.prefix_of_prefix_length_le ⟨after, by simp⟩ h ?_)
    rw [List.length_append, List.length_singleton]
    exact hlt
  · exact .inl (List.prefix_of_prefix_length_le h (List.prefix_append _ _) hge)

/-- Each call of a walk is made in a step to which the walk kept pace. That step succeeded, or it is
the one at which the walk ended. -/
theorem SettlesAll.exists_step {before after : List Call} (h : SettlesAll order s r s')
    (hp : Paced s₀ done s) (hcalls : s'.calls = before ++ call :: after)
    (hstart : s.calls <+: before) :
    ∃ passed a rest e s₁ r₁ s₂, order = passed ++ a :: rest ∧ Paced s₀ (done ++ passed) s₁ ∧
      s₁.storage.get? a = some e ∧ Settles e s₁ r₁ s₂ ∧ s₂.storage.Keeps s'.storage ∧
      s₂.calls <+: s'.calls ∧ s₁.calls <+: before ∧ before ++ [call] <+: s₂.calls ∧
      (r₁ = .ok () ∨ r₁ = r ∧ s₂ = s') := by
  induction h generalizing done with
  | nil =>
    rw [hcalls] at hstart
    have := hstart.length_le
    simp only [List.length_append, List.length_cons] at this
    omega
  | skip hget _ ih =>
    obtain ⟨passed, a, rest, e, s₁, r₁, s₂, rfl, h₁, hstep⟩ := ih (hp.skip hget) hcalls hstart
    exact ⟨_ :: passed, a, rest, e, s₁, r₁, s₂, rfl, by simpa using h₁, hstep⟩
  | step hget hsettles hrest ih =>
    rcases prefix_cases hrest.grows.calls_prefix hcalls with hlater | hnow
    · obtain ⟨passed, a, rest, e, s₁, r₁, s₂, rfl, h₁, hstep⟩ :=
        ih (hp.step hget hsettles) hcalls hlater
      exact ⟨_ :: passed, a, rest, e, s₁, r₁, s₂, rfl, by simpa using h₁, hstep⟩
    · exact ⟨[], _, _, _, _, _, _, rfl, by simpa using hp, hget, hsettles, hrest.keeps,
        hrest.grows.calls_prefix, hstart, hnow, .inl rfl⟩
  | fail hget hsettles =>
    refine ⟨[], _, _, _, _, _, _, rfl, by simpa using hp, hget, hsettles, .refl _,
      List.prefix_rfl, hstart, ⟨after, by simp [hcalls]⟩, .inr ⟨rfl, rfl⟩⟩

end Wiring
