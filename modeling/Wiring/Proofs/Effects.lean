import Wiring.Proofs.Edges
import Wiring.Proofs.Progress

/-!
# Effects of the steps of a walk

What a step of a walk leaves behind. A slot that is held stays held, and one that is occupied stays
occupied; what was absorbed is held, a step with success settles its slot, and no service waits
after it that did not wait before. A step adds calls of the start hooks of what it absorbs, and
absorption fails only at a slot that is occupied or at a start hook that fails.
-/

namespace Wiring

variable {s s' : Scene} {r : Except Error Unit} {err : Error} {a b : Address} {e e' : Entry}
  {c : Component} {cs : List Component} {service : Service} {call : Call}

/-! ## Held slots stay held -/

theorem Starts.keeps (h : Starts a service s r s') :
    s.storage.Keeps s'.storage := by
  cases h with
  | up => exact s.storage.keeps_setService a .runningUp
  | fault => exact .refl _

theorem Absorbs.keeps (h : Absorbs c s r s') : s.storage.Keeps s'.storage := by
  cases h with
  | untracked => exact .refl _
  | refused => exact .refl _
  | stored _ hfree => exact Storage.keeps_put (e := .resolved _ c) hfree
  | started _ hfree _ hstarts =>
    exact (Storage.keeps_put (e := .resolved _ c) hfree).trans hstarts.keeps

theorem AbsorbsAll.keeps (h : AbsorbsAll cs s r s') : s.storage.Keeps s'.storage := by
  induction h with
  | nil => exact .refl _
  | cons habsorbs _ ih => exact habsorbs.keeps.trans ih
  | fail habsorbs => exact habsorbs.keeps

theorem Settles.keeps (h : Settles e s r s') : s.storage.Keeps s'.storage := by
  cases h with
  | shadowed => exact .refl _
  | rested => exact .refl _
  | waited _ _ _ _ hstarts => exact hstarts.keeps
  | shapeless => exact .refl _
  | uncalled _ _ _ hcalls => exact hcalls.storage_eq ▸ .refl _
  | called _ _ _ hcalls habsorbs =>
    have hmarked := s.storage.keeps_markResolved e.address
    rw [← hcalls.storage_eq] at hmarked ⊢
    exact hmarked.trans habsorbs.keeps
  | unassembled _ _ _ hassembles => exact hassembles.storage_eq ▸ .refl _
  | assembled _ _ _ hassembles habsorbs => exact hassembles.storage_eq ▸ habsorbs.keeps
  | idle => exact .refl _

/-- What is held in a walk stays held. -/
theorem SettlesAll.keeps {order : List Address} (h : SettlesAll order s r s') :
    s.storage.Keeps s'.storage := by
  induction h with
  | nil => exact .refl _
  | skip _ _ ih => exact ih
  | step _ hsettles _ ih => exact hsettles.keeps.trans ih
  | fail _ hsettles => exact hsettles.keeps

/-! ## Occupied slots stay occupied -/

namespace Storage

variable {s : Storage}

theorem free_of_put (h : (s.put (.resolved a c)).Free b) : s.Free b := by
  intro e hget
  by_cases heq : a = b
  · cases h (.resolved a c) ((get?_put _ _ _).trans (if_pos heq))
  · exact h e (((get?_put _ _ _).trans (if_neg heq)).trans hget)

theorem free_of_setService {state : ServiceState} (h : (s.setService a state).Free b) :
    s.Free b := by
  intro e hget
  by_cases heq : a = b
  · refine h { e with service := state } ?_
    rw [get?_setService, if_pos heq, hget]
    rfl
  · exact h e (by rw [get?_setService, if_neg heq, hget])

theorem free_of_markResolved (h : (s.markResolved a).Free b) : s.Free b := by
  intro e hget
  by_cases heq : a = b
  · cases h { e with relation := .resolvedValue } (by rw [get?_markResolved, if_pos heq, hget]; rfl)
  · exact h e (by rw [get?_markResolved, if_neg heq, hget])

end Storage

theorem Starts.free (h : Starts a service s r s') (hfree : s'.storage.Free b) :
    s.storage.Free b := by
  cases h with
  | up => exact Storage.free_of_setService hfree
  | fault => exact hfree

theorem Absorbs.free (h : Absorbs c s r s') (hfree : s'.storage.Free b) : s.storage.Free b := by
  cases h with
  | untracked => exact hfree
  | refused => exact hfree
  | stored => exact Storage.free_of_put hfree
  | started _ _ _ hstarts => exact Storage.free_of_put (hstarts.free hfree)

theorem AbsorbsAll.free (h : AbsorbsAll cs s r s') (hfree : s'.storage.Free b) :
    s.storage.Free b := by
  induction h with
  | nil => exact hfree
  | cons habsorbs _ ih => exact habsorbs.free (ih hfree)
  | fail habsorbs => exact habsorbs.free hfree

theorem Settles.free (h : Settles e s r s') (hfree : s'.storage.Free b) : s.storage.Free b := by
  cases h with
  | shadowed => exact hfree
  | rested => exact hfree
  | waited _ _ _ _ hstarts => exact hstarts.free hfree
  | shapeless => exact hfree
  | uncalled _ _ _ hcalls => exact hcalls.storage_eq ▸ hfree
  | called _ _ _ hcalls habsorbs =>
    exact hcalls.storage_eq ▸ Storage.free_of_markResolved (habsorbs.free hfree)
  | unassembled _ _ _ hassembles => exact hassembles.storage_eq ▸ hfree
  | assembled _ _ _ hassembles habsorbs => exact hassembles.storage_eq ▸ habsorbs.free hfree
  | idle => exact hfree

/-! ## Which slots an absorption touches -/

theorem Starts.get?_of_ne (h : Starts a service s r s') (hne : a ≠ b) :
    s'.storage.get? b = s.storage.get? b := by
  cases h with
  | up => rw [Storage.get?_setService, if_neg hne]
  | fault => rfl

/-- Absorbing a component touches its slot only. -/
theorem Absorbs.get?_of_ne (h : Absorbs c s r s') (hne : c.type.slot? ≠ some b) :
    s'.storage.get? b = s.storage.get? b := by
  have hput : ∀ {a}, c.type.slot? = some a →
      (s.storage.put (.resolved a c)).get? b = s.storage.get? b := fun {a} hslot => by
    rw [Storage.get?_put]
    refine if_neg fun heq => ?_
    obtain rfl : a = b := heq
    exact hne hslot
  cases h with
  | untracked => rfl
  | refused => rfl
  | stored hslot => exact hput hslot
  | @started a _ _ _ hslot _ _ hstarts =>
    refine (hstarts.get?_of_ne fun heq => ?_).trans (hput hslot)
    subst heq
    exact hne hslot

theorem AbsorbsAll.get?_of_ne (h : AbsorbsAll cs s r s') (hne : ∀ c ∈ cs, c.type.slot? ≠ some b) :
    s'.storage.get? b = s.storage.get? b := by
  induction h with
  | nil => rfl
  | cons habsorbs _ ih =>
    rw [ih fun c hmem => hne c (List.mem_cons_of_mem _ hmem)]
    exact habsorbs.get?_of_ne (hne _ List.mem_cons_self)
  | fail habsorbs => exact habsorbs.get?_of_ne (hne _ List.mem_cons_self)

/-! ## What was absorbed is held -/

theorem Absorbs.held (h : Absorbs c s (.ok ()) s') (hslot : c.type.slot? = some a) :
    s'.storage.Held a := by
  have hput : (s.storage.put (.resolved a c)).Held a :=
    Option.isSome_iff_exists.2 ⟨c, Storage.component?_put _ _ _⟩
  cases h with
  | untracked hnone => cases hslot.symm.trans hnone
  | stored hslot' =>
    obtain rfl := Option.some.inj (hslot.symm.trans hslot')
    exact hput
  | started hslot' _ _ hstarts =>
    obtain rfl := Option.some.inj (hslot.symm.trans hslot')
    exact hstarts.keeps.held hput

/-- Whether absorbing a component succeeds or not, its slot is occupied afterwards. -/
theorem Absorbs.occupied (h : Absorbs c s r s') (hslot : c.type.slot? = some a) :
    ¬ s'.storage.Free a := by
  have hput : ¬ (s.storage.put (.resolved a c)).Free a := fun hfree => by
    cases hfree (.resolved a c) ((Storage.get?_put _ _ _).trans (if_pos rfl))
  cases h with
  | untracked hnone => cases hslot.symm.trans hnone
  | refused hslot' hnot =>
    obtain rfl := Option.some.inj (hslot.symm.trans hslot')
    exact hnot
  | stored hslot' =>
    obtain rfl := Option.some.inj (hslot.symm.trans hslot')
    exact hput
  | started hslot' _ _ hstarts =>
    obtain rfl := Option.some.inj (hslot.symm.trans hslot')
    exact fun hfree => hput (hstarts.free hfree)

theorem AbsorbsAll.held (h : AbsorbsAll cs s (.ok ()) s') (hmem : c ∈ cs)
    (hslot : c.type.slot? = some a) : s'.storage.Held a := by
  generalize hr : Except.ok () = r at h
  induction h with
  | nil => cases hmem
  | cons habsorbs hrest ih =>
    rcases List.mem_cons.1 hmem with rfl | hmem
    · exact hrest.keeps.held (habsorbs.held hslot)
    · exact ih hmem hr
  | fail => cases hr

/-- After a step with success the slot is occupied. -/
theorem Settles.settled (h : Settles e s (.ok ()) s') (hs : s.storage.Sound)
    (hget : s.storage.get? a = some e) : ¬ s'.storage.Free a := by
  have hfits := hs.fits hget
  obtain rfl := hfits.address_eq
  have hkept : e.isResolved = true → ¬ s'.storage.Free e.address := fun hres hfree =>
    Bool.noConfusion (hres.symm.trans (h.free hfree e hget))
  cases h with
  | rested _ hres => exact hkept hres
  | waited _ hres => exact hkept hres
  | called _ _ _ hcalls habsorbs =>
    intro hfree
    cases habsorbs.free hfree { e with relation := .resolvedValue } (by
      rw [Storage.get?_markResolved, if_pos rfl, hcalls.storage_eq, hget]
      rfl)
  | assembled _ hres hpayload hassembles habsorbs =>
    obtain ⟨hslot, _⟩ := hfits.eq_template hres hpayload
    cases hassembles with
    | assembled product => exact (habsorbs.held hslot).not_free
  | idle _ hres hpayload => exact absurd hpayload (hfits.payload_ne_value hres)

/-! ## No service begins to wait -/

theorem Starts.pending (h : Starts a service s (.ok ()) s') (hget : s'.storage.get? b = some e)
    (hpending : e.service = .pendingUp) : s.storage.get? b = some e ∧ b ≠ a := by
  cases h
  rw [Storage.get?_setService] at hget
  split at hget
  · obtain ⟨e', _, rfl⟩ := Option.map_eq_some_iff.1 hget
    cases hpending
  · next hne => exact ⟨hget, Ne.symm hne⟩

theorem Absorbs.pending (h : Absorbs c s (.ok ()) s') (hget : s'.storage.get? b = some e)
    (hpending : e.service = .pendingUp) : s.storage.get? b = some e := by
  cases h with
  | untracked => exact hget
  | @stored a _ _ hservice =>
    rw [Storage.get?_put] at hget
    split at hget
    · obtain rfl := Option.some.inj hget
      simp [Entry.resolved, hservice] at hpending
    · exact hget
  | @started a _ _ _ _ _ _ hstarts =>
    obtain ⟨hput, hne⟩ := hstarts.pending hget hpending
    rw [Storage.get?_put] at hput
    exact (if_neg (Ne.symm hne)).symm.trans hput

theorem AbsorbsAll.pending (h : AbsorbsAll cs s (.ok ()) s') (hget : s'.storage.get? b = some e)
    (hpending : e.service = .pendingUp) : s.storage.get? b = some e := by
  generalize hr : Except.ok () = r at h
  induction h with
  | nil => exact hget
  | cons habsorbs _ ih => exact habsorbs.pending (ih hget hr) hpending
  | fail => cases hr

/-- After a step with success no service waits that did not wait before, and that of the slot does
not. -/
theorem Settles.pending (h : Settles e s (.ok ()) s') (hs : s.storage.Sound)
    (hget : s.storage.get? a = some e) (hget' : s'.storage.get? b = some e')
    (hpending : e'.service = .pendingUp) : s.storage.get? b = some e' ∧ b ≠ a := by
  have hfits := hs.fits hget
  obtain rfl := hfits.address_eq
  -- An unresolved entry is no service, so its slot does not wait before the step.
  have hne : e.service ≠ .pendingUp → s.storage.get? b = some e' →
      s.storage.get? b = some e' ∧ b ≠ e.address := fun hidle hb => by
    refine ⟨hb, ?_⟩
    rintro rfl
    obtain rfl := Option.some.inj (hget.symm.trans hb)
    exact hidle hpending
  have hunresolved : e.isResolved = false → e.service ≠ .pendingUp := fun hres => by
    rw [hfits.notAService hres]
    exact ServiceState.noConfusion
  cases h with
  | rested _ _ hidle => exact hne hidle hget'
  | waited _ _ _ _ hstarts => exact hstarts.pending hget' hpending
  | called _ hres _ hcalls habsorbs =>
    have hmarked := habsorbs.pending hget' hpending
    rw [Storage.get?_markResolved, hcalls.storage_eq] at hmarked
    split at hmarked
    · next heq =>
      subst heq
      rw [hget] at hmarked
      obtain rfl := Option.some.inj hmarked
      exact absurd hpending (hunresolved hres)
    · exact hne (hunresolved hres) hmarked
  | assembled _ hres _ hassembles habsorbs =>
    exact hne (hunresolved hres) (hassembles.storage_eq ▸ habsorbs.pending hget' hpending)
  | idle _ hres => exact hne (hunresolved hres) hget'

/-! ## Calls of start hooks -/

/-- Absorbing a component adds at most the call of its start hook, and then the slot is held. -/
theorem Absorbs.mem_calls (h : Absorbs c s r s') (hcall : call ∈ s'.calls) : call ∈ s.calls ∨
    ∃ a service result, c.type.slot? = some a ∧ s.storage.Free a ∧ s'.storage.Held a ∧
      call = .up a.text service result ∧ (r = .ok () ↔ result = .ok ()) := by
  cases h with
  | untracked => exact .inl hcall
  | refused => exact .inl hcall
  | stored => exact .inl hcall
  | @started a service _ _ hslot hfree _ hstarts =>
    have hput : (s.storage.put (.resolved a c)).Held a :=
      Option.isSome_iff_exists.2 ⟨c, Storage.component?_put _ _ _⟩
    have hheld := hstarts.keeps.held hput
    cases hstarts with
    | up =>
      refine (List.mem_append.1 hcall).imp_right fun hmem => ?_
      exact ⟨a, service, .ok (), hslot, hfree, hheld, List.mem_singleton.1 hmem, by simp⟩
    | fault f =>
      refine (List.mem_append.1 hcall).imp_right fun hmem => ?_
      exact ⟨a, service, .error f, hslot, hfree, hheld, List.mem_singleton.1 hmem, by simp⟩

/-- Absorbing components adds at most the calls of their start hooks; one that fails ends it. -/
theorem AbsorbsAll.mem_calls (h : AbsorbsAll cs s r s') (hcall : call ∈ s'.calls) :
    call ∈ s.calls ∨ ∃ c ∈ cs, ∃ a service result, c.type.slot? = some a ∧ s.storage.Free a ∧
      s'.storage.Held a ∧ call = .up a.text service result ∧ (r = .ok () → result = .ok ()) := by
  induction h with
  | nil => exact .inl hcall
  | cons habsorbs hrest ih =>
    rcases ih hcall with hmem | ⟨c, hmem, a, service, result, hslot, hfree, hheld, rfl, hr⟩
    · refine (habsorbs.mem_calls hmem).imp_right ?_
      rintro ⟨a, service, result, hslot, hfree, hheld, rfl, hr⟩
      exact ⟨_, List.mem_cons_self, a, service, result, hslot, hfree, hrest.keeps.held hheld, rfl,
        fun _ => hr.1 rfl⟩
    · exact .inr ⟨c, List.mem_cons_of_mem _ hmem, a, service, result, hslot, habsorbs.free hfree,
        hheld, rfl, hr⟩
  | fail habsorbs =>
    refine (habsorbs.mem_calls hcall).imp_right ?_
    rintro ⟨a, service, result, hslot, hfree, hheld, rfl, hr⟩
    exact ⟨_, List.mem_cons_self, a, service, result, hslot, hfree, hheld, rfl, fun h => nomatch h⟩

/-! ## Failures of an absorption -/

/-- An absorption that fails does so at one component; those before it are absorbed, and those
behind it are not reached. -/
theorem AbsorbsAll.exists_of_error (h : AbsorbsAll cs s (.error err) s') :
    ∃ before c after s₁, cs = before ++ c :: after ∧ AbsorbsAll before s (.ok ()) s₁ ∧
      Absorbs c s₁ (.error err) s' := by
  generalize hr : Except.error err = r at h
  induction h with
  | nil => cases hr
  | @cons c s s₁ cs _ _ habsorbs _ ih =>
    obtain ⟨before, c', after, s₂, rfl, hbefore, hfails⟩ := ih hr
    exact ⟨c :: before, c', after, s₂, rfl, .cons habsorbs hbefore, hfails⟩
  | fail habsorbs =>
    cases hr
    exact ⟨[], _, _, _, rfl, .nil, habsorbs⟩

/-- Absorbing a component into a free slot fails only at its start hook, and then the slot is
held. -/
theorem Absorbs.fault_of_free (h : Absorbs c s (.error err) s')
    (hfree : ∀ a, c.type.slot? = some a → s.storage.Free a) :
    ∃ a service f, c.type.slot? = some a ∧ .up a.text service (.error f) ∈ s'.calls ∧
      s'.storage.Held a := by
  cases h with
  | refused hslot hnot => exact absurd (hfree _ hslot) hnot
  | @started a service _ _ hslot _ _ hstarts =>
    cases hstarts with
    | fault f =>
      refine ⟨a, service, f, hslot, List.mem_append_right _ (List.mem_singleton.2 rfl), ?_⟩
      exact Option.isSome_iff_exists.2 ⟨c, Storage.component?_put _ _ _⟩

end Wiring
