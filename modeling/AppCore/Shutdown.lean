import AppCore.SystemRuns

/-!
# The End of a Call

What is left of a call of `appcore_efl_main` in the system when it has ended. What the
library has registered or keeps for the call is given back, whatever happened before and
whatever the callback `terminate` calls, short of initialising the library once more. The
window list and `b_active` stay as the loop left them, the property handler of a pending
deferral may stay, and so does what belongs to no call.

## Main results

* `ended_leave`: what the end of a call leaves of a process.
* `shutdown_system`: **the end of a call gives back what it holds**, in every run of the
  system.
-/

set_option autoImplicit false

namespace AppCore

/-- The call sets an event callback. -/
def ApiCall.IsSetEventCallback : ApiCall → Prop
  | .setEventCallback .. => True
  | _ => False

namespace Process

/-- **Nothing is left of a call**: no key of vconf is followed and no AUL handler is there,
no timer and no event handler of the windows is live, `priv` is as in a fresh process, and
so are `core.state` and `core.ops`. -/
structure Ended (p : Process) : Prop where
  priv : p.priv = .zero
  timers : p.timers = []
  handlers : p.handlers = []
  state : p.core.state = 0
  ops : p.core.ops = none
  vconf : p.vconf = ∅
  aul : p.aul = false

/-- The half of it that `appcore_exit` is for. -/
structure Exited (p : Process) : Prop where
  state : p.core.state = 0
  ops : p.core.ops = none
  vconf : p.vconf = ∅
  aul : p.aul = false

variable {p : Process}

/-- `appcore_exit` does its half, or finds it done. -/
theorem exited_appcoreExit (h : Targets p) : Exited p.appcoreExit := by
  have hvconf := h.vconf
  rw [appcoreExit_eq]
  split
  · rename_i hstate
    refine ⟨rfl, rfl, ?_, rfl⟩
    change p.vconf \ vconfKeys = ∅
    rcases h.core with ⟨hzero, -⟩ | ⟨hone, -⟩
    · exact absurd hzero hstate
    · rw [hvconf, if_pos hone, Finset.sdiff_self]
  · rename_i hstate
    have hzero : p.core.state = 0 := not_not.mp hstate
    refine ⟨hzero, ?_, ?_, rfl⟩
    · rcases h.core with ⟨-, hops⟩ | ⟨hone, -⟩
      · exact hops
      · omega
    · rw [if_neg (by omega)] at hvconf
      exact hvconf

/-- Only `appcore_init` takes up what `appcore_exit` has given back. -/
theorem Exited.runApi (h : Exited p) {c : ApiCall} (hc : ¬ c.IsInit) : Exited (p.runApi c) := by
  cases c with
  | init name ops a => exact absurd trivial hc
  | exit =>
      rw [Process.runApi, appcoreExit_eq, if_neg (not_not.mpr h.state)]
      exact ⟨h.state, h.ops, h.vconf, rfl⟩
  | setEventCallback event cb data =>
      rw [Process.runApi, setEventCallback]
      split
      · exact h
      · exact h
      · exact ⟨h.state, h.ops, h.vconf, h.aul⟩
  | setI18n domainname a => exact ⟨h.state, h.ops, h.vconf, h.aul⟩
  | setSystemResourceReclaiming enable => exact ⟨h.state, h.ops, h.vconf, h.aul⟩
  | flushMemory =>
      obtain ⟨_, -, hq⟩ := logs_appcoreFlushMemory p
      rw [Process.runApi, hq]
      exact ⟨h.state, h.ops, h.vconf, h.aul⟩
  | rotation c a ρ => exact ⟨h.state, h.ops, h.vconf, h.aul⟩

/-- A `terminate` that does not initialise the library anew leaves that half done. -/
theorem Exited.runTerminate (h : Exited p) {cs : List ApiCall} (hcs : ∀ c ∈ cs, ¬ c.IsInit) :
    Exited (p.runTerminate cs) := by
  rw [Process.runTerminate]
  split
  · exact h
  · split
    · exact h
    · refine foldl_runApi (I := Exited) (fun c hc q hq => hq.runApi (hcs c hc)) ?_
      exact ⟨h.state, h.ops, h.vconf, h.aul⟩

/-- A cleared core stays so until something is set in it. -/
theorem core_zero_runApi {c : ApiCall} (hinit : ¬ c.IsInit) (hset : ¬ c.IsSetEventCallback)
    (hcore : p.core = .zero) : (p.runApi c).core = .zero := by
  cases c with
  | init name ops a => exact absurd trivial hinit
  | exit =>
      rw [Process.runApi, appcoreExit_eq]
      split
      · rfl
      · exact hcore
  | setEventCallback event cb data => exact absurd trivial hset
  | setI18n domainname a => exact hcore
  | setSystemResourceReclaiming enable => exact hcore
  | flushMemory =>
      obtain ⟨_, -, hq⟩ := logs_appcoreFlushMemory p
      rw [Process.runApi, hq]
      exact hcore
  | rotation c a ρ => exact hcore

/-- The end of a call clears a core that is in use, with the event callbacks in it. -/
theorem core_leave (hstate : p.core.state ≠ 0) (a : Rotation.Answers) {cs : List ApiCall}
    (hinit : ∀ c ∈ cs, ¬ c.IsInit) (hset : ∀ c ∈ cs, ¬ c.IsSetEventCallback) :
    (p.leave a cs).core = .zero := by
  have hexit : (p.exitLoop a).core = .zero := by
    rw [exitLoop, appcoreExit_eq]
    exact congrArg Process.core (if_pos hstate)
  have hterm : ((p.exitLoop a).runTerminate cs).core = .zero := by
    rw [Process.runTerminate]
    split
    · exact hexit
    · split
      · exact hexit
      · exact foldl_runApi (I := fun q => q.core = .zero)
          (fun c hc q hq => core_zero_runApi (hinit c hc) (hset c hc) hq) hexit
  rw [leave, tearDown_eq]
  exact hterm

/-- **The end of a call**, in a process in which the invariants of sessions hold. -/
theorem ended_leave (htargets : Targets p) (hdisc : Disciplined p) (htidy : Tidy p)
    (a : Rotation.Answers) {cs : List ApiCall} (hcs : ∀ c ∈ cs, ¬ c.IsInit) :
    Ended (p.leave a cs) ∧ (p.leave a cs).bActive = p.bActive ∧
      (p.leave a cs).gWinnodeList = p.gWinnodeList := by
  have hexit : Exited ((p.exitLoop a).runTerminate cs) := by
    refine Exited.runTerminate ?_ hcs
    exact exited_appcoreExit (htargets.congr rfl rfl rfl rfl rfl htargets.noFault)
  have hout := (outside_exitLoop a p).trans (outside_runTerminate cs _)
  have hleft : Tidy (p.leave a cs) := htidy.leave a cs
  rw [leave] at hleft ⊢
  generalize (p.exitLoop a).runTerminate cs = q at hexit hout hleft ⊢
  obtain ⟨_, _, _, _, _, _, l, -, rfl⟩ := hout
  rw [tearDown_eq] at hleft ⊢
  refine ⟨⟨rfl, ?_, hleft.handlers, hexit.state, hexit.ops, hexit.vconf, hexit.aul⟩, rfl, rfl⟩
  change p.priv.mftimer.elim p.timers p.timers.erase = []
  rw [hdisc.timers]
  cases p.priv.mftimer with
  | none => rfl
  | some t => exact List.erase_cons_head ..

/-- The rotation module stays well formed, with a sound account, over the end of a call. -/
theorem sound_leave (hwf : p.rotation.WellFormed) (hsound : p.rotation.account.Sound)
    (a : Rotation.Answers) (cs : List ApiCall) :
    (p.leave a cs).rotation.WellFormed ∧ (p.leave a cs).rotation.account.Sound := by
  have hstep : ∀ (y : Rotation.Input) (r : Rotation), r.WellFormed ∧ r.account.Sound →
      (r.step y).WellFormed ∧ (r.step y).account.Sound := fun y r h =>
    ⟨Rotation.wellFormed_step r y h.1, h.2.moves (Rotation.moves_step y h.1)⟩
  exact rotation_leave (I := fun r => r.WellFormed ∧ r.account.Sound) (hstep _ _ ⟨hwf, hsound⟩)
    fun y _ r hr => hstep y r hr

end Process

namespace System

variable {w : ℕ}

/-- **The end of a call gives back what it holds.** Let the process be in a call after any
run of the system with a legal application, and let the call end, with a callback `terminate`
that does not initialise the library anew. Then nothing is left of the call; the event
callbacks are gone too if the core was in use and `terminate` sets none. Of the property
handlers of the rotation module at most that of a pending deferral is left. Unless `terminate`
sets a rotation callback, or the sensor framework fails to unregister an active one, no
rotation event reaches the module any more, no lock notification is registered, and the
connections that are still open are those that were lost. -/
theorem shutdown_system (env : EnvVar → Option String) (locale : LcCategory → String)
    (rotateLock : Bool) (pid : ℤ) {is : List (Input w)}
    (his : ∀ i ∈ is, ∀ x ∈ i.actions, x.Legal) (a : Rotation.Answers) {cs : List ApiCall}
    (hcs : ∀ c ∈ cs, ¬ c.IsInit) (b : ResumeAnswers) :
    let s := Machine.run step (init (.fresh env locale rotateLock) pid) is
    let t := s.act (.leave a cs) b
    s.process.priv.name ≠ none →
      Process.Ended t.process ∧ t.process.bActive = s.process.bActive ∧
        t.process.gWinnodeList = s.process.gWinnodeList ∧
        (s.process.core.state ≠ 0 → (∀ c ∈ cs, ¬ c.IsSetEventCallback) →
          t.process.core = .zero) ∧
        t.process.rotation.handlers = t.process.rotation.changedHandle.toList ∧
        (s.process.rotation.rot.cbSet = false ∨ 0 ≤ a.sfUnregisterEvent →
          (∀ y ∈ cs.filterMap ApiCall.rotationInput, ¬ y.Sets) →
          t.process.rotation.registration.Forgotten ∧
            t.process.rotation.account.opened.Perm (Rotation.lost t.process.rotation.log)) := by
  intro s t hname
  have hact : t.process = s.process.leave a cs := if_neg hname
  obtain ⟨htargets, hdisc, htidy⟩ := invariants_system env locale rotateLock pid his
  obtain ⟨hended, hactive, hwins⟩ := Process.ended_leave htargets hdisc htidy a hcs
  obtain ⟨hwf, hsound⟩ := rotation_sound env locale rotateLock pid is
  obtain ⟨hleft, haccount⟩ := Process.sound_leave (p := s.process) hwf hsound a cs
  rw [hact]
  refine ⟨hended, hactive, hwins, fun hstate hset => Process.core_leave hstate a hcs hset,
    hleft.handlers, fun hunset hsets => ?_⟩
  have hhushed := Process.hushed_leave hwf hunset hsets
  refine ⟨hhushed.forgotten, ?_⟩
  -- without a callback what is open is what was lost
  have howned : (s.process.leave a cs).rotation.rot.owned = none := if_pos hhushed.callback
  have hperm := haccount.perm
  rw [Account.held, show (Rotation.account _).owned = none from howned] at hperm
  exact hperm

/-- A call ends after a rotation, and the sensor framework fails to disconnect: the connection
of the callback stays open, with its sensor stopped. -/
theorem shutdown_system_rotated :
    let s := Machine.run step (init Process.plain 77) rotated
    let t := s.act (.leave { Rotation.granted with sfDisconnect := -1 } []) noDisplay
    Process.Ended t.process ∧ t.process.rotation.registration.Forgotten ∧
      t.process.rotation.account.opened = [(0, false)] := by
  intro s t
  have hlegal : ∀ i ∈ rotated, ∀ x ∈ i.actions, x.Legal := by
    simp [rotated, Input.actions, Process.Action.Legal, Process.Action.apiCalls, ApiCall.Legal,
      Process.goodCall]
  have hcs : ∀ c ∈ ([] : List ApiCall), ¬ c.IsInit := by simp
  obtain ⟨hended, -, -, -, -, hrotation⟩ :=
    shutdown_system (fun _ => none) (fun _ => "C") false 77 hlegal
      { Rotation.granted with sfDisconnect := -1 } hcs noDisplay (Option.some_ne_none "app")
  obtain ⟨hforgotten, hperm⟩ := hrotation (.inr le_rfl) (by simp)
  exact ⟨hended, hforgotten, List.perm_singleton.mp hperm⟩

end System

end AppCore
