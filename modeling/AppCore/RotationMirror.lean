import AppCore.RotationTrace

/-!
# The Rotation State and the Sensor

`rot` keeps two flags about the sensor, `cb_set` and `sf_started`, next to the handle of
the connection. The API calls give up wherever a call of the sensor framework fails; the
flags say what the framework holds nevertheless, as long as one failure is excluded: the
unregistration that a resume call makes to clean up after its `sf_start`. A set call that
cleans up gives up its connection, and nothing refers to that one any more.

## Main results

* `attached_runApi`: the link between `rot` and the connection, over an API call.
* `attached_step`: the link, over one step.
* `mirrors_run`: **the rotation state mirrors the sensor** in every state reached.
-/

set_option autoImplicit false

namespace AppCore

namespace Registration

/-- The connection of a callback that is set. That a paused callback is not registered
depends on the cleaning up, `cleans`. -/
structure Linked (cleans : Prop) (r : Registration) (connected : ℤ → Bool) : Prop where
  connected : connected r.handle = true
  started : r.cbSet = true → r.sfStarted = true
  registered : r.cbSet = true → r.registered r.handle ≠ none
  unregistered : cleans → r.cbSet = false → r.registered r.handle = none

/-- A callback that is set has a connection, and one that is not leaves no data. -/
structure Attached (cleans : Prop) (r : Registration) (connected : ℤ → Bool) : Prop where
  cbdata : r.callback = none → r.cbdata = none
  linked : r.callback ≠ none → r.Linked cleans connected

variable {cleans : Prop} {r : Registration} {connected : ℤ → Bool}

/-- Without a callback there is no connection to show. -/
theorem attached_of_none (hcb : r.callback = none) (hdata : r.cbdata = none) :
    r.Attached cleans connected :=
  ⟨fun _ => hdata, fun hne => absurd hcb hne⟩

/-- Of a paused callback only the connection is left. -/
theorem linked_of_paused (hset : r.cbSet = false) (hconnected : connected r.handle = true)
    (hregistered : cleans → r.registered r.handle = none) : r.Linked cleans connected where
  connected := hconnected
  started := fun h => absurd (hset.symm.trans h) (by simp)
  registered := fun h => absurd (hset.symm.trans h) (by simp)
  unregistered := fun hc _ => hregistered hc

/-- With a callback the connection is all there is to show. -/
theorem Linked.attached (h : r.Linked cleans connected) (hcb : r.callback ≠ none) :
    r.Attached cleans connected :=
  ⟨fun hnone => absurd hnone hcb, fun _ => h⟩

/-- What follows the lock setting does not matter. -/
theorem Attached.withLock (h : r.Attached cleans connected) (lock : Option Ptr) :
    ({ r with lockRegistered := lock } : Registration).Attached cleans connected :=
  ⟨h.cbdata, fun hne => { h.linked hne with }⟩

/-- Pausing: the registration is dropped together with the flag. -/
theorem Attached.pause (h : r.Attached cleans connected) :
    ({ r with
        registered := Function.update r.registered r.handle none
        cbSet := false } : Registration).Attached cleans connected where
  cbdata := h.cbdata
  linked := fun hne =>
    linked_of_paused rfl (h.linked hne).connected fun _ => Function.update_self ..

/-- The sensor of a paused callback stops. -/
theorem Attached.stop (h : r.Attached cleans connected) (hset : r.cbSet = false) :
    ({ r with
        started := Function.update r.started r.handle false
        sfStarted := false } : Registration).Attached cleans connected where
  cbdata := h.cbdata
  linked := fun hne =>
    { h.linked hne with started := fun hset' => absurd (hset.symm.trans hset') (by simp) }

end Registration

namespace Rotation

/-! ### The API calls -/

/-- `rot` and the sensor framework are linked. -/
def Attached (cleans : Prop) (s : Rotation) : Prop :=
  s.registration.Attached cleans s.connected

variable {cleans : Prop}

/-- A new callback is linked with the connection that was opened for it. -/
theorem linked_of_set {s : Rotation} {cb data : Ptr} {a : Answers}
    (h : (s.setRotationCb cb data a).1 = 0) :
    (s.setRotationCb cb data a).2.registration.Linked cleans
      (s.setRotationCb cb data a).2.connected := by
  obtain ⟨hcb, hnone, hconnect, hregister, hstart⟩ := ok_of_setRotationCb h
  rw [setRotationCb_of_ok data hcb hnone hconnect hregister hstart]
  exact {
    connected := Function.update_self ..
    started := fun _ => rfl
    registered := fun _ => by simp [registration]
    unregistered := fun _ hunset => absurd hunset (by simp [registration]) }

/-- `appcore_set_rotation_cb` keeps the link: it leaves a callback with its connection, or
none. -/
theorem attached_setRotationCb (cb data : Ptr) (a : Answers) {s : Rotation}
    (h : s.Attached cleans) : (s.setRotationCb cb data a).2.Attached cleans := by
  by_cases hcall : cb ≠ none ∧ s.rot.callback = none
  · obtain ⟨hcb, hnone⟩ := hcall
    have hreturns := returns_setRotationCb cb data a s
    generalize hr : (s.setRotationCb cb data a).1 = r, hv :
      (s.setRotationCb cb data a).2.view = v at hreturns
    cases hreturns with
    | setRefused =>
        exact Registration.attached_of_none ((congrArg View.callback hv).trans hnone)
          ((congrArg View.cbdata hv).trans (h.cbdata hnone))
    | setFailed =>
        exact Registration.attached_of_none (congrArg View.callback hv)
          (congrArg View.cbdata hv)
    | set =>
        refine (linked_of_set hr).attached fun hgone => hcb ?_
        exact (congrArg View.callback hv).symm.trans hgone
  · have hsame : (s.setRotationCb cb data a).2 = s := by
      rw [setRotationCb]
      split
      next => rfl
      next hcb => rw [if_pos fun hnone => hcall ⟨hcb, hnone⟩]
    rw [hsame]
    exact h

/-- From the middle on `appcore_unset_rotation_cb` leaves no callback and no data. -/
theorem forgets_unsetStop (a : Answers) (s : Rotation) :
    (unsetStop a s).2.rot.callback = none ∧ (unsetStop a s).2.rot.cbdata = none := by
  have hdisconnect : ∀ t : Rotation, (unsetDisconnect a t).2.rot.callback = t.rot.callback ∧
      (unsetDisconnect a t).2.rot.cbdata = t.rot.cbdata := by
    intro t
    rw [unsetDisconnect, sfDisconnect]
    dsimp only
    split <;> exact ⟨rfl, rfl⟩
  rw [unsetStop, sfStop]
  dsimp only
  split
  · split
    · exact ⟨rfl, rfl⟩
    · exact hdisconnect _
  · exact hdisconnect _

/-- `appcore_unset_rotation_cb` keeps the link. -/
theorem attached_unsetRotationCb (a : Answers) {s : Rotation} (h : s.Attached cleans) :
    (s.unsetRotationCb a).2.Attached cleans := by
  have hforget : ∀ t : Rotation, (unsetStop a t).2.Attached cleans := fun t =>
    Registration.attached_of_none (forgets_unsetStop a t).1 (forgets_unsetStop a t).2
  rw [unsetRotationCb]
  split
  next => exact h
  next =>
    dsimp only
    split
    next =>
      rw [sfUnregisterEvent]
      split
      next => exact h.withLock none
      next => exact hforget _
    next => exact hforget _

/-- The last part of a pause call may stop the sensor. -/
theorem attached_pauseStop (a : Answers) {s : Rotation} (hset : s.rot.cbSet = false)
    (h : s.Attached cleans) : (pauseStop a s).2.Attached cleans := by
  rw [pauseStop]
  split
  next =>
    rw [sfStop]
    split
    next => exact h
    next => exact h.stop hset
  next => exact h

/-- `appcore_pause_rotation_cb` keeps the link. -/
theorem attached_pauseRotationCb (a : Answers) {s : Rotation} (h : s.Attached cleans) :
    (s.pauseRotationCb a).2.Attached cleans := by
  have hdel : s.delRotlock.Attached cleans := h.withLock none
  rw [pauseRotationCb]
  split
  next => exact h
  next =>
    dsimp only
    split
    next =>
      rw [sfUnregisterEvent]
      split
      next => exact hdel
      next => exact attached_pauseStop a rfl hdel.pause
    next hset => exact attached_pauseStop a (Bool.eq_false_of_not_eq_true hset) hdel

/-! ### Deliveries

What follows is relative to the reaction of a callback that keeps the link. -/

section Reactions

variable {react : Rotation → Rotation}
  (hreact : ∀ t, t.Attached cleans → (react t).Attached cleans)

include hreact

/-- The query of a resume call leaves the link to what the callback does. -/
theorem attached_resumeRead (a : Answers) {s : Rotation} (h : s.Attached cleans) :
    (resumeRead react a s).2.Attached cleans := by
  have hfollow : (s.addRotlock s.rot.cbdata a).Attached cleans := h.withLock _
  cases hq : a.sfCheckRotation with
  | none =>
      rw [resumeRead_of_none react hq]
      exact hfollow
  | some e =>
      rw [resumeRead_of_some react hq, resumeDeliver]
      dsimp only
      split
      · rw [deliver, invoke]
        split
        · exact hreact _ hfollow
        · exact hfollow
      · exact hfollow

/-- A registered callback is linked once its sensor is started, or no longer registered. -/
theorem attached_resumeStart (a : Answers)
    (hclean : cleans → a.sfStart < 0 → 0 ≤ a.sfUnregisterEvent) {s : Rotation}
    (hcb : s.rot.callback ≠ none) (hconnected : s.connected s.rot.handle = true)
    (hset : s.rot.cbSet = true) (hregistered : s.registered s.rot.handle ≠ none) :
    (resumeStart react a s).2.Attached cleans := by
  rw [resumeStart]
  split
  next =>
    rw [sfStart]
    dsimp only
    split
    next hfail =>
      rw [sfUnregisterEvent]
      refine Registration.Linked.attached (r := registration _) ?_ ?_
      · split
        next hstays =>
          exact Registration.linked_of_paused rfl hconnected
            fun hc => absurd hstays (hclean hc hfail).not_gt
        next =>
          exact Registration.linked_of_paused rfl hconnected fun _ => Function.update_self ..
      · split <;> exact hcb
    next =>
      refine attached_resumeRead hreact a (Registration.Linked.attached ?_ hcb)
      exact ⟨hconnected, fun _ => rfl, fun _ => hregistered,
        fun _ hunset => absurd (hset.symm.trans hunset) (by simp)⟩
  next hstarted =>
    refine attached_resumeRead hreact a (Registration.Linked.attached ?_ hcb)
    exact ⟨hconnected, fun _ => Bool.not_eq_false _ |>.mp hstarted, fun _ => hregistered,
      fun _ hunset => absurd (hset.symm.trans hunset) (by simp)⟩

/-- `appcore_resume_rotation_cb` keeps the link, if the unregistration with which it cleans
up does not fail. -/
theorem attached_resumeRotationCb (a : Answers)
    (hclean : cleans → a.sfStart < 0 → 0 ≤ a.sfUnregisterEvent) {s : Rotation}
    (h : s.Attached cleans) : (s.resumeRotationCb react a).2.Attached cleans := by
  rw [resumeRotationCb]
  split
  next => exact h
  next hcb =>
    have hlinked := h.linked hcb
    split
    next =>
      rw [sfRegisterEvent]
      dsimp only
      split
      next => exact h
      next =>
        exact attached_resumeStart hreact a hclean hcb hlinked.connected rfl
          (by simp [record])
    next hset =>
      rw [Bool.not_eq_false] at hset
      exact attached_resumeStart hreact a hclean hcb hlinked.connected hset
        (hlinked.registered hset)

/-- The call does not leave a registration behind where it cleans up: the one place is the
end of a resume call that cannot start the sensor. -/
def Api.CleansUp (c : Api) (a : Answers) : Prop :=
  c = .resume → a.sfStart < 0 → 0 ≤ a.sfUnregisterEvent

include hreact in
/-- **An API call keeps the link.** -/
theorem attached_runApi (c : Api) (a : Answers) (hclean : cleans → c.CleansUp a)
    {s : Rotation} (h : s.Attached cleans) : (s.runApi react c a).Attached cleans := by
  cases c with
  | set cb data => exact attached_setRotationCb cb data a h
  | unset => exact attached_unsetRotationCb a h
  | pause => exact attached_pauseRotationCb a h
  | resume => exact attached_resumeRotationCb hreact a (fun hc => hclean hc rfl) h

end Reactions

/-- What the callback does, call by call. -/
theorem attached_reaction {ρ : Reaction} (hclean : ρ.Each fun c a => cleans → c.CleansUp a)
    {s : Rotation} (h : s.Attached cleans) : (ρ.run s).Attached cleans :=
  hclean.run_invariant (fun _ c a _ hreact hc hs => attached_runApi hreact c a hc hs) h

/-! ### Steps -/

/-- Steps that leave the registration half alone. -/
theorem Attached.stays {s t : Rotation} (h : s.Attached cleans) (hstays : Stays s t) :
    t.Attached cleans := by
  rw [Attached, hstays.registration, hstays.connected]
  exact h

/-- **A step keeps the link**: the handlers touch the sensor only through the callback. -/
theorem attached_step {s : Rotation} {x : Input} (hwf : s.WellFormed)
    (hcall : ∀ c, x.event = .api c → cleans → c.CleansUp x.answers)
    (hclean : x.reaction.Each fun c a => cleans → c.CleansUp a) (h : s.Attached cleans) :
    (step s x).Attached cleans := by
  by_cases hx : ∀ c, x.event ≠ .api c
  · rcases reacts_step hx hwf with hstays | ⟨u, hu, ht⟩
    · exact h.stays hstays
    · exact (attached_reaction hclean (h.stays hu)).stays ht
  · rw [not_forall_not] at hx
    obtain ⟨c, hc⟩ := hx
    rw [step, hc]
    exact attached_runApi (fun _ => attached_reaction hclean) c x.answers (hcall c hc) h

/-- No callback is set at first. -/
theorem attached_init (rotateLock : Bool) : (init rotateLock).Attached cleans :=
  Registration.attached_of_none rfl rfl

/-- Without an assumption about the cleaning up, a callback still has its connection. -/
theorem attached_run (rotateLock : Bool) (xs : List Input) :
    (Machine.run step (init rotateLock) xs).Attached False := by
  have hstep : ∀ s x, s.WellFormed ∧ s.Attached False →
      (step s x).WellFormed ∧ (step s x).Attached False := by
    rintro s x ⟨hwf, h⟩
    refine ⟨wellFormed_step s x hwf, attached_step hwf (fun _ _ => False.elim) ?_ h⟩
    exact x.reaction.all_true.each.mono fun _ _ _ => False.elim
  exact (Machine.run_invariant step hstep ⟨wellFormed_init rotateLock, attached_init _⟩ xs).2

/-! ### No invocation of NULL -/

/-- No entry of the trace records an invocation of a NULL pointer: every place that invokes
the callback knows that there is one. -/
theorem kept_noFault : Kept fun _ _ l => .fault ∉ l where
  returns := by
    intro a rotateLock v w c r l h _
    simp only [List.mem_append, List.mem_singleton, not_or]
    exact ⟨h, by cases c <;> simp [Api.returned]⟩
  sf := by
    intro cb data l cs h hcs hmem
    rcases List.mem_append.mp hmem with hmem | hmem
    · exact h hmem
    · exact hcs _ hmem
  reading := fun src m h => by simpa using h
  callback := fun f m d h => by simpa using h

/-! ### The mirror -/

/-- What `rot` says about the sensor, and what the sensor framework holds. -/
structure Mirrors (s : Rotation) : Prop where
  cbSet : s.rot.cbSet = true → s.rot.callback ≠ none ∧ s.rot.sfStarted = true
  forgotten : s.rot.callback = none → s.rot.cbSet = false ∧ s.rot.cbdata = none
  connected : s.rot.callback ≠ none → s.connected s.rot.handle = true
  registered : s.rot.callback ≠ none →
    (s.rot.cbSet = true ↔ s.registered s.rot.handle ≠ none)
  started : s.rot.callback ≠ none →
    (s.rot.sfStarted = true ↔ s.started s.rot.handle = true)
  /-- The callback has never been invoked through a NULL pointer. -/
  noFault : .fault ∉ s.log
  /-- At most one property handler is live, and `changed_handle` is that one. -/
  handlers : s.handlers = s.changedHandle.toList

/-- A link with a clean-up that works is a mirror. -/
theorem Attached.mirrors {s : Rotation} (h : s.Attached True) (hwf : s.WellFormed)
    (hlog : .fault ∉ s.log) : s.Mirrors where
  cbSet := by
    intro hset
    have hcb := hwf.coherent.callback_of_cbSet hset
    exact ⟨hcb, (h.linked hcb).started hset⟩
  forgotten := fun hnone => ⟨(hwf.coherent.forgotten hnone).cbSet, h.cbdata hnone⟩
  connected := fun hcb => (h.linked hcb).connected
  registered := by
    intro hcb
    refine ⟨(h.linked hcb).registered, fun hregistered => ?_⟩
    by_contra hset
    exact hregistered ((h.linked hcb).unregistered trivial (Bool.eq_false_of_not_eq_true hset))
  started := fun hcb => Eq.congr_left (hwf.coherent.started_eq hcb).symm
  noFault := hlog
  handlers := hwf.handlers

/-- No resume call of the step, by the application or by its callback, leaves a
registration behind where it cleans up. -/
def Input.CleansUp (x : Input) : Prop :=
  (∀ c, x.event = .api c → c.CleansUp x.answers) ∧ x.reaction.Each Api.CleansUp

/-- Without a clean-up that fails, nothing is registered that `rot` does not tell of. -/
theorem attached_run_of_cleansUp (rotateLock : Bool) {xs : List Input}
    (hxs : ∀ x ∈ xs, x.CleansUp) : (Machine.run step (init rotateLock) xs).Attached True := by
  have hkeeps : ∀ s x, s.WellFormed ∧ s.Attached True → x.CleansUp →
      (step s x).WellFormed ∧ (step s x).Attached True := by
    rintro s x ⟨hwf, h⟩ ⟨hcall, hclean⟩
    refine ⟨wellFormed_step s x hwf, attached_step hwf (fun c hc _ => hcall c hc) ?_ h⟩
    exact hclean.mono fun _ _ hc _ => hc
  exact (Machine.AtEach.run_invariant hkeeps
    ⟨wellFormed_init rotateLock, attached_init rotateLock⟩ (Machine.atEach_of_forall hxs)).2

/-- **The rotation state mirrors the sensor**, in every state that API calls and events
reach, whichever calls of the sensor framework fail, as long as the clean-up of a resume
call does not. -/
theorem mirrors_run (rotateLock : Bool) {xs : List Input} (hxs : ∀ x ∈ xs, x.CleansUp) :
    (Machine.run step (init rotateLock) xs).Mirrors :=
  (attached_run_of_cleansUp rotateLock hxs).mirrors (wellFormed_run rotateLock xs)
    (kept_noFault.run List.not_mem_nil rotateLock xs)

/-- A pause call that cannot stop the sensor and one that can, a resume call that cannot
start it and cleans up, then an unset call that cannot disconnect. -/
def failuresInBetween : List Input :=
  [⟨.api (.set (some 1) (some 10)), granted, .done⟩,
   ⟨.api .pause, { granted with sfStop := -1 }, .done⟩,
   ⟨.api .pause, granted, .done⟩,
   ⟨.api .resume, { granted with sfStart := -1 }, .done⟩,
   ⟨.api .unset, { granted with sfDisconnect := -1 }, .done⟩]

/-- The mirror, through failures at several places. -/
theorem mirrors_run_failuresInBetween :
    (Machine.run step (init false) failuresInBetween).Mirrors :=
  mirrors_run false (by
    simp [failuresInBetween, granted, Input.CleansUp, Api.CleansUp, Reaction.Each])

end Rotation

end AppCore
