import AppCore.RotationMirror

/-!
# Unsetting Once More

`appcore_unset_rotation_cb` gives up at the first call of the sensor framework that fails,
and an application will call it again. The second call starts with the guard
`rot.callback == NULL`. The first call has cleared `rot.callback` before it stops the
sensor and disconnects; so only a failure to unregister, which comes before that, can be
made good. After the other two failures the second call returns 0 at once, and the
connection stays.

## Main results

* `unsetRotationCb_failed`: what a failed unset call leaves, by the place where it failed.
* `retry_releases_iff`: **which failed unset calls can be retried**.
-/

set_option autoImplicit false

namespace AppCore

namespace Rotation

/-- Every call of the sensor framework that an unset call makes succeeds. -/
def Answers.Unsets (a : Answers) : Prop :=
  0 ≤ a.sfUnregisterEvent ∧ 0 ≤ a.sfStop ∧ 0 ≤ a.sfDisconnect

/-- The connection is given up: unregistered, stopped and disconnected, and no other is
left. -/
structure Released (handle : ℤ) (s : Rotation) : Prop where
  unregistered : s.registered handle = none
  stopped : s.started handle = false
  disconnected : ∀ k, s.connected k = false

/-- The unset call fails before it forgets the callback: the callback is not paused, and
its registration cannot be dropped. -/
def FailsEarly (s : Rotation) (a : Answers) : Prop :=
  s.rot.cbSet = true ∧ a.sfUnregisterEvent < 0

/-! ### The first call -/

/-- Unregistering an event closes no connection. -/
theorem connected_sfUnregisterEvent (handle : ℤ) (a : Answers) (s : Rotation) :
    (s.sfUnregisterEvent handle a).connected = s.connected := by
  rw [sfUnregisterEvent]
  split <;> rfl

/-- Stopping the sensor closes no connection. -/
theorem connected_sfStop (handle : ℤ) (a : Answers) (s : Rotation) :
    (s.sfStop handle a).connected = s.connected := by
  rw [sfStop]
  split <;> rfl

/-- An unset call that gives up at the stop closes no connection. -/
theorem connected_unsetStop {a : Answers} {s : Rotation} (h : (unsetStop a s).1 = -1) :
    (unsetStop a s).2.connected = s.connected := by
  have hdisconnect : ∀ t : Rotation, (unsetDisconnect a t).1 = -1 →
      (unsetDisconnect a t).2.connected = t.connected := by
    intro t ht
    rw [unsetDisconnect, sfDisconnect] at ht ⊢
    dsimp only at ht ⊢
    split at ht
    next hfail => rw [if_pos hfail, if_pos hfail, record]
    next => exact absurd ht (by simp)
  rw [unsetStop] at h ⊢
  dsimp only at h ⊢
  split at h
  next hstarted =>
    rw [if_pos hstarted]
    split at h
    next hfail =>
      rw [if_pos hfail]
      exact connected_sfStop ..
    next hok =>
      rw [if_neg hok]
      exact (hdisconnect _ h).trans (connected_sfStop ..)
  next hstopped =>
    rw [if_neg hstopped]
    exact hdisconnect _ h

/-- **A failed unset call** keeps the connection. It leaves the callback and its sensor as
they were if it fails early, and has forgotten the callback otherwise. -/
theorem unsetRotationCb_failed {a : Answers} {s : Rotation} (hcb : s.rot.callback ≠ none)
    (h : (s.unsetRotationCb a).1 = -1) :
    (s.unsetRotationCb a).2.connected = s.connected ∧
      (s.FailsEarly a → (s.unsetRotationCb a).2.registration =
        { s.registration with lockRegistered := none }) ∧
      (¬ s.FailsEarly a → (s.unsetRotationCb a).2.rot.callback = none) := by
  rw [unsetRotationCb, if_neg hcb] at h ⊢
  dsimp only at h ⊢
  by_cases hset : s.delRotlock.rot.cbSet = true
  · rw [if_pos hset] at h ⊢
    split at h
    next hfail =>
      rw [if_pos hfail, sfUnregisterEvent, if_pos hfail]
      exact ⟨rfl, fun _ => rfl, fun hlate => absurd ⟨hset, hfail⟩ hlate⟩
    next hok =>
      rw [if_neg hok]
      exact ⟨(connected_unsetStop h).trans (connected_sfUnregisterEvent ..),
        fun hearly => absurd hearly.2 hok, fun _ => (forgets_unsetStop a _).1⟩
  · rw [if_neg hset] at h ⊢
    exact ⟨connected_unsetStop h, fun hearly => absurd hearly.1 hset,
      fun _ => (forgets_unsetStop a _).1⟩

/-! ### In between -/

/-- Events leave the sensor alone. -/
theorem stays_run {s : Rotation} {xs : List Input} (hxs : ∀ x ∈ xs, x.IsEvent)
    (hwf : s.WellFormed) : Stays s (Machine.run step s xs) := by
  have hkeeps := Machine.AtEach.run_invariant (I := fun t : Rotation => t.WellFormed ∧ Stays s t)
    (fun t x h hx => ⟨wellFormed_step t x h.1, h.2.trans (stays_step hx h.1)⟩)
    ⟨hwf, .refl s⟩ (Machine.atEach_of_forall hxs)
  exact hkeeps.2

/-! ### The second call -/

/-- An unset call without failures. -/
theorem unsetRotationCb_of_ok {a : Answers} {s : Rotation} (hcb : s.rot.callback ≠ none)
    (ha : a.Unsets) :
    (s.unsetRotationCb a).1 = 0 ∧
      (s.unsetRotationCb a).2.registered s.rot.handle = none ∧
      (s.unsetRotationCb a).2.started s.rot.handle = false ∧
      (s.unsetRotationCb a).2.connected = Function.update s.connected s.rot.handle false := by
  obtain ⟨hunregister, hstop, hdisconnect⟩ := ha
  cases hset : s.rot.cbSet <;> cases hstarted : s.rot.sfStarted <;>
    simp [unsetRotationCb, unsetStop, unsetDisconnect, sfUnregisterEvent, sfStop, sfDisconnect,
      delRotlock, record, hcb, hset, hstarted, hunregister.not_gt, hstop.not_gt,
      hdisconnect.not_gt]

/-- An unset call without failures releases its handle, and no other. -/
theorem released_unsetRotationCb_iff {a : Answers} {s : Rotation} (hcb : s.rot.callback ≠ none)
    (ha : a.Unsets) :
    (s.unsetRotationCb a).1 = 0 ∧ Released s.rot.handle (s.unsetRotationCb a).2 ↔
      ∀ k, k ≠ s.rot.handle → s.connected k = false := by
  obtain ⟨hzero, hunregistered, hstopped, hdisconnected⟩ := unsetRotationCb_of_ok hcb ha
  rw [and_iff_right hzero]
  constructor
  · intro hreleased k hk
    have hgone := hreleased.disconnected k
    rwa [hdisconnected, Function.update_of_ne hk] at hgone
  · intro hothers
    refine ⟨hunregistered, hstopped, fun k => ?_⟩
    rw [hdisconnected]
    by_cases hk : k = s.rot.handle
    · rw [hk, Function.update_self]
    · rw [Function.update_of_ne hk]
      exact hothers k hk

/-- Without a callback there is nothing to unset. -/
theorem unsetRotationCb_none {s : Rotation} (a : Answers) (hnone : s.rot.callback = none) :
    s.unsetRotationCb a = (0, s) := by
  rw [unsetRotationCb, if_pos hnone]

/-- **Retrying an unset call.** From any state reached with a callback set, let an unset
call return -1; then, after any events, let another one meet no failure. It returns 0 and
leaves the handle unregistered, stopped and disconnected, with no connection left, exactly
if the first call failed to unregister and the handle was the only one connected. -/
theorem retry_releases_iff (rotateLock : Bool) (xs ys : List Input) (a b : Answers)
    (ρ : Reaction) :
    let s := Machine.run step (init rotateLock) xs
    let t := Machine.run step (step s ⟨.api .unset, a, ρ⟩) ys
    s.rot.callback ≠ none → (s.unsetRotationCb a).1 = -1 → (∀ y ∈ ys, y.IsEvent) →
      b.Unsets →
      ((t.unsetRotationCb b).1 = 0 ∧ Released s.rot.handle (t.unsetRotationCb b).2 ↔
        s.FailsEarly a ∧ ∀ k, k ≠ s.rot.handle → s.connected k = false) := by
  intro s t hcb hfailed hys hb
  have hwf : s.WellFormed := wellFormed_run rotateLock xs
  have hattached : s.Attached False := attached_run rotateLock xs
  obtain ⟨hreg, hconnected, -⟩ := stays_run hys (wellFormed_step s ⟨.api .unset, a, ρ⟩ hwf)
  obtain ⟨hconnected', hkept, hforgotten⟩ := unsetRotationCb_failed hcb hfailed
  have hconn : t.connected = s.connected := hconnected.trans hconnected'
  by_cases hearly : s.FailsEarly a
  · -- the callback is still set, and the second call does it all
    have htreg : t.registration = { s.registration with lockRegistered := none } :=
      hreg.trans (hkept hearly)
    have htcb : t.rot.callback ≠ none := by
      have hsame : t.rot.callback = s.rot.callback := congrArg Registration.callback htreg
      exact hsame ▸ hcb
    have hhandle : t.rot.handle = s.rot.handle := congrArg Registration.handle htreg
    have hreleased := released_unsetRotationCb_iff htcb hb
    rw [hhandle, hconn] at hreleased
    rw [hreleased, and_iff_right hearly]
  · -- the callback is forgotten, and the second call does nothing
    have htcb : t.rot.callback = none :=
      (congrArg Registration.callback hreg).trans (hforgotten hearly)
    rw [unsetRotationCb_none b htcb]
    refine iff_of_false (fun hreleased => ?_) fun hcond => hearly hcond.1
    have hgone := hreleased.2.disconnected s.rot.handle
    have hstays : s.connected s.rot.handle = true := (hattached.linked hcb).connected
    rw [hconn, hstays] at hgone
    exact absurd hgone (by simp)

/-- An unset call that cannot unregister, a rotation, and the retry. -/
theorem retry_releases_iff_unregisterFails :
    let s := Machine.run step (init false) [⟨.api (.set (some 1) (some 10)), granted, .done⟩]
    let a : Answers := { granted with sfUnregisterEvent := -1 }
    let t := Machine.run step (step s ⟨.api .unset, a, .done⟩)
      [⟨.sensor 0 true .event90, granted, .done⟩]
    (t.unsetRotationCb granted).1 = 0 ∧ Released s.rot.handle (t.unsetRotationCb granted).2 ↔
      s.FailsEarly a ∧ ∀ k, k ≠ s.rot.handle → s.connected k = false :=
  retry_releases_iff false [⟨.api (.set (some 1) (some 10)), granted, .done⟩]
    [⟨.sensor 0 true .event90, granted, .done⟩] { granted with sfUnregisterEvent := -1 }
    granted .done (by decide) (by decide) (by simp [Input.IsEvent])
    (by simp [Answers.Unsets, granted])

/-- **A retry that does nothing**: the first call cannot stop the sensor and returns -1, the
second one succeeds and leaves the sensor started on its connection. -/
theorem not_released_stopFails :
    let s := Machine.run step (init false) [⟨.api (.set (some 1) (some 10)), granted, .done⟩]
    let a : Answers := { granted with sfStop := -1 }
    let t := step s ⟨.api .unset, a, .done⟩
    s.rot.callback ≠ none ∧ (s.unsetRotationCb a).1 = -1 ∧ granted.Unsets ∧
      ¬ ((t.unsetRotationCb granted).1 = 0 ∧
        Released s.rot.handle (t.unsetRotationCb granted).2) := by
  refine ⟨by decide, by decide, by simp [Answers.Unsets, granted], fun hreleased => ?_⟩
  exact absurd hreleased.2.stopped (by decide)

end Rotation

end AppCore
