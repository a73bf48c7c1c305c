import AppCore.RotationSpec

/-!
# The Invariant of the Registration

The first half of the rotation module is the registration: which callback is set, and what
the sensor framework and vconf hold for it. Its invariant says that rotation events reach
the module only on the connection of the callback that is set, with the data that was set
with it, whatever calls to the outside have failed.

## Main results

* `coherent_runApi`: **the invariant** is preserved by every API call, for all answers of
  the outside.
* `coherent_reaction`: it is preserved by whatever a callback does to the module.
-/

set_option autoImplicit false

namespace AppCore

/-- The half of the rotation module that the API calls work on. -/
structure Registration where
  callback : Ptr
  cbdata : Ptr
  cbSet : Bool
  sfStarted : Bool
  handle : ℤ
  registered : ℤ → Option Ptr
  started : ℤ → Bool
  lockRegistered : Option Ptr

namespace Registration

/-- The data of a connection on which rotation events reach the module. -/
def live (r : Registration) (h : ℤ) : Option Ptr :=
  if r.started h = true then r.registered h else none

/-- No rotation event reaches the module. -/
def Silent (r : Registration) : Prop :=
  ∀ h, r.live h = none

/-- The registration and the outside agree. -/
structure Coherent (r : Registration) : Prop where
  callback_of_cbSet : r.cbSet = true → r.callback ≠ none
  lock_of_callback : r.callback = none → r.lockRegistered = none
  lock_data : ∀ d, r.lockRegistered = some d → d = r.cbdata
  /-- Events come on the one connection of the callback, with its data. -/
  live_eq : ∀ h d, r.live h = some d → r.callback ≠ none ∧ h = r.handle ∧ d = r.cbdata
  /-- Also a registration that gets no events has the data of the callback. -/
  data : r.callback ≠ none → ∀ d, r.registered r.handle = some d → d = r.cbdata
  /-- A paused callback gets no events. -/
  paused : r.callback ≠ none → r.cbSet = false → r.live r.handle = none
  started_eq : r.callback ≠ none → r.started r.handle = r.sfStarted

/-- No callback is set, and nothing is followed. -/
structure Forgotten (r : Registration) : Prop where
  callback : r.callback = none
  cbSet : r.cbSet = false
  lock : r.lockRegistered = none
  silent : r.Silent

/-- Where no callback is set there is nothing to disagree about. -/
theorem Forgotten.coherent {r : Registration} (h : r.Forgotten) : r.Coherent where
  callback_of_cbSet := by simp [h.cbSet]
  lock_of_callback := fun _ => h.lock
  lock_data := by simp [h.lock]
  live_eq := by simp [h.silent _]
  data := fun hne => absurd h.callback hne
  paused := fun hne => absurd h.callback hne
  started_eq := fun hne => absurd h.callback hne

/-- Only the connection of the callback can be live. -/
theorem Coherent.silent {r : Registration} (h : r.Coherent)
    (hlive : r.callback ≠ none → r.live r.handle = none) : r.Silent := by
  intro k
  cases hk : r.live k with
  | none => rfl
  | some d =>
      obtain ⟨hcb, rfl, -⟩ := h.live_eq k d hk
      rw [hlive hcb] at hk
      exact absurd hk (by simp)

/-- Without a callback, the invariant says that nothing is followed. -/
theorem Coherent.forgotten {r : Registration} (h : r.Coherent) (hcb : r.callback = none) :
    r.Forgotten where
  callback := hcb
  cbSet := by
    cases hset : r.cbSet with
    | false => rfl
    | true => exact absurd hcb (h.callback_of_cbSet hset)
  lock := h.lock_of_callback hcb
  silent := h.silent fun hne => absurd hcb hne

/-! ### Outside calls -/

/-- Dropping a registration silences its connection and leaves the others. -/
theorem live_unregister (r : Registration) (h k : ℤ) :
    ({ r with registered := Function.update r.registered h none } : Registration).live k =
      if k = h then none else r.live k := by
  by_cases hk : k = h
  · simp [live, hk]
  · simp [live, hk]

/-- Stopping a sensor silences its connection and leaves the others. -/
theorem live_stop (r : Registration) (h k : ℤ) :
    ({ r with started := Function.update r.started h false } : Registration).live k =
      if k = h then none else r.live k := by
  by_cases hk : k = h
  · simp [live, hk]
  · simp [live, hk]

/-- Unregistering an event makes no connection heard. -/
theorem Silent.unregister {r : Registration} (hr : r.Silent) (h : ℤ) :
    ({ r with registered := Function.update r.registered h none } : Registration).Silent := by
  intro k
  rw [live_unregister, hr k, ite_self]

/-- Stopping a sensor makes no connection heard. -/
theorem Silent.stop {r : Registration} (hr : r.Silent) (h : ℤ) :
    ({ r with started := Function.update r.started h false } : Registration).Silent := by
  intro k
  rw [live_stop, hr k, ite_self]

/-! ### What preserves the invariant -/

variable {r : Registration}

/-- Setting a callback on a connection registered with its data and not started yet. -/
theorem Forgotten.set (h : r.Forgotten) {cb data : Ptr} {handle : ℤ} (hcb : cb ≠ none)
    (hreg : r.registered handle = some data) (hstart : r.started handle = false) :
    ({ r with
        callback := cb
        cbdata := data
        cbSet := true
        sfStarted := false
        handle := handle } : Registration).Coherent where
  callback_of_cbSet := fun _ => hcb
  lock_of_callback := fun hn => absurd hn hcb
  lock_data := fun d hd => absurd (h.lock.symm.trans hd) (by simp)
  live_eq := fun k d hk => absurd ((h.silent k).symm.trans hk) (by simp)
  data := fun _ d hd => Option.some.inj (hd.symm.trans hreg)
  paused := fun _ hset => nomatch hset
  started_eq := fun _ => hstart

/-- Ignoring the lock setting. -/
theorem Coherent.ignore (h : r.Coherent) :
    ({ r with lockRegistered := none } : Registration).Coherent :=
  { h with
    lock_of_callback := fun _ => rfl
    lock_data := fun _ hd => nomatch hd }

/-- Following the lock setting, with the data of the callback. -/
theorem Coherent.follow (h : r.Coherent) (hcb : r.callback ≠ none) :
    ({ r with lockRegistered := some (r.lockRegistered.getD r.cbdata) } :
      Registration).Coherent := by
  refine { h with lock_of_callback := fun hn => absurd hn hcb, lock_data := ?_ }
  intro d hd
  obtain rfl := Option.some.inj hd
  cases hlock : r.lockRegistered with
  | none => rfl
  | some e => exact h.lock_data e hlock

/-- Dropping the registration of the callback. -/
theorem Coherent.unregister (h : r.Coherent) :
    ({ r with registered := Function.update r.registered r.handle none } :
      Registration).Coherent where
  callback_of_cbSet := h.callback_of_cbSet
  lock_of_callback := h.lock_of_callback
  lock_data := h.lock_data
  live_eq := by
    intro k d hk
    rw [live_unregister] at hk
    by_cases heq : k = r.handle
    · rw [if_pos heq] at hk
      exact absurd hk (by simp)
    · rw [if_neg heq] at hk
      exact h.live_eq k d hk
  data := by simp
  paused := fun _ _ => by rw [live_unregister, if_pos rfl]
  started_eq := h.started_eq

/-- Pausing a callback that gets no events. -/
theorem Coherent.pause (h : r.Coherent) (hlive : r.callback ≠ none → r.live r.handle = none) :
    ({ r with cbSet := false } : Registration).Coherent :=
  { h with
    callback_of_cbSet := fun hset => nomatch hset
    paused := fun hcb _ => hlive hcb }

/-- Stopping the sensor of the callback. -/
theorem Coherent.stop (h : r.Coherent) :
    ({ r with started := Function.update r.started r.handle false, sfStarted := false } :
      Registration).Coherent where
  callback_of_cbSet := h.callback_of_cbSet
  lock_of_callback := h.lock_of_callback
  lock_data := h.lock_data
  live_eq := by
    intro k d hk
    have hk' := (live_stop r r.handle k).symm.trans hk
    by_cases heq : k = r.handle
    · rw [if_pos heq] at hk'
      exact absurd hk' (by simp)
    · rw [if_neg heq] at hk'
      exact h.live_eq k d hk'
  data := h.data
  paused := fun _ _ => (live_stop r r.handle r.handle).trans (if_pos rfl)
  started_eq := by simp

/-- Registering a callback anew, with its own data. -/
theorem Coherent.register (h : r.Coherent) (hcb : r.callback ≠ none) :
    ({ r with
        registered := Function.update r.registered r.handle (some r.cbdata)
        cbSet := true } : Registration).Coherent where
  callback_of_cbSet := fun _ => hcb
  lock_of_callback := h.lock_of_callback
  lock_data := h.lock_data
  live_eq := by
    intro k d hk
    by_cases heq : k = r.handle
    · refine ⟨hcb, heq, ?_⟩
      have hk' := (Option.ite_none_right_eq_some.mp hk).2
      simp only [heq, Function.update_self, Option.some.injEq] at hk'
      exact hk'.symm
    · simp only [live, Function.update_of_ne heq] at hk
      exact h.live_eq k d hk
  data := by simp
  paused := fun _ hset => nomatch hset
  started_eq := h.started_eq

/-- Starting the sensor of a callback that is registered. -/
theorem Coherent.start (h : r.Coherent) (hcb : r.callback ≠ none) (hset : r.cbSet = true) :
    ({ r with started := Function.update r.started r.handle true, sfStarted := true } :
      Registration).Coherent where
  callback_of_cbSet := h.callback_of_cbSet
  lock_of_callback := h.lock_of_callback
  lock_data := h.lock_data
  live_eq := by
    intro k d hk
    by_cases heq : k = r.handle
    · have hk' := (Option.ite_none_right_eq_some.mp hk).2
      exact ⟨hcb, heq, h.data hcb d (heq ▸ hk')⟩
    · simp only [live, Function.update_of_ne heq] at hk
      exact h.live_eq k d hk
  data := h.data
  paused := fun _ hnot => absurd (hset.symm.trans hnot) (by simp)
  started_eq := by simp

end Registration

namespace Rotation

/-- The registration half of the module. -/
def registration (s : Rotation) : Registration :=
  ⟨s.rot.callback, s.rot.cbdata, s.rot.cbSet, s.rot.sfStarted, s.rot.handle, s.registered,
    s.started, s.lockRegistered⟩

/-- What registering an event does to the registration half. -/
theorem registration_sfRegisterEvent (handle : ℤ) (data : Ptr) (a : Answers)
    (s : Rotation) :
    (s.sfRegisterEvent handle data a).registration =
      if a.sfRegisterEvent < 0 then s.registration
      else { s.registration with
        registered := Function.update s.registered handle (some data) } := by
  rw [sfRegisterEvent]
  split <;> rfl

/-- What unregistering an event does to the registration half. -/
theorem registration_sfUnregisterEvent (handle : ℤ) (a : Answers) (s : Rotation) :
    (s.sfUnregisterEvent handle a).registration =
      if a.sfUnregisterEvent < 0 then s.registration
      else { s.registration with registered := Function.update s.registered handle none } := by
  rw [sfUnregisterEvent]
  split <;> rfl

/-- What stopping the sensor does to the registration half. -/
theorem registration_sfStop (handle : ℤ) (a : Answers) (s : Rotation) :
    (s.sfStop handle a).registration =
      if a.sfStop < 0 then s.registration
      else { s.registration with started := Function.update s.started handle false } := by
  rw [sfStop]
  split <;> rfl

/-- What disconnecting does: the connection is gone with its registration. -/
theorem registration_sfDisconnect (handle : ℤ) (a : Answers) (s : Rotation) :
    (s.sfDisconnect handle a).registration =
      if a.sfDisconnect < 0 then s.registration
      else { s.registration with
        registered := Function.update s.registered handle none
        started := Function.update s.started handle false } := by
  rw [sfDisconnect]
  split <;> rfl

/-- What connecting does: the new handle has nothing registered and is not started. -/
theorem registration_sfConnect (a : Answers) (s : Rotation) :
    (s.sfConnect a).registration =
      if a.sfConnect = true then { s.registration with
        registered := Function.update s.registered s.nextHandle none
        started := Function.update s.started s.nextHandle false }
      else s.registration := by
  rw [sfConnect]
  split <;> rfl

/-- Unregistering makes nothing live. -/
theorem silent_sfUnregisterEvent {s : Rotation} (handle : ℤ) (a : Answers)
    (h : s.registration.Silent) : (s.sfUnregisterEvent handle a).registration.Silent := by
  rw [registration_sfUnregisterEvent]
  split
  · exact h
  · exact h.unregister handle

/-- A fresh connection is not started. -/
theorem sfConnect_started {s : Rotation} {a : Answers} (h : ¬ s.connectHandle a < 0) :
    (s.sfConnect a).started (s.connectHandle a) = false := by
  have hok : a.sfConnect = true := by
    by_contra hfail
    simp [connectHandle, hfail] at h
  simp [sfConnect, connectHandle, record, hok]

/-- Unregistering an event does not stop following the setting. -/
theorem sfUnregisterEvent_lockRegistered (handle : ℤ) (a : Answers) (s : Rotation) :
    (s.sfUnregisterEvent handle a).lockRegistered = s.lockRegistered := by
  rw [sfUnregisterEvent]
  split <;> rfl

/-! ### Without a callback -/

/-- What is forgotten stays so over a new connection, which is not heard yet. -/
theorem forgotten_sfConnect {s : Rotation} (a : Answers) (h : s.registration.Forgotten) :
    (s.sfConnect a).registration.Forgotten := by
  rw [registration_sfConnect]
  split
  · exact ⟨h.callback, h.cbSet, h.lock, (h.silent.unregister _).stop _⟩
  · exact h

/-- What is forgotten stays so over a stop, failed or not. -/
theorem forgotten_sfStop {s : Rotation} (handle : ℤ) (a : Answers)
    (h : s.registration.Forgotten) : (s.sfStop handle a).registration.Forgotten := by
  rw [registration_sfStop]
  split
  · exact h
  · exact ⟨h.callback, h.cbSet, h.lock, h.silent.stop handle⟩

/-- What is forgotten stays so over a disconnect, failed or not. -/
theorem forgotten_sfDisconnect {s : Rotation} (handle : ℤ) (a : Answers)
    (h : s.registration.Forgotten) : (s.sfDisconnect handle a).registration.Forgotten := by
  rw [registration_sfDisconnect]
  split
  · exact h
  · exact ⟨h.callback, h.cbSet, h.lock, (h.silent.unregister _).stop _⟩

/-- Registering a connection whose sensor is not started makes nothing live. -/
theorem forgotten_sfRegisterEvent {s : Rotation} (handle : ℤ) (data : Ptr) (a : Answers)
    (hstart : s.started handle = false) (h : s.registration.Forgotten) :
    (s.sfRegisterEvent handle data a).registration.Forgotten := by
  rw [registration_sfRegisterEvent]
  split
  · exact h
  · refine ⟨h.callback, h.cbSet, h.lock, fun k => ?_⟩
    by_cases heq : k = handle
    · simp [Registration.live, registration, heq, hstart]
    · have hk := h.silent k
      simp only [Registration.live, Function.update_of_ne heq] at hk ⊢
      exact hk

/-! ### The API calls -/

/-- `appcore_set_rotation_cb` from the start of the sensor on: it leaves either the new
callback with its data, or none. -/
theorem coherent_setStart (handle : ℤ) {cb : Ptr} (data : Ptr) (a : Answers) {s : Rotation}
    (hcb : cb ≠ none) (hreg : s.registered handle = some data)
    (hstopped : s.started handle = false) (h : s.registration.Forgotten) :
    (s.setStart handle cb data a).2.registration.Coherent := by
  rw [setStart, sfStart]
  dsimp only
  split
  next hfail =>
    -- the callback is taken back, and the sensor that did not start delivers nothing
    let t : Rotation :=
      { s with rot.cbSet := true, rot.callback := cb, rot.cbdata := data }.record
        (.sfStart handle a.sfStart)
    have hunreg : (t.sfUnregisterEvent handle a).registration.Silent :=
      silent_sfUnregisterEvent handle a h.silent
    have hlock : (t.sfUnregisterEvent handle a).lockRegistered = none :=
      (sfUnregisterEvent_lockRegistered handle a t).trans h.lock
    have hforget : ({ t.sfUnregisterEvent handle a with
        rot.callback := none
        rot.cbdata := none
        rot.cbSet := false
        rot.sfStarted := false } : Rotation).registration.Forgotten :=
      ⟨rfl, rfl, hlock, hunreg⟩
    exact (forgotten_sfDisconnect handle a hforget).coherent
  next hok => exact ((h.set hcb hreg hstopped).start hcb rfl).follow hcb

/-- `appcore_set_rotation_cb` keeps the invariant. -/
theorem coherent_setRotationCb (cb data : Ptr) (a : Answers) {s : Rotation}
    (h : s.registration.Coherent) : (s.setRotationCb cb data a).2.registration.Coherent := by
  rw [setRotationCb]
  split
  next => exact h
  next hcb =>
    split
    next => exact h
    next hnone =>
      have hf := h.forgotten (not_not.mp hnone)
      have hconnect := forgotten_sfConnect a hf
      dsimp only
      split
      next => exact hconnect.coherent
      next hhandle =>
        have hstopped := sfConnect_started hhandle
        have hregister := forgotten_sfRegisterEvent _ data a hstopped hconnect
        split
        next => exact (forgotten_sfDisconnect _ a hregister).coherent
        next hok =>
          rw [sfRegisterEvent, if_neg hok] at hregister ⊢
          exact coherent_setStart _ data a hcb (Function.update_self ..) hstopped hregister

/-- The last part of an unset call, which has forgotten the callback already. -/
theorem coherent_unsetDisconnect (a : Answers) {s : Rotation}
    (h : s.registration.Forgotten) : (unsetDisconnect a s).2.registration.Coherent := by
  have hdisconnect := forgotten_sfDisconnect s.rot.handle a h
  rw [unsetDisconnect]
  dsimp only
  split
  · exact hdisconnect.coherent
  · exact Registration.Forgotten.coherent { hdisconnect with }

/-- Once nothing is live, `appcore_unset_rotation_cb` goes on to forget the callback. -/
theorem coherent_unsetStop (a : Answers) {s : Rotation} (hset : s.rot.cbSet = false)
    (hlock : s.lockRegistered = none) (hsilent : s.registration.Silent) :
    (unsetStop a s).2.registration.Coherent := by
  have hforget : ({ s with rot.callback := none, rot.cbdata := none } :
      Rotation).registration.Forgotten := ⟨rfl, hset, hlock, hsilent⟩
  have hstop := forgotten_sfStop s.rot.handle a hforget
  rw [unsetStop]
  dsimp only
  split
  · split
    · exact hstop.coherent
    · exact coherent_unsetDisconnect a { hstop with }
  · exact coherent_unsetDisconnect a hforget

/-- `appcore_unset_rotation_cb` keeps the invariant. -/
theorem coherent_unsetRotationCb (a : Answers) {s : Rotation}
    (h : s.registration.Coherent) : (s.unsetRotationCb a).2.registration.Coherent := by
  have hdel : s.delRotlock.registration.Coherent := h.ignore
  rw [unsetRotationCb]
  split
  next => exact h
  next hcb =>
    dsimp only
    split
    next hset =>
      rw [sfUnregisterEvent]
      split
      next => exact hdel
      next hok =>
        have hunreg := hdel.unregister
        exact coherent_unsetStop a rfl rfl
          (hunreg.silent fun _ => (Registration.live_unregister ..).trans (if_pos rfl))
    next hset =>
      rw [Bool.not_eq_true] at hset
      exact coherent_unsetStop a hset rfl (hdel.silent fun hne => hdel.paused hne hset)

/-- The last part of a pause call, in which the sensor is stopped. -/
theorem coherent_pauseStop (a : Answers) {s : Rotation} (h : s.registration.Coherent) :
    (pauseStop a s).2.registration.Coherent := by
  rw [pauseStop]
  split
  next =>
    rw [sfStop]
    split
    next => exact h
    next => exact h.stop
  next => exact h

/-- `appcore_pause_rotation_cb` keeps the invariant. -/
theorem coherent_pauseRotationCb (a : Answers) {s : Rotation}
    (h : s.registration.Coherent) : (s.pauseRotationCb a).2.registration.Coherent := by
  have hdel : s.delRotlock.registration.Coherent := h.ignore
  rw [pauseRotationCb]
  split
  next => exact h
  next hcb =>
    dsimp only
    split
    next hset =>
      rw [sfUnregisterEvent]
      split
      next => exact hdel
      next hok =>
        have hunreg := hdel.unregister
        exact coherent_pauseStop a
          (hunreg.pause fun _ => (Registration.live_unregister ..).trans (if_pos rfl))
    next => exact coherent_pauseStop a hdel

/-! ### Deliveries

What follows is relative to the reaction of a callback that preserves the invariant. -/

section Reactions

variable {react : Rotation → Rotation}
  (hreact : ∀ t, t.registration.Coherent → (react t).registration.Coherent)

include hreact

/-- An invocation changes the registration by what the callback does only. -/
theorem coherent_invoke (m : AppcoreRm) (data : Ptr) {s : Rotation}
    (h : s.registration.Coherent) : (s.invoke react m data).registration.Coherent := by
  rw [invoke]
  split
  · exact hreact _ h
  · exact h

/-- The query of a resume call, and what the callback does if it is invoked. -/
theorem coherent_resumeRead (a : Answers) {s : Rotation} (hcb : s.rot.callback ≠ none)
    (h : s.registration.Coherent) : (resumeRead react a s).2.registration.Coherent := by
  have hfollow : (s.addRotlock s.rot.cbdata a).registration.Coherent := h.follow hcb
  cases hq : a.sfCheckRotation with
  | none =>
      rw [resumeRead_of_none react hq]
      exact hfollow
  | some e =>
      rw [resumeRead_of_some react hq, resumeDeliver]
      split
      · exact coherent_invoke hreact _ _ hfollow
      · exact hfollow

/-- The last part of a resume call, which may start the sensor. -/
theorem coherent_resumeStart (a : Answers) {s : Rotation} (hset : s.rot.cbSet = true)
    (h : s.registration.Coherent) : (resumeStart react a s).2.registration.Coherent := by
  have hcb := h.callback_of_cbSet hset
  rw [resumeStart]
  split
  next hstopped =>
    have hstarted : s.started s.rot.handle = false := (h.started_eq hcb).trans hstopped
    have hlive : s.registration.live s.registration.handle = none :=
      if_neg (by simp [registration, hstarted])
    rw [sfStart]
    dsimp only
    split
    next =>
      rw [sfUnregisterEvent]
      split
      next => exact h.pause fun _ => hlive
      next =>
        exact h.unregister.pause fun _ =>
          (Registration.live_unregister ..).trans (if_pos rfl)
    next => exact coherent_resumeRead hreact a hcb (h.start hcb hset)
  next => exact coherent_resumeRead hreact a hcb h

/-- `appcore_resume_rotation_cb` keeps the invariant. -/
theorem coherent_resumeRotationCb (a : Answers) {s : Rotation}
    (h : s.registration.Coherent) :
    (s.resumeRotationCb react a).2.registration.Coherent := by
  rw [resumeRotationCb]
  split
  next => exact h
  next hcb =>
    split
    next hset =>
      rw [sfRegisterEvent]
      dsimp only
      split
      next => exact h
      next => exact coherent_resumeStart hreact a rfl (h.register hcb)
    next hset =>
      rw [Bool.not_eq_false] at hset
      exact coherent_resumeStart hreact a hset h

/-- Every API call keeps the invariant. -/
theorem coherent_runApi (c : Api) (a : Answers) {s : Rotation}
    (h : s.registration.Coherent) : (s.runApi react c a).registration.Coherent := by
  cases c with
  | set cb data => exact coherent_setRotationCb cb data a h
  | unset => exact coherent_unsetRotationCb a h
  | pause => exact coherent_pauseRotationCb a h
  | resume => exact coherent_resumeRotationCb hreact a h

end Reactions

/-- Every reaction of the callback keeps the invariant. -/
theorem coherent_reaction (ρ : Reaction) (s : Rotation) (h : s.registration.Coherent) :
    (ρ.run s).registration.Coherent :=
  Reaction.run_invariant (I := fun s => s.registration.Coherent)
    (fun _ c a _ hreact _ hs => coherent_runApi hreact c a hs) ρ.all_true h

/-! ### The sensor -/

/-- A sensor event reaches `__changed_cb` on a live connection only. -/
theorem sensorEvent_of_live {react : Rotation → Rotation} {s : Rotation} {handle : ℤ}
    {rotationCheck : Bool} {e : RotateState} {a : Answers}
    (h : s.registration.live handle = none) :
    s.sensorEvent react handle rotationCheck e a = s := by
  rw [sensorEvent]
  split
  next data hreg =>
    split
    next hstarted =>
      have hsome : s.registration.live handle = some data := (if_pos hstarted).trans hreg
      exact absurd (h.symm.trans hsome) (by simp)
    next => rfl
  next => rfl

/-- An event on a live connection reaches `__changed_cb` with the data registered there. -/
theorem sensorEvent_of_live_some {react : Rotation → Rotation} {s : Rotation} {handle : ℤ}
    {rotationCheck : Bool} {e : RotateState} {a : Answers} {data : Ptr}
    (h : s.registration.live handle = some data) :
    s.sensorEvent react handle rotationCheck e a =
      (if rotationCheck = true then
        s.record (.reading (.event s.rot.lock) (getMode e)) else s).changedCb react
          rotationCheck e data a := by
  obtain ⟨hstarted, hreg⟩ : s.started handle = true ∧ s.registered handle = some data :=
    Option.ite_none_right_eq_some.mp h
  rw [sensorEvent, hreg]
  exact if_pos hstarted

/-- Nothing is registered at first. -/
theorem coherent_init (rotateLock : Bool) : (init rotateLock).registration.Coherent :=
  Registration.Forgotten.coherent ⟨rfl, rfl, rfl, fun _ => rfl⟩

end Rotation

end AppCore
