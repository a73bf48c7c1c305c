import AppCore.Lib.Trace
import AppCore.Rotation
import Mathlib.Data.List.Basic
import Mathlib.Tactic.SplitIfs

/-!
# What the Functions of the Rotation Module Do

The rotation module has two halves. One is the registration: the sensor connection, the
lock notification and the fields of `rot` that describe them; the API calls change it. The
other is the delivery of modes: `rot.mode`, the statics `changed_m`, `changed_data` and
`changed_handle`, the live property handlers and the trace; the handlers change it. Each
function has its lemma here: what an API call returns and leaves for the handlers, what a
handler does with a reading, and what the callback can do to the module when it calls it.

## Main results

* `frame_setRotationCb`, `frame_unsetRotationCb`, `frame_pauseRotationCb`: these calls
  leave the delivery alone.
* `returns_setRotationCb`, `returns_unsetRotationCb`, `returns_pauseRotationCb`: the exits
  of these calls, by return value.
* `apiOutcome_runApi`: **the exits of an API call**, a resume call that delivers among
  them.
* `ApiClosed.reaction`: what these exits preserve, every reaction of the callback preserves.
* `changedCb_unlocked`, `lockCb_query`: the two handlers settle a reading alike.
-/

set_option autoImplicit false

namespace AppCore

namespace Rotation

/-! ### Frame of the API calls -/

/-- An entry that records a call of the sensor framework. -/
def Call.IsSf : Call → Prop
  | .sfConnect .. => True
  | .sfRegisterEvent .. => True
  | .sfUnregisterEvent .. => True
  | .sfStart .. => True
  | .sfStop .. => True
  | .sfDisconnect .. => True
  | _ => False

/-- From `s` to `t` the delivery half is as it was, but for calls of the sensor framework
in the trace. -/
structure Frame (s t : Rotation) : Prop where
  log : ∃ cs, (∀ c ∈ cs, c.IsSf) ∧ t.log = s.log ++ cs
  mode : t.rot.mode = s.rot.mode
  changedM : t.changedM = s.changedM
  changedData : t.changedData = s.changedData
  changedHandle : t.changedHandle = s.changedHandle
  handlers : t.handlers = s.handlers
  rotateLock : t.rotateLock = s.rotateLock

/-- A part that makes no call at all. -/
theorem Frame.of_eq {s t : Rotation} (hlog : t.log = s.log) (hmode : t.rot.mode = s.rot.mode)
    (hm : t.changedM = s.changedM) (hdata : t.changedData = s.changedData)
    (hhandle : t.changedHandle = s.changedHandle) (hhandlers : t.handlers = s.handlers)
    (hlock : t.rotateLock = s.rotateLock) : Frame s t :=
  ⟨⟨[], by simp, by simpa using hlog⟩, hmode, hm, hdata, hhandle, hhandlers, hlock⟩

/-- A module that stands still. -/
theorem Frame.refl (s : Rotation) : Frame s s :=
  .of_eq rfl rfl rfl rfl rfl rfl rfl

/-- One part after the other. -/
theorem Frame.trans {s t u : Rotation} (h : Frame s t) (k : Frame t u) : Frame s u := by
  obtain ⟨cs, hcs, hlog⟩ := h.log
  obtain ⟨ds, hds, hlog'⟩ := k.log
  refine ⟨⟨cs ++ ds, ?_, by rw [hlog', hlog, List.append_assoc]⟩, k.mode.trans h.mode,
    k.changedM.trans h.changedM, k.changedData.trans h.changedData,
    k.changedHandle.trans h.changedHandle, k.handlers.trans h.handlers,
    k.rotateLock.trans h.rotateLock⟩
  intro c hc
  rcases List.mem_append.mp hc with hc | hc
  · exact hcs c hc
  · exact hds c hc

/-- A register that no call of the sensor framework writes has the same value. -/
theorem Frame.latest {s t : Rotation} {β : Type*} {f : Call → Option β} {b : β}
    (h : Frame s t) (hf : ∀ c, c.IsSf → f c = none) :
    Trace.latest f b t.log = Trace.latest f b s.log := by
  obtain ⟨cs, hcs, hlog⟩ := h.log
  rw [hlog, Trace.latest_append, Trace.latest_eq_of_forall_none]
  exact fun c hc => hf c (hcs c hc)

/-- The entry of a call of the sensor framework. -/
theorem frame_record (c : Call) (hc : c.IsSf) (s : Rotation) : Frame s (s.record c) :=
  ⟨⟨[c], by simpa using hc, rfl⟩, rfl, rfl, rfl, rfl, rfl, rfl⟩

/-- The fields of `rot` other than the mode belong to the registration. -/
theorem frame_withRot (s : Rotation) (r : RotS) (hmode : r.mode = s.rot.mode) :
    Frame s { s with rot := r } :=
  .of_eq rfl hmode rfl rfl rfl rfl rfl

/-- Connecting does not concern the delivery half. -/
theorem frame_sfConnect (a : Answers) (s : Rotation) : Frame s (s.sfConnect a) := by
  have h := frame_record (.sfConnect (s.connectHandle a)) trivial s
  rw [sfConnect]
  split
  · exact h.trans (.of_eq rfl rfl rfl rfl rfl rfl rfl)
  · exact h

/-- Registering an event does not concern the delivery half. -/
theorem frame_sfRegisterEvent (handle : ℤ) (data : Ptr) (a : Answers) (s : Rotation) :
    Frame s (s.sfRegisterEvent handle data a) := by
  have h := frame_record (.sfRegisterEvent handle data a.sfRegisterEvent) trivial s
  rw [sfRegisterEvent]
  split
  · exact h
  · exact h.trans (.of_eq rfl rfl rfl rfl rfl rfl rfl)

/-- Unregistering an event does not concern the delivery half. -/
theorem frame_sfUnregisterEvent (handle : ℤ) (a : Answers) (s : Rotation) :
    Frame s (s.sfUnregisterEvent handle a) := by
  have h := frame_record (.sfUnregisterEvent handle a.sfUnregisterEvent) trivial s
  rw [sfUnregisterEvent]
  split
  · exact h
  · exact h.trans (.of_eq rfl rfl rfl rfl rfl rfl rfl)

/-- Starting the sensor does not concern the delivery half. -/
theorem frame_sfStart (handle : ℤ) (a : Answers) (s : Rotation) :
    Frame s (s.sfStart handle a) := by
  have h := frame_record (.sfStart handle a.sfStart) trivial s
  rw [sfStart]
  split
  · exact h
  · exact h.trans (.of_eq rfl rfl rfl rfl rfl rfl rfl)

/-- Stopping the sensor does not concern the delivery half. -/
theorem frame_sfStop (handle : ℤ) (a : Answers) (s : Rotation) :
    Frame s (s.sfStop handle a) := by
  have h := frame_record (.sfStop handle a.sfStop) trivial s
  rw [sfStop]
  split
  · exact h
  · exact h.trans (.of_eq rfl rfl rfl rfl rfl rfl rfl)

/-- Disconnecting does not concern the delivery half. -/
theorem frame_sfDisconnect (handle : ℤ) (a : Answers) (s : Rotation) :
    Frame s (s.sfDisconnect handle a) := by
  have h := frame_record (.sfDisconnect handle a.sfDisconnect) trivial s
  rw [sfDisconnect]
  split
  · exact h
  · exact h.trans (.of_eq rfl rfl rfl rfl rfl rfl rfl)

/-- Following the setting does not concern the delivery half. -/
theorem frame_addRotlock (data : Ptr) (a : Answers) (s : Rotation) :
    Frame s (s.addRotlock data a) :=
  .of_eq rfl rfl rfl rfl rfl rfl rfl

/-- Ceasing to follow the setting does not concern the delivery half. -/
theorem frame_delRotlock (s : Rotation) : Frame s s.delRotlock :=
  .of_eq rfl rfl rfl rfl rfl rfl rfl

/-- The last part of a set call does not concern the delivery half. -/
theorem frame_setStart (handle : ℤ) (cb data : Ptr) (a : Answers) (s : Rotation) :
    Frame s (s.setStart handle cb data a).2 := by
  have hput : Frame s { s with rot.cbSet := true, rot.callback := cb, rot.cbdata := data } :=
    frame_withRot s _ rfl
  have hstart := hput.trans (frame_sfStart handle a _)
  rw [setStart]
  dsimp only
  split
  · have hunreg := hstart.trans (frame_sfUnregisterEvent handle a _)
    refine Frame.trans (hunreg.trans ?_) (frame_sfDisconnect handle a _)
    exact frame_withRot _ _ rfl
  · exact hstart.trans (.of_eq rfl rfl rfl rfl rfl rfl rfl)

/-- `appcore_set_rotation_cb` leaves the delivery alone. -/
theorem frame_setRotationCb (cb data : Ptr) (a : Answers) (s : Rotation) :
    Frame s (s.setRotationCb cb data a).2 := by
  have hconnect := frame_sfConnect a s
  have hregister := hconnect.trans (frame_sfRegisterEvent (s.connectHandle a) data a _)
  rw [setRotationCb]
  split
  · exact .refl s
  · split
    · exact .refl s
    · dsimp only
      split
      · exact hconnect
      · split
        · exact hregister.trans (frame_sfDisconnect _ a _)
        · exact hregister.trans (frame_setStart _ cb data a _)

/-- The last part of an unset call does not concern the delivery half. -/
theorem frame_unsetDisconnect (a : Answers) (s : Rotation) :
    Frame s (unsetDisconnect a s).2 := by
  have h := frame_sfDisconnect s.rot.handle a s
  rw [unsetDisconnect]
  dsimp only
  split
  · exact h
  · exact h.trans (frame_withRot _ _ rfl)

/-- An unset call from the stop on does not concern the delivery half. -/
theorem frame_unsetStop (a : Answers) (s : Rotation) : Frame s (unsetStop a s).2 := by
  have hforget : Frame s { s with rot.callback := none, rot.cbdata := none } :=
    frame_withRot s _ rfl
  have hstop := hforget.trans (frame_sfStop s.rot.handle a _)
  rw [unsetStop]
  dsimp only
  split
  · split
    · exact hstop
    · refine Frame.trans (hstop.trans ?_) (frame_unsetDisconnect a _)
      exact frame_withRot _ _ rfl
  · exact hforget.trans (frame_unsetDisconnect a _)

/-- `appcore_unset_rotation_cb` leaves the delivery alone. -/
theorem frame_unsetRotationCb (a : Answers) (s : Rotation) :
    Frame s (s.unsetRotationCb a).2 := by
  have hdel := frame_delRotlock s
  have hunreg := hdel.trans (frame_sfUnregisterEvent s.rot.handle a _)
  rw [unsetRotationCb]
  split
  · exact .refl s
  · dsimp only
    split
    · split
      · exact hunreg
      · refine Frame.trans (hunreg.trans ?_) (frame_unsetStop a _)
        exact frame_withRot _ _ rfl
    · exact hdel.trans (frame_unsetStop a _)

/-- The last part of a pause call does not concern the delivery half. -/
theorem frame_pauseStop (a : Answers) (s : Rotation) : Frame s (pauseStop a s).2 := by
  have hstop := frame_sfStop s.rot.handle a s
  rw [pauseStop]
  split
  · dsimp only
    split
    · exact hstop
    · exact hstop.trans (frame_withRot _ _ rfl)
  · exact .refl s

/-- `appcore_pause_rotation_cb` leaves the delivery alone. -/
theorem frame_pauseRotationCb (a : Answers) (s : Rotation) :
    Frame s (s.pauseRotationCb a).2 := by
  have hdel := frame_delRotlock s
  have hunreg := hdel.trans (frame_sfUnregisterEvent s.rot.handle a _)
  rw [pauseRotationCb]
  split
  · exact .refl s
  · dsimp only
    split
    · split
      · exact hunreg
      · refine Frame.trans (hunreg.trans ?_) (frame_pauseStop a _)
        exact frame_withRot _ _ rfl
    · exact hdel.trans (frame_pauseStop a _)

/-! ### Calls of the sensor framework

They leave `rot` to the function that makes them, and an entry each in the trace. -/

section SensorFramework

variable (handle : ℤ) (data : Ptr) (a : Answers) (s : Rotation)

/-- Connecting leaves `rot` to its caller. -/
@[simp] theorem rot_sfConnect : (s.sfConnect a).rot = s.rot := by
  rw [sfConnect]
  split <;> rfl

/-- Registering an event leaves `rot` to its caller. -/
@[simp] theorem rot_sfRegisterEvent : (s.sfRegisterEvent handle data a).rot = s.rot := by
  rw [sfRegisterEvent]
  split <;> rfl

/-- Unregistering an event leaves `rot` to its caller. -/
@[simp] theorem rot_sfUnregisterEvent : (s.sfUnregisterEvent handle a).rot = s.rot := by
  rw [sfUnregisterEvent]
  split <;> rfl

/-- Starting the sensor leaves `rot` to its caller. -/
@[simp] theorem rot_sfStart : (s.sfStart handle a).rot = s.rot := by
  rw [sfStart]
  split <;> rfl

/-- Stopping the sensor leaves `rot` to its caller. -/
@[simp] theorem rot_sfStop : (s.sfStop handle a).rot = s.rot := by
  rw [sfStop]
  split <;> rfl

/-- Disconnecting leaves `rot` to its caller. -/
@[simp] theorem rot_sfDisconnect : (s.sfDisconnect handle a).rot = s.rot := by
  rw [sfDisconnect]
  split <;> rfl

/-- A connection is recorded with the handle that is returned. -/
theorem log_sfConnect : (s.sfConnect a).log = s.log ++ [.sfConnect (s.connectHandle a)] := by
  rw [sfConnect]
  split <;> rfl

/-- A registration is recorded with its result. -/
theorem log_sfRegisterEvent : (s.sfRegisterEvent handle data a).log =
    s.log ++ [.sfRegisterEvent handle data a.sfRegisterEvent] := by
  rw [sfRegisterEvent]
  split <;> rfl

/-- Unregistering is recorded with its result. -/
theorem log_sfUnregisterEvent : (s.sfUnregisterEvent handle a).log =
    s.log ++ [.sfUnregisterEvent handle a.sfUnregisterEvent] := by
  rw [sfUnregisterEvent]
  split <;> rfl

/-- A start is recorded with its result. -/
theorem log_sfStart : (s.sfStart handle a).log = s.log ++ [.sfStart handle a.sfStart] := by
  rw [sfStart]
  split <;> rfl

/-- A stop is recorded with its result. -/
theorem log_sfStop : (s.sfStop handle a).log = s.log ++ [.sfStop handle a.sfStop] := by
  rw [sfStop]
  split <;> rfl

/-- A disconnect is recorded with its result. -/
theorem log_sfDisconnect : (s.sfDisconnect handle a).log =
    s.log ++ [.sfDisconnect handle a.sfDisconnect] := by
  rw [sfDisconnect]
  split <;> rfl

end SensorFramework

/-! ### Results of the API calls -/

/-- What the handlers read of the registration. -/
structure View where
  callback : Ptr
  cbdata : Ptr
  cbSet : Bool
  lock : Bool
  lockRegistered : Option Ptr

/-- What the handlers read of the registration. -/
def view (s : Rotation) : View :=
  ⟨s.rot.callback, s.rot.cbdata, s.rot.cbSet, s.rot.lock, s.lockRegistered⟩

/-- After `__add_rotlock` with the data of the callback. -/
def View.follow (v : View) (a : Answers) (rotateLock : Bool) : View :=
  { v with
    lock := if a.vconfGetBool = true then rotateLock else false
    lockRegistered := some (v.lockRegistered.getD v.cbdata) }

/-- After `__del_rotlock`. -/
def View.ignore (v : View) : View :=
  { v with
    lock := false
    lockRegistered := none }

/-- The entry that records the return of an API call. -/
def Api.returned : Api → ℤ → Call
  | .set cb data => .setRotationCb cb data
  | .unset => .unsetRotationCb
  | .pause => .pauseRotationCb
  | .resume => .resumeRotationCb

/-- What an API call returns and leaves for the handlers: the exits of the four
functions. -/
inductive Returns (a : Answers) (rotateLock : Bool) (v : View) : Api → ℤ → View → Prop
  | setRefused {cb data : Ptr} : Returns a rotateLock v (.set cb data) (-1) v
  | setFailed {cb data : Ptr} : v.callback = none → Returns a rotateLock v (.set cb data) (-1)
      { v with callback := none, cbdata := none, cbSet := false }
  | set {cb data : Ptr} : v.callback = none → cb ≠ none → Returns a rotateLock v (.set cb data) 0
      (View.follow { v with callback := cb, cbdata := data, cbSet := true } a rotateLock)
  | unsetNone : v.callback = none → Returns a rotateLock v .unset 0 v
  | unsetFailed : Returns a rotateLock v .unset (-1) v.ignore
  | unset {r : ℤ} : Returns a rotateLock v .unset r ⟨none, none, false, false, none⟩
  | pauseNone : v.callback = none → Returns a rotateLock v .pause 0 v
  | pauseFailed : Returns a rotateLock v .pause (-1) v.ignore
  | pause {r : ℤ} : Returns a rotateLock v .pause r { v.ignore with cbSet := false }
  | resumeNone : v.callback = none → Returns a rotateLock v .resume 0 v
  | resumeRefused : Returns a rotateLock v .resume (-1) v
  | resumeFailed : Returns a rotateLock v .resume (-1) { v with cbSet := false }
  | resume : v.callback ≠ none → Returns a rotateLock v .resume 0
      (View.follow { v with cbSet := true } a rotateLock)

/-- Writing `cb_set` writes it in the view. -/
theorem view_setCbSet (b : Bool) {s : Rotation} {v : View} (h : s.view = v) :
    ({ s with rot.cbSet := b } : Rotation).view = { v with cbSet := b } := by
  rw [← h]
  rfl

/-- Connecting does not change what the handlers read. -/
@[simp] theorem view_sfConnect (a : Answers) (s : Rotation) :
    (s.sfConnect a).view = s.view := by
  rw [sfConnect]
  split <;> rfl

/-- Registering an event does not change what the handlers read. -/
@[simp] theorem view_sfRegisterEvent (handle : ℤ) (data : Ptr) (a : Answers)
    (s : Rotation) : (s.sfRegisterEvent handle data a).view = s.view := by
  rw [sfRegisterEvent]
  split <;> rfl

/-- Unregistering an event does not change what the handlers read. -/
@[simp] theorem view_sfUnregisterEvent (handle : ℤ) (a : Answers) (s : Rotation) :
    (s.sfUnregisterEvent handle a).view = s.view := by
  rw [sfUnregisterEvent]
  split <;> rfl

/-- Starting the sensor does not change what the handlers read. -/
@[simp] theorem view_sfStart (handle : ℤ) (a : Answers) (s : Rotation) :
    (s.sfStart handle a).view = s.view := by
  rw [sfStart]
  split <;> rfl

/-- Stopping the sensor does not change what the handlers read. -/
@[simp] theorem view_sfStop (handle : ℤ) (a : Answers) (s : Rotation) :
    (s.sfStop handle a).view = s.view := by
  rw [sfStop]
  split <;> rfl

/-- Disconnecting does not change what the handlers read. -/
@[simp] theorem view_sfDisconnect (handle : ℤ) (a : Answers) (s : Rotation) :
    (s.sfDisconnect handle a).view = s.view := by
  rw [sfDisconnect]
  split <;> rfl

/-- The exits of the last part of a set call. -/
theorem returns_setStart (handle : ℤ) {cb : Ptr} (data : Ptr) (a : Answers) {s : Rotation}
    (hcb : cb ≠ none) (hnone : s.rot.callback = none) :
    Returns a s.rotateLock s.view (.set cb data) (s.setStart handle cb data a).1
      (s.setStart handle cb data a).2.view := by
  rw [setStart, sfStart]
  dsimp only
  split
  · rw [view_sfDisconnect, sfUnregisterEvent]
    split
    · exact .setFailed hnone
    · exact .setFailed hnone
  · exact .set hnone hcb

/-- The exits of `appcore_set_rotation_cb`. -/
theorem returns_setRotationCb (cb data : Ptr) (a : Answers) (s : Rotation) :
    Returns a s.rotateLock s.view (.set cb data) (s.setRotationCb cb data a).1
      (s.setRotationCb cb data a).2.view := by
  have hconnect := view_sfConnect a s
  rw [setRotationCb]
  split
  next => exact .setRefused
  next hcb =>
    split
    next => exact .setRefused
    next hnone =>
      dsimp only
      split
      next => exact hconnect ▸ .setRefused
      next =>
        have hregister := view_sfRegisterEvent (s.connectHandle a) data a (s.sfConnect a)
        split
        next =>
          rw [view_sfDisconnect, hregister, hconnect]
          exact .setRefused
        next =>
          have hcallback := congrArg View.callback (hregister.trans hconnect)
          have hlock := (frame_sfConnect a s).trans
            (frame_sfRegisterEvent (s.connectHandle a) data a _)
          have hstart := returns_setStart (s.connectHandle a) data a hcb
            (hcallback.trans (not_not.mp hnone))
          rw [hregister, hconnect, hlock.rotateLock] at hstart
          exact hstart

/-- What a successful `appcore_set_rotation_cb` leaves: a fresh connection, registered
with the data and started, for the new callback. -/
theorem setRotationCb_of_ok {s : Rotation} {cb : Ptr} (data : Ptr) {a : Answers}
    (hcb : cb ≠ none) (hnone : s.rot.callback = none) (hconnect : a.sfConnect = true)
    (hregister : 0 ≤ a.sfRegisterEvent) (hstart : 0 ≤ a.sfStart) :
    s.setRotationCb cb data a =
      (0, { s with
        rot := {
          handle := s.nextHandle
          callback := cb
          mode := s.rot.mode
          lock := if a.vconfGetBool = true then s.rotateLock else false
          cbdata := data
          cbSet := true
          sfStarted := true }
        atomRotationLock := a.atom
        connected := Function.update s.connected s.nextHandle true
        registered := Function.update s.registered s.nextHandle (some data)
        started := Function.update s.started s.nextHandle true
        nextHandle := s.nextHandle + 1
        lockRegistered := some (s.lockRegistered.getD data)
        log := s.log ++ [.sfConnect s.nextHandle] ++
          [.sfRegisterEvent s.nextHandle data a.sfRegisterEvent] ++
          [.sfStart s.nextHandle a.sfStart] }) := by
  have hhandle : s.connectHandle a = s.nextHandle := if_pos hconnect
  have hfresh : ¬ ((s.nextHandle : ℤ) < 0) := by omega
  simp [setRotationCb, setStart, hcb, hnone, hhandle, hfresh, hregister.not_gt, hstart.not_gt,
    sfConnect, sfRegisterEvent, sfStart, addRotlock, record, hconnect, Function.update_idem]

/-- The calls to the outside that a successful `appcore_set_rotation_cb` has made. -/
theorem ok_of_setRotationCb {s : Rotation} {cb data : Ptr} {a : Answers}
    (h : (s.setRotationCb cb data a).1 = 0) :
    cb ≠ none ∧ s.rot.callback = none ∧ a.sfConnect = true ∧ 0 ≤ a.sfRegisterEvent ∧
      0 ≤ a.sfStart := by
  rw [setRotationCb] at h
  split at h
  next => exact absurd h (by simp)
  next hcb =>
    split at h
    next => exact absurd h (by simp)
    next hnone =>
      dsimp only at h
      split at h
      next => exact absurd h (by simp)
      next hhandle =>
        have hconnect : a.sfConnect = true := by
          by_contra hfail
          simp [connectHandle, hfail] at hhandle
        split at h
        next => exact absurd h (by simp)
        next hregister =>
          rw [setStart] at h
          dsimp only at h
          split at h
          next => exact absurd h (by simp)
          next hstart =>
            exact ⟨hcb, not_not.mp hnone, hconnect, not_lt.mp hregister, not_lt.mp hstart⟩

/-- The exits of the last part of an unset call, which has forgotten the callback. -/
theorem returns_unsetDisconnect (rotateLock : Bool) (v : View) (a : Answers) {s : Rotation}
    (hview : s.view = ⟨none, none, false, false, none⟩) :
    Returns a rotateLock v .unset (unsetDisconnect a s).1 (unsetDisconnect a s).2.view := by
  rw [unsetDisconnect]
  dsimp only
  split
  · rw [view_sfDisconnect, hview]
    exact .unset
  · have hdisconnect := (view_sfDisconnect s.rot.handle a s).trans hview
    exact hdisconnect ▸ .unset

/-- The exits of an unset call once the event is unregistered. -/
theorem returns_unsetStop (rotateLock : Bool) (v : View) (a : Answers) {s : Rotation}
    (hset : s.rot.cbSet = false) (hlock : s.rot.lock = false)
    (hregistered : s.lockRegistered = none) :
    Returns a rotateLock v .unset (unsetStop a s).1 (unsetStop a s).2.view := by
  have hforget : ({ s with rot.callback := none, rot.cbdata := none } : Rotation).view =
      ⟨none, none, false, false, none⟩ := by
    simp [view, hset, hlock, hregistered]
  rw [unsetStop]
  dsimp only
  split
  next =>
    have hstop := (view_sfStop s.rot.handle a _).trans hforget
    split
    next => exact hstop ▸ .unset
    next => exact returns_unsetDisconnect rotateLock v a hstop
  next => exact returns_unsetDisconnect rotateLock v a hforget

/-- The exits of `appcore_unset_rotation_cb`. -/
theorem returns_unsetRotationCb (a : Answers) (s : Rotation) :
    Returns a s.rotateLock s.view .unset (s.unsetRotationCb a).1
      (s.unsetRotationCb a).2.view := by
  rw [unsetRotationCb]
  split
  next hnone => exact .unsetNone hnone
  next =>
    dsimp only
    split
    next =>
      rw [sfUnregisterEvent]
      split
      next => exact .unsetFailed
      next => exact returns_unsetStop _ _ a rfl rfl rfl
    next hset =>
      rw [Bool.not_eq_true] at hset
      exact returns_unsetStop _ _ a hset rfl rfl

/-- The last part of a pause call changes nothing that the handlers read. -/
theorem view_pauseStop (a : Answers) (s : Rotation) : (pauseStop a s).2.view = s.view := by
  rw [pauseStop]
  split
  · rw [sfStop]
    split <;> rfl
  · rfl

/-- The exits of `appcore_pause_rotation_cb`. -/
theorem returns_pauseRotationCb (a : Answers) (s : Rotation) :
    Returns a s.rotateLock s.view .pause (s.pauseRotationCb a).1
      (s.pauseRotationCb a).2.view := by
  rw [pauseRotationCb]
  split
  next hnone => exact .pauseNone hnone
  next =>
    dsimp only
    split
    next =>
      rw [sfUnregisterEvent]
      split
      next => exact .pauseFailed
      next =>
        rw [view_pauseStop]
        exact .pause
    next hset =>
      have hset : s.rot.cbSet = false := Bool.eq_false_of_not_eq_true hset
      have hpaused : s.delRotlock.view = { s.view.ignore with cbSet := false } := by
        simp [view, delRotlock, View.ignore, hset]
      rw [view_pauseStop, hpaused]
      exact .pause

/-! ### The end of a resume call -/

variable (react : Rotation → Rotation)

/-- What `appcore_resume_rotation_cb` does with the answer of `sf_check_rotation`. -/
def resumeDeliver (m : AppcoreRm) (s : Rotation) : Rotation :=
  let s := s.record (.reading .resume m)
  if s.rot.mode ≠ m ∧ s.rot.lock = false then s.deliver react m s.rot.cbdata else s

/-- What a resume call leaves: it did not reach the query, or the query failed, and the
delivery is as it was; or it delivers what the sensor answered. -/
inductive Resumes (a : Answers) (s : Rotation) : ℤ × Rotation → Prop
  | call {r : ℤ} {t : Rotation} : Frame s t →
      Returns a s.rotateLock s.view .resume r t.view → Resumes a s (r, t)
  | query {t : Rotation} {e : RotateState} : Frame s t → s.rot.callback ≠ none →
      t.view = View.follow { s.view with cbSet := true } a s.rotateLock →
      a.sfCheckRotation = some e → Resumes a s (0, t.resumeDeliver react (getMode e))

/-- A query that fails delivers nothing, but the setting is followed. -/
theorem resumeRead_of_none {s : Rotation} {a : Answers} (h : a.sfCheckRotation = none) :
    resumeRead react a s = (0, s.addRotlock s.rot.cbdata a) := by
  simp [resumeRead, getRotationState, read, h]

/-- A query that succeeds delivers its mode after the setting is followed. -/
theorem resumeRead_of_some {s : Rotation} {a : Answers} {e : RotateState}
    (h : a.sfCheckRotation = some e) :
    resumeRead react a s =
      (0, (s.addRotlock s.rot.cbdata a).resumeDeliver react (getMode e)) := by
  simp only [resumeRead, resumeDeliver, getRotationState, read, h, if_true, true_and]
  split_ifs <;> rfl

/-- The query of a resume call has two exits. -/
theorem resumes_resumeRead {s t : Rotation} (a : Answers) (hframe : Frame s t)
    (hcb : s.rot.callback ≠ none) (hview : t.view = { s.view with cbSet := true }) :
    Resumes react a s (resumeRead react a t) := by
  have hframe' := hframe.trans (frame_addRotlock t.rot.cbdata a t)
  have hfollow : (t.addRotlock t.rot.cbdata a).view =
      View.follow { s.view with cbSet := true } a s.rotateLock := by
    rw [← hview, ← hframe.rotateLock]
    rfl
  cases hq : a.sfCheckRotation with
  | none =>
      rw [resumeRead_of_none react hq]
      exact .call hframe' (hfollow ▸ .resume hcb)
  | some e =>
      rw [resumeRead_of_some react hq]
      exact .query hframe' hcb hfollow hq

/-- The last part of a resume call has the exits of the query and two more. -/
theorem resumes_resumeStart {s t : Rotation} (a : Answers) (hframe : Frame s t)
    (hcb : s.rot.callback ≠ none) (hview : t.view = { s.view with cbSet := true }) :
    Resumes react a s (resumeStart react a t) := by
  have hstart := hframe.trans (frame_sfStart t.rot.handle a t)
  have hview' := (view_sfStart t.rot.handle a t).trans hview
  rw [resumeStart]
  split
  next =>
    dsimp only
    split
    next =>
      refine .call ((hstart.trans (frame_sfUnregisterEvent _ a _)).trans
        (frame_withRot _ _ rfl)) ?_
      rw [view_setCbSet false ((view_sfUnregisterEvent _ a _).trans hview')]
      exact .resumeFailed
    next => exact resumes_resumeRead react a (hstart.trans (frame_withRot _ _ rfl)) hcb hview'
  next => exact resumes_resumeRead react a hframe hcb hview

/-- The exits of `appcore_resume_rotation_cb`. -/
theorem resumes_resumeRotationCb (a : Answers) (s : Rotation) :
    Resumes react a s (s.resumeRotationCb react a) := by
  rw [resumeRotationCb]
  split
  next hnone => exact .call (.refl s) (.resumeNone hnone)
  next hcb =>
    split
    next hset =>
      have hregister := frame_sfRegisterEvent s.rot.handle s.rot.cbdata a s
      have hview := view_sfRegisterEvent s.rot.handle s.rot.cbdata a s
      dsimp only
      split
      next => exact .call hregister (hview ▸ .resumeRefused)
      next =>
        have hset' := congrArg (fun v : View => { v with cbSet := true }) hview
        exact resumes_resumeStart react a (hregister.trans (frame_withRot _ _ rfl)) hcb hset'
    next hset =>
      rw [Bool.not_eq_false] at hset
      refine resumes_resumeStart react a (.refl s) hcb ?_
      simp [view, hset]

/-! ### API calls -/

variable {react}

/-- A delivery through a callback that is set. -/
theorem deliver_eq {s : Rotation} {f : Addr} (m : AppcoreRm) (data : Ptr)
    (hcb : s.rot.callback = some f) :
    s.deliver react m data =
      { react (s.record (.callback f m data)) with rot.mode := m } := by
  rw [deliver, invoke, hcb]

/-- Where an API call leaves the module. -/
inductive ApiOutcome (react : Rotation → Rotation) (a : Answers) (s : Rotation) :
    Api → Rotation → Prop
  /-- A call that delivers nothing. -/
  | call {c : Api} {r : ℤ} {t : Rotation} : Frame s t →
      Returns a s.rotateLock s.view c r t.view → ApiOutcome react a s c (t.record (c.returned r))
  /-- A resume call that the query tells nothing new, or that meets a lock. -/
  | resumeTold {t : Rotation} {e : RotateState} : Frame s t →
      t.view = View.follow { s.view with cbSet := true } a s.rotateLock →
      ApiOutcome react a s .resume
        ((t.record (.reading .resume (getMode e))).record (.resumeRotationCb 0))
  | resumeDeliver {t : Rotation} {e : RotateState} {f : Addr} : Frame s t →
      t.view = View.follow { s.view with cbSet := true } a s.rotateLock →
      s.rot.callback = some f → t.view.lock = false →
      ApiOutcome react a s .resume
        (record (.resumeRotationCb 0)
          { react ((t.record (.reading .resume (getMode e))).record
              (.callback f (getMode e) s.rot.cbdata)) with rot.mode := getMode e })

/-- A resume call has one of the outcomes. -/
theorem apiOutcome_resume (a : Answers) (s : Rotation) :
    ApiOutcome react a s .resume (s.runApi react .resume a) := by
  have h := resumes_resumeRotationCb react a s
  rw [runApi]
  generalize s.resumeRotationCb react a = rt at h
  cases h with
  | call hframe hreturns => exact .call hframe hreturns
  | @query t e hframe hcb hview _ =>
      obtain ⟨f, hf⟩ := Option.ne_none_iff_exists'.mp hcb
      have hft : (t.record (.reading .resume (getMode e))).rot.callback = some f :=
        (congrArg View.callback hview).trans hf
      have hdata : (t.record (.reading .resume (getMode e))).rot.cbdata = s.rot.cbdata :=
        congrArg View.cbdata hview
      dsimp only
      rw [resumeDeliver]
      split
      next hdue =>
        rw [hdata, deliver_eq _ _ hft]
        exact .resumeDeliver hframe hview hf hdue.2
      next => exact .resumeTold hframe hview

/-- **The exits of an API call.** -/
theorem apiOutcome_runApi (c : Api) (a : Answers) (s : Rotation) :
    ApiOutcome react a s c (s.runApi react c a) := by
  cases c with
  | set cb data =>
      exact .call (frame_setRotationCb cb data a s) (returns_setRotationCb cb data a s)
  | unset => exact .call (frame_unsetRotationCb a s) (returns_unsetRotationCb a s)
  | pause => exact .call (frame_pauseRotationCb a s) (returns_pauseRotationCb a s)
  | resume => exact apiOutcome_resume a s

/-! ### Reactions of the callback -/

/-- The answers to every call of a reaction satisfy `G`. -/
def Reaction.All (G : Answers → Prop) : Reaction → Prop
  | .done => True
  | .call _ a inner rest => G a ∧ inner.All G ∧ rest.All G

/-- Every call of a reaction satisfies `G` with its answers. -/
def Reaction.Each (G : Api → Answers → Prop) : Reaction → Prop
  | .done => True
  | .call c a inner rest => G c a ∧ inner.Each G ∧ rest.Each G

/-- What every call satisfies, with a weaker condition. -/
theorem Reaction.Each.mono {G H : Api → Answers → Prop} (hGH : ∀ c a, G c a → H c a)
    {ρ : Reaction} (h : ρ.Each G) : ρ.Each H := by
  induction ρ with
  | done => trivial
  | call c a inner rest ihinner ihrest => exact ⟨hGH c a h.1, ihinner h.2.1, ihrest h.2.2⟩

/-- Answers that satisfy a condition satisfy it in every call. -/
theorem Reaction.All.each {G : Answers → Prop} {ρ : Reaction} (h : ρ.All G) :
    ρ.Each fun _ => G := by
  induction ρ with
  | done => trivial
  | call c a inner rest ihinner ihrest => exact ⟨h.1, ihinner h.2.1, ihrest h.2.2⟩

/-- **Reaction rule.** What an API call preserves if the callback that it may invoke
preserves it, every reaction of the callback preserves. -/
theorem Reaction.Each.run_invariant {I : Rotation → Prop} {G : Api → Answers → Prop}
    (hstep : ∀ react c a s, (∀ t, I t → I (react t)) → G c a → I s → I (s.runApi react c a))
    {ρ : Reaction} (hG : ρ.Each G) {s : Rotation} (h : I s) : I (ρ.run s) := by
  induction ρ generalizing s with
  | done => exact h
  | call c a inner rest ihinner ihrest =>
      obtain ⟨ha, hinner, hrest⟩ := hG
      exact ihrest hrest (hstep inner.run c a s (fun t ht => ihinner hinner ht) ha h)

/-- The rule for a guard on the answers alone. -/
theorem Reaction.run_invariant {I : Rotation → Prop} {G : Answers → Prop}
    (hstep : ∀ react c a s, (∀ t, I t → I (react t)) → G a → I s → I (s.runApi react c a))
    {ρ : Reaction} (hG : ρ.All G) {s : Rotation} (h : I s) : I (ρ.run s) :=
  hG.each.run_invariant hstep h

/-- Nothing is asked of the answers. -/
theorem Reaction.all_true (ρ : Reaction) : ρ.All fun _ => True := by
  induction ρ with
  | done => trivial
  | call c a inner rest ihinner ihrest => exact ⟨trivial, ihinner, ihrest⟩

/-- A property of states that every exit of an API call preserves, under answers that
satisfy `G`, if the reaction of a callback preserves it. The callback is told a mode right
after its reading. -/
structure ApiClosed (G : Answers → Prop) (I : Rotation → Prop) : Prop where
  call : ∀ {s t a c r}, G a → I s → Frame s t → Returns a s.rotateLock s.view c r t.view →
    I (t.record (c.returned r))
  resumed : ∀ {s t a}, G a → I s → Frame s t →
    t.view = View.follow { s.view with cbSet := true } a s.rotateLock → I t
  query : ∀ {s} m, I s → I (s.record (.reading .resume m))
  told : ∀ {s l src f m}, I s → s.rot.callback = some f → s.log = l ++ [.reading src m] →
    I (s.record (.callback f m s.rot.cbdata))
  mode : ∀ {s} m, I s → I { s with rot.mode := m }
  returned : ∀ {s} {a : Answers}, G a → I s → I (s.record (.resumeRotationCb 0))

/-- What every exit keeps, every outcome keeps. -/
theorem ApiClosed.apiOutcome {G : Answers → Prop} {I : Rotation → Prop} (hI : ApiClosed G I)
    (hreact : ∀ t, I t → I (react t)) {a : Answers} (ha : G a) {c : Api} {s t : Rotation}
    (h : I s) (ho : ApiOutcome react a s c t) : I t := by
  cases ho with
  | call hframe hreturns => exact hI.call ha h hframe hreturns
  | resumeTold hframe hview => exact hI.returned ha (hI.query _ (hI.resumed ha h hframe hview))
  | @resumeDeliver t e f hframe hview hcb =>
      have hread := hI.query (getMode e) (hI.resumed ha h hframe hview)
      have htold := hI.told hread ((congrArg View.callback hview).trans hcb) rfl
      have hdata : (t.record (.reading .resume (getMode e))).rot.cbdata = s.rot.cbdata :=
        congrArg View.cbdata hview
      rw [hdata] at htold
      exact hI.returned ha (hI.mode (getMode e) (hreact _ htold))

/-- What every exit keeps, what the callback does keeps. -/
theorem ApiClosed.reaction {G : Answers → Prop} {I : Rotation → Prop} (hI : ApiClosed G I)
    {ρ : Reaction} (hG : ρ.All G) {s : Rotation} (h : I s) : I (ρ.run s) :=
  Reaction.run_invariant
    (fun _ c a t hreact ha ht => hI.apiOutcome hreact ha ht (apiOutcome_runApi c a t)) hG h

/-- What every exit keeps, an API call keeps. -/
theorem ApiClosed.runApi {G : Answers → Prop} {I : Rotation → Prop} (hI : ApiClosed G I)
    {ρ : Reaction} (hG : ρ.All G) (c : Api) {a : Answers} (ha : G a) {s : Rotation}
    (h : I s) : I (s.runApi ρ.run c a) :=
  hI.apiOutcome (fun _ ht => hI.reaction hG ht) ha h (apiOutcome_runApi c a s)

/-- From `s` to `t` no handler ran: what a deferral left is there, and the trace has
grown. -/
structure Calls (s t : Rotation) : Prop where
  log : s.log <+: t.log
  changedM : t.changedM = s.changedM
  changedData : t.changedData = s.changedData
  changedHandle : t.changedHandle = s.changedHandle
  handlers : t.handlers = s.handlers
  rotateLock : t.rotateLock = s.rotateLock

/-- A module that stands still. -/
theorem Calls.refl (s : Rotation) : Calls s s :=
  ⟨List.prefix_refl _, rfl, rfl, rfl, rfl, rfl⟩

/-- A part that does not concern the delivery half may follow. -/
theorem Calls.frame {s t u : Rotation} (h : Calls s t) (k : Frame t u) : Calls s u := by
  obtain ⟨cs, -, hlog⟩ := k.log
  exact ⟨h.log.trans ⟨cs, hlog.symm⟩, k.changedM.trans h.changedM,
    k.changedData.trans h.changedData, k.changedHandle.trans h.changedHandle,
    k.handlers.trans h.handlers, k.rotateLock.trans h.rotateLock⟩

/-- Another entry may follow. -/
theorem Calls.record {s t : Rotation} (h : Calls s t) (c : Call) : Calls s (t.record c) :=
  { h with log := h.log.trans ⟨[c], rfl⟩ }

/-- The exits of the API calls leave a deferral alone. -/
theorem apiClosed_calls (s : Rotation) : ApiClosed (fun _ => True) (Calls s) where
  call := fun _ h hframe _ => (h.frame hframe).record _
  resumed := fun _ h hframe _ => h.frame hframe
  query := fun _ h => h.record _
  told := fun h _ _ => h.record _
  mode := fun _ h => { h with }
  returned := fun _ h => h.record _

/-- A reaction leaves what a deferral left. -/
theorem calls_reaction (ρ : Reaction) (s : Rotation) : Calls s (ρ.run s) :=
  (apiClosed_calls s).reaction ρ.all_true (.refl s)

/-- An API call runs no handler. -/
theorem calls_runApi (ρ : Reaction) (c : Api) (a : Answers) (s : Rotation) :
    Calls s (s.runApi ρ.run c a) :=
  (apiClosed_calls s).runApi ρ.all_true c trivial (.refl s)

/-! ### Readings -/

variable (react)

/-- Both handlers that take a reading end alike: unless the application has the mode or
does not listen, they deliver it, at once or later; and they remember it. -/
def settle (m : AppcoreRm) (direct : Prop) [Decidable direct] (data : Ptr) (a : Answers)
    (s : Rotation) : Rotation :=
  let s : Rotation :=
    if s.rot.cbSet = true ∧ s.rot.mode ≠ m then
      if direct then s.deliver react m data else s.defer data a
    else s
  { s with changedM := m }

/-- `__changed_cb` does nothing on another event, or while the rotation is locked. -/
theorem changedCb_ignored {s : Rotation} {rotationCheck : Bool} {e : RotateState}
    {data : Ptr} {a : Answers} (h : s.rot.lock = true ∨ rotationCheck = false) :
    s.changedCb react rotationCheck e data a = s := by
  rw [changedCb]
  split
  next => rfl
  next hlock => rw [if_pos (h.resolve_left hlock)]

/-- `__changed_cb` on a rotation event while the rotation is not locked. -/
theorem changedCb_unlocked {s : Rotation} (e : RotateState) (data : Ptr) (a : Answers)
    (hlock : s.rot.lock = false) (hcb : s.rot.callback ≠ none) :
    s.changedCb react true e data a =
      s.settle react (getMode e) (a.propVal = 0 ∨ a.propRet < 1) data a := by
  rw [changedCb, if_neg (by simp [hlock]), if_neg (by simp)]
  dsimp only
  rw [if_pos hcb]
  rfl

/-- `__lock_cb` on a lock notification, and on an unlock notification that makes no
successful query. -/
theorem lockCb_quiet {s : Rotation} (node : Bool) (data : Ptr) (a : Answers)
    (h : node = true ∨ s.rot.callback = none ∨ s.rot.cbSet = false ∨
      a.sfCheckRotation = none) :
    s.lockCb react node data a = { s with rot.lock := node } := by
  rw [lockCb]
  dsimp only
  split
  next => rfl
  next hnode =>
    split
    next hcb =>
      split
      next hset =>
        have hq : a.sfCheckRotation = none := by
          rcases h with h | h | h | h
          · exact absurd h hnode
          · exact absurd h hcb
          · exact absurd (h.symm.trans hset) (by simp)
          · exact h
        simp [getRotationState, read, hq]
      next => rfl
    next => rfl

/-- `__lock_cb` on an unlock notification, with a successful query. -/
theorem lockCb_query {s : Rotation} {e : RotateState} (data : Ptr) (a : Answers)
    (hcb : s.rot.callback ≠ none) (hset : s.rot.cbSet = true)
    (hq : a.sfCheckRotation = some e) :
    s.lockCb react false data a =
      ({ s with rot.lock := false }.record (.reading .unlock (getMode e))).settle react
        (getMode e) (a.val = 0) data a := by
  rw [lockCb]
  dsimp only
  rw [if_neg (by simp), if_pos hcb, if_pos hset, getRotationState, hq]
  simp [read, settle, record, hset]

end Rotation

end AppCore
