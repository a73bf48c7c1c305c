import AppCore.Types
import Mathlib.Logic.Function.Basic

/-!
# The Rotation Module

The functions of `appcore-rotation.c` over one state record: the statics of the file,
and beside them what the module holds outside, that is the connections, registrations
and started sensors of the sensor framework, the rotation-lock setting and the callback
that follows it in vconf, and the live X property handlers of Ecore. What the outside
answers to the calls of one step is an argument, `Answers`, so that every failure and
every order of events is a run of `step`.

The trace `log` records what can be observed: the API calls with their results, the
sensor calls with theirs, the readings taken from the sensor and the invocations of the
registered callback.

## Conventions

* A sensor call fails when its answer is negative, as the code tests; a failed call
  changes nothing outside. Connections get fresh handles.
* vconf holds `__lock_cb` at most once for the lock key, and its notification calls
  succeed; a read of the setting may fail.
* Events reach only handlers that are registered: a change of the setting the registered
  `__lock_cb`, a property event the live `__property` handlers.
* The sensor framework is assumed to deliver rotation events on started connections only: an
  event reaches `__changed_cb` on a connection where it is registered and the sensor has been
  started and not stopped since (`sensorEvent`). The code does not check this itself.
* The application's callback may call the module before it returns. What it calls is part
  of the input, a `Reaction`; events are handled one after another.
-/

set_option autoImplicit false

namespace AppCore

/-- `enum accelerometer_rotate_state`: the four values the module knows, or another. -/
inductive RotateState
  | event0
  | event90
  | event180
  | event270
  | other (v : ℤ)
  deriving DecidableEq, Repr

/-- `struct rot_s`. -/
structure RotS where
  handle : ℤ
  callback : Ptr
  mode : AppcoreRm
  lock : Bool
  cbdata : Ptr
  cbSet : Bool
  sfStarted : Bool
  deriving DecidableEq, Repr

/-- The table `re_to_rm`. -/
def reToRm : List (RotateState × AppcoreRm) :=
  [(.event0, .portraitNormal), (.event90, .landscapeNormal),
   (.event180, .portraitReverse), (.event270, .landscapeReverse)]

/-- `__get_mode`: the first row of the table for the value, `APPCORE_RM_UNKNOWN` without
one. -/
def getMode (eventData : RotateState) : AppcoreRm :=
  match reToRm.find? fun row => decide (row.1 = eventData) with
  | some row => row.2
  | none => .unknown

namespace Rotation

/-- How a reading reached the module: as a rotation event, with the lock flag it met, or
as a successful query on an unlock notification or in a resume call. -/
inductive Source
  | event (lock : Bool)
  | unlock
  | resume
  deriving DecidableEq, Repr

/-- An entry of the trace. -/
inductive Call
  | sfConnect (handle : ℤ)
  | sfRegisterEvent (handle : ℤ) (data : Ptr) (r : ℤ)
  | sfUnregisterEvent (handle : ℤ) (r : ℤ)
  | sfStart (handle : ℤ) (r : ℤ)
  | sfStop (handle : ℤ) (r : ℤ)
  | sfDisconnect (handle : ℤ) (r : ℤ)
  | reading (src : Source) (m : AppcoreRm)
  | callback (fn : Addr) (m : AppcoreRm) (data : Ptr)
  | fault
  | setRotationCb (cb data : Ptr) (r : ℤ)
  | unsetRotationCb (r : ℤ)
  | pauseRotationCb (r : ℤ)
  | resumeRotationCb (r : ℤ)
  deriving DecidableEq, Repr

/-- The answers of the outside to the calls of one step. `val` is what happens to be on
the stack where `__lock_cb` reads a variable it never assigns. -/
structure Answers where
  sfConnect : Bool
  sfRegisterEvent : ℤ
  sfUnregisterEvent : ℤ
  sfStart : ℤ
  sfStop : ℤ
  sfDisconnect : ℤ
  sfCheckRotation : Option RotateState
  vconfGetBool : Bool
  propRet : ℤ
  propVal : ℤ
  handlerAdd : Bool
  val : ℤ
  atom : ℕ
  deriving DecidableEq, Repr

end Rotation

/-- The statics of `appcore-rotation.c` and the module's side of the outside world. -/
structure Rotation where
  rot : RotS
  changedM : AppcoreRm
  changedData : Ptr
  changedHandle : Option ℕ
  atomRotationLock : ℕ
  /-- Sensor framework: open connections, the data `__changed_cb` is registered with on
  each, and the started ones. -/
  connected : ℤ → Bool
  registered : ℤ → Option Ptr
  started : ℤ → Bool
  nextHandle : ℕ
  /-- vconf: the value of `VCONFKEY_SETAPPL_ROTATE_LOCK_BOOL`, and the data with which
  `__lock_cb` follows it, if it does. -/
  rotateLock : Bool
  lockRegistered : Option Ptr
  /-- Ecore: the live `__property` handlers. -/
  handlers : List ℕ
  nextHandler : ℕ
  log : List Rotation.Call

namespace Rotation

/-- The statics of a fresh process are zero and nothing is held outside; the setting has
whatever value the user gave it. -/
def init (rotateLock : Bool) : Rotation where
  rot := ⟨0, none, .unknown, false, none, false, false⟩
  changedM := .unknown
  changedData := none
  changedHandle := none
  atomRotationLock := 0
  connected := fun _ => false
  registered := fun _ => none
  started := fun _ => false
  nextHandle := 0
  rotateLock := rotateLock
  lockRegistered := none
  handlers := []
  nextHandler := 1
  log := []

/-- Append an entry to the trace. -/
def record (c : Call) (s : Rotation) : Rotation :=
  { s with log := s.log ++ [c] }

/-! ### Calls to the outside -/

/-- The handle that `sf_connect` returns. -/
def connectHandle (a : Answers) (s : Rotation) : ℤ :=
  if a.sfConnect = true then s.nextHandle else -1

/-- `sf_connect`: a fresh connection, with nothing registered and not started. -/
def sfConnect (a : Answers) (s : Rotation) : Rotation :=
  let s := s.record (.sfConnect (s.connectHandle a))
  if a.sfConnect = true then
    { s with
      connected := Function.update s.connected s.nextHandle true
      registered := Function.update s.registered s.nextHandle none
      started := Function.update s.started s.nextHandle false
      nextHandle := s.nextHandle + 1 }
  else s

/-- `sf_register_event` of `__changed_cb`. -/
def sfRegisterEvent (handle : ℤ) (data : Ptr) (a : Answers) (s : Rotation) : Rotation :=
  let s := s.record (.sfRegisterEvent handle data a.sfRegisterEvent)
  if a.sfRegisterEvent < 0 then s
  else { s with registered := Function.update s.registered handle (some data) }

/-- `sf_unregister_event`. -/
def sfUnregisterEvent (handle : ℤ) (a : Answers) (s : Rotation) : Rotation :=
  let s := s.record (.sfUnregisterEvent handle a.sfUnregisterEvent)
  if a.sfUnregisterEvent < 0 then s
  else { s with registered := Function.update s.registered handle none }

/-- `sf_start`. -/
def sfStart (handle : ℤ) (a : Answers) (s : Rotation) : Rotation :=
  let s := s.record (.sfStart handle a.sfStart)
  if a.sfStart < 0 then s
  else { s with started := Function.update s.started handle true }

/-- `sf_stop`. -/
def sfStop (handle : ℤ) (a : Answers) (s : Rotation) : Rotation :=
  let s := s.record (.sfStop handle a.sfStop)
  if a.sfStop < 0 then s
  else { s with started := Function.update s.started handle false }

/-- `sf_disconnect`: with the connection go its registration and its started sensor. -/
def sfDisconnect (handle : ℤ) (a : Answers) (s : Rotation) : Rotation :=
  let s := s.record (.sfDisconnect handle a.sfDisconnect)
  if a.sfDisconnect < 0 then s
  else
    { s with
      connected := Function.update s.connected handle false
      registered := Function.update s.registered handle none
      started := Function.update s.started handle false }

/-- `ecore_event_handler_del`. -/
def handlerDel (h : Option ℕ) (s : Rotation) : Rotation :=
  match h with
  | some h => { s with handlers := s.handlers.erase h }
  | none => s

/-- `changed_handle = ecore_event_handler_add(.., __property, NULL)`. -/
def handlerAdd (a : Answers) (s : Rotation) : Rotation :=
  if a.handlerAdd = true then
    { s with
      handlers := s.handlers ++ [s.nextHandler]
      changedHandle := some s.nextHandler
      nextHandler := s.nextHandler + 1 }
  else { s with changedHandle := none }

/-- `rot.callback(m, data)`; `react` is what the callback does to the module before it
returns. -/
def invoke (react : Rotation → Rotation) (m : AppcoreRm) (data : Ptr) (s : Rotation) :
    Rotation :=
  match s.rot.callback with
  | some fn => react (s.record (.callback fn m data))
  | none => s.record .fault

/-! ### The handlers -/

/-- Delivery at once: invoke the callback and remember the mode. -/
def deliver (react : Rotation → Rotation) (m : AppcoreRm) (data : Ptr) (s : Rotation) :
    Rotation :=
  let s := s.invoke react m data
  { s with rot.mode := m }

/-- Deferral, as `__changed_cb` and `__lock_cb` both write it: remember the data, and
replace the X property handler by a new one. -/
def defer (data : Ptr) (a : Answers) (s : Rotation) : Rotation :=
  let s : Rotation := { s with changedData := data }
  let s : Rotation :=
    match s.changedHandle with
    | some h => { s.handlerDel (some h) with changedHandle := none }
    | none => s
  s.handlerAdd a

/-- `__property`, for a property event with the given atom. It reads `changed_m` once more
after the callback has returned. -/
def property (react : Rotation → Rotation) (atom : ℕ) (s : Rotation) : Rotation :=
  if atom = s.atomRotationLock then
    let s : Rotation :=
      if s.rot.cbSet = true ∧ s.rot.mode ≠ s.changedM then
        let s := s.invoke react s.changedM s.changedData
        { s with rot.mode := s.changedM }
      else s
    { s.handlerDel s.changedHandle with changedHandle := none }
  else s

/-- `__changed_cb`; `rotationCheck` tells whether the event type is
`ACCELEROMETER_EVENT_ROTATION_CHECK`. The lock property of the root window holds the
delivery back when it can be read and is not zero. -/
def changedCb (react : Rotation → Rotation) (rotationCheck : Bool)
    (eventData : RotateState) (data : Ptr) (a : Answers) (s : Rotation) : Rotation :=
  if s.rot.lock = true then s
  else if rotationCheck = false then s
  else
    let m := getMode eventData
    if s.rot.callback ≠ none then
      let s : Rotation :=
        if s.rot.cbSet = true ∧ s.rot.mode ≠ m then
          if a.propVal = 0 ∨ a.propRet < 1 then s.deliver react m data
          else s.defer data a
        else s
      { s with changedM := m }
    else s

/-- `appcore_get_rotation_state`: the return value and `*curr`. -/
def getRotationState (a : Answers) : ℤ × AppcoreRm :=
  match a.sfCheckRotation with
  | none => (-1, .unknown)
  | some event => (0, getMode event)

/-- Record the reading that a successful query took. -/
def read (src : Source) (q : ℤ × AppcoreRm) (s : Rotation) : Rotation :=
  if q.1 = 0 then s.record (.reading src q.2) else s

/-- `__lock_cb`, for a notification that carries `node`. After a successful query it
decides on `val`, which it has not assigned. -/
def lockCb (react : Rotation → Rotation) (node : Bool) (data : Ptr) (a : Answers)
    (s : Rotation) : Rotation :=
  let s : Rotation := { s with rot.lock := node }
  if s.rot.lock = true then s
  else if s.rot.callback ≠ none then
    if s.rot.cbSet = true then
      let q := getRotationState a
      let s := s.read .unlock q
      let s : Rotation :=
        if q.1 = 0 ∧ s.rot.mode ≠ q.2 then
          if a.val = 0 then s.deliver react q.2 data else s.defer data a
        else s
      if q.1 = 0 then { s with changedM := q.2 } else s
    else s
  else s

/-- `__add_rotlock`: read the setting and follow it; a failed read counts as unlocked. -/
def addRotlock (data : Ptr) (a : Answers) (s : Rotation) : Rotation :=
  let lock := if a.vconfGetBool = true then s.rotateLock else false
  { s with
    rot.lock := lock
    lockRegistered := some (s.lockRegistered.getD data) }

/-- `__del_rotlock`. -/
def delRotlock (s : Rotation) : Rotation :=
  { s with
    lockRegistered := none
    rot.lock := false }

/-! ### The API -/

/-- The end of `appcore_set_rotation_cb`: store the callback, start the sensor and follow
the lock setting. -/
def setStart (handle : ℤ) (cb data : Ptr) (a : Answers) (s : Rotation) : ℤ × Rotation :=
  let s : Rotation := { s with rot.cbSet := true, rot.callback := cb, rot.cbdata := data }
  let s := s.sfStart handle a
  if a.sfStart < 0 then
    let s := s.sfUnregisterEvent handle a
    let s : Rotation :=
      { s with
        rot.callback := none
        rot.cbdata := none
        rot.cbSet := false
        rot.sfStarted := false }
    (-1, s.sfDisconnect handle a)
  else
    let s : Rotation := { s with rot.sfStarted := true, rot.handle := handle }
    let s := s.addRotlock data a
    (0, { s with atomRotationLock := a.atom })

/-- `appcore_set_rotation_cb`. -/
def setRotationCb (cb data : Ptr) (a : Answers) (s : Rotation) : ℤ × Rotation :=
  if cb = none then (-1, s)
  else if s.rot.callback ≠ none then (-1, s)
  else
    let handle := s.connectHandle a
    let s := s.sfConnect a
    if handle < 0 then (-1, s)
    else
      let s := s.sfRegisterEvent handle data a
      if a.sfRegisterEvent < 0 then (-1, s.sfDisconnect handle a)
      else s.setStart handle cb data a

/-- The end of `appcore_unset_rotation_cb`: disconnect. -/
def unsetDisconnect (a : Answers) (s : Rotation) : ℤ × Rotation :=
  let s := s.sfDisconnect s.rot.handle a
  if a.sfDisconnect < 0 then (-1, s) else (0, { s with rot.handle := -1 })

/-- The middle of `appcore_unset_rotation_cb`: forget the callback, then stop the
sensor. -/
def unsetStop (a : Answers) (s : Rotation) : ℤ × Rotation :=
  let s : Rotation := { s with rot.callback := none, rot.cbdata := none }
  if s.rot.sfStarted = true then
    let s := s.sfStop s.rot.handle a
    if a.sfStop < 0 then (-1, s) else unsetDisconnect a { s with rot.sfStarted := false }
  else unsetDisconnect a s

/-- `appcore_unset_rotation_cb`. -/
def unsetRotationCb (a : Answers) (s : Rotation) : ℤ × Rotation :=
  if s.rot.callback = none then (0, s)
  else
    let s := s.delRotlock
    if s.rot.cbSet = true then
      let s := s.sfUnregisterEvent s.rot.handle a
      if a.sfUnregisterEvent < 0 then (-1, s) else unsetStop a { s with rot.cbSet := false }
    else unsetStop a s

/-- The end of `appcore_pause_rotation_cb`: stop the sensor. -/
def pauseStop (a : Answers) (s : Rotation) : ℤ × Rotation :=
  if s.rot.sfStarted = true then
    let s := s.sfStop s.rot.handle a
    if a.sfStop < 0 then (-1, s) else (0, { s with rot.sfStarted := false })
  else (0, s)

/-- `appcore_pause_rotation_cb`. -/
def pauseRotationCb (a : Answers) (s : Rotation) : ℤ × Rotation :=
  if s.rot.callback = none then (0, s)
  else
    let s := s.delRotlock
    if s.rot.cbSet = true then
      let s := s.sfUnregisterEvent s.rot.handle a
      if a.sfUnregisterEvent < 0 then (-1, s) else pauseStop a { s with rot.cbSet := false }
    else pauseStop a s

/-- The end of `appcore_resume_rotation_cb`: follow the setting again, and deliver the
current mode unless the rotation is locked. -/
def resumeRead (react : Rotation → Rotation) (a : Answers) (s : Rotation) : ℤ × Rotation :=
  let s := s.addRotlock s.rot.cbdata a
  let q := getRotationState a
  let s := s.read .resume q
  if q.1 = 0 ∧ s.rot.mode ≠ q.2 ∧ s.rot.lock = false then
    (0, s.deliver react q.2 s.rot.cbdata)
  else (0, s)

/-- The middle of `appcore_resume_rotation_cb`: start the sensor. -/
def resumeStart (react : Rotation → Rotation) (a : Answers) (s : Rotation) :
    ℤ × Rotation :=
  if s.rot.sfStarted = false then
    let s := s.sfStart s.rot.handle a
    if a.sfStart < 0 then
      let s := s.sfUnregisterEvent s.rot.handle a
      (-1, { s with rot.cbSet := false })
    else resumeRead react a { s with rot.sfStarted := true }
  else resumeRead react a s

/-- `appcore_resume_rotation_cb`. -/
def resumeRotationCb (react : Rotation → Rotation) (a : Answers) (s : Rotation) :
    ℤ × Rotation :=
  if s.rot.callback = none then (0, s)
  else if s.rot.cbSet = false then
    let s := s.sfRegisterEvent s.rot.handle s.rot.cbdata a
    if a.sfRegisterEvent < 0 then (-1, s)
    else resumeStart react a { s with rot.cbSet := true }
  else resumeStart react a s

/-! ### Steps -/

/-- The exported functions that change the module. -/
inductive Api
  | set (cb data : Ptr)
  | unset
  | pause
  | resume
  deriving DecidableEq, Repr

/-- An API call, recorded with its result once it returns. -/
def runApi (react : Rotation → Rotation) (c : Api) (a : Answers) (s : Rotation) :
    Rotation :=
  match c with
  | .set cb data =>
      let r := s.setRotationCb cb data a
      r.2.record (.setRotationCb cb data r.1)
  | .unset =>
      let r := s.unsetRotationCb a
      r.2.record (.unsetRotationCb r.1)
  | .pause =>
      let r := s.pauseRotationCb a
      r.2.record (.pauseRotationCb r.1)
  | .resume =>
      let r := s.resumeRotationCb react a
      r.2.record (.resumeRotationCb r.1)

/-- The API calls that the callback makes before it returns, in order. Each comes with the
answers of the outside, and with the reaction of the callback in case that this call
invokes it once more. -/
inductive Reaction
  | done
  | call (c : Api) (a : Answers) (inner rest : Reaction)
  deriving DecidableEq, Repr

/-- What a reaction does to the module. -/
def Reaction.run : Reaction → Rotation → Rotation
  | .done => id
  | .call c a inner rest => fun s => rest.run (s.runApi inner.run c a)

/-- What can happen to the module: an API call, an event of the sensor on a connection,
a change of the lock setting, an X property event. -/
inductive Event
  | api (c : Api)
  | sensor (handle : ℤ) (rotationCheck : Bool) (eventData : RotateState)
  | lockChange (lock : Bool)
  | property (atom : ℕ)
  deriving DecidableEq, Repr

/-- What drives one step: an event, the answers of the outside, and what the callback does
if it is invoked. -/
structure Input where
  event : Event
  answers : Answers
  reaction : Reaction
  deriving DecidableEq, Repr

/-- A sensor event reaches `__changed_cb` on a connection where it is registered and the
sensor is started, as the conventions say; a rotation event that does is a reading. -/
def sensorEvent (react : Rotation → Rotation) (handle : ℤ) (rotationCheck : Bool)
    (eventData : RotateState) (a : Answers) (s : Rotation) : Rotation :=
  match s.registered handle with
  | some data =>
      if s.started handle = true then
        let s : Rotation :=
          if rotationCheck = true then
            s.record (.reading (.event s.rot.lock) (getMode eventData))
          else s
        s.changedCb react rotationCheck eventData data a
      else s
  | none => s

/-- A change of the lock setting is notified to `__lock_cb` if it follows the key. -/
def lockChange (react : Rotation → Rotation) (lock : Bool) (a : Answers) (s : Rotation) :
    Rotation :=
  let s : Rotation := { s with rotateLock := lock }
  match s.lockRegistered with
  | some data => s.lockCb react lock data a
  | none => s

/-- A property event is handed to every handler that is live when its turn comes. -/
def propertyEvent (react : Rotation → Rotation) (atom : ℕ) (s : Rotation) : Rotation :=
  s.handlers.foldl (fun t h => if h ∈ t.handlers then t.property react atom else t) s

/-- **One step** of the module. -/
def step (s : Rotation) (x : Input) : Rotation :=
  match x.event with
  | .api c => s.runApi x.reaction.run c x.answers
  | .sensor handle rotationCheck eventData =>
      s.sensorEvent x.reaction.run handle rotationCheck eventData x.answers
  | .lockChange lock => s.lockChange x.reaction.run lock x.answers
  | .property atom => s.propertyEvent x.reaction.run atom

end Rotation

end AppCore
