import AppCore.Lib.Machine
import AppCore.Process

/-!
# The EFL Module

The functions of `appcore-efl.c` over `Process`, and the two functions of `appcore.c`
that call back into it, `appcore_flush_memory` and the dispatch of `AE_MEM_FLUSH`. The
header defines `MEMORY_FLUSH_ACTIVATE`, so the first half of the conditional is the one
that is compiled. The guard of `__do_app` against a null `ui` is left out: the handlers
and `efl_ops` always pass the address of `priv`.

A main-loop event is a value of `Event`, and the answers of the outside while it is
handled are `Answers`: whether `calloc` and `ecore_timer_add` succeed, and what the
life-cycle callback returns if one is invoked. A callback may use the API before it
returns; what it does there is an event `api` of its own, and for the callbacks `create` and
`terminate`, which run before and after the loop, a list `createApi` or `terminateApi`.
-/

set_option autoImplicit false

namespace AppCore

/-- A call of the library's API made by the application. -/
inductive ApiCall
  | init (name : Option String) (ops : Option UiOps) (a : Process.InitAnswers)
  | exit
  | setEventCallback (event : ℤ) (cb data : Ptr)
  | setI18n (domainname : Option String) (a : I18n.Answers)
  | setSystemResourceReclaiming (enable : Bool)
  | flushMemory
  | rotation (c : Rotation.Api) (a : Rotation.Answers) (ρ : Rotation.Reaction)

/-- An event as the main loop hands it to the module: the X events on a window with what
the handler finds in them (`ret` is the result of reading `_E_PARENT_BORDER_WINDOW`, 1
for a top-level window), the application events that reach `__do_app` from the core
module, the expiry of a timer, and an API call made by the application. -/
inductive Event
  | show (win : BitVec 32) (ret : ℤ)
  | hide (win : BitVec 32)
  | visibilityChange (win : BitVec 32) (fullyObscured : Bool)
  | reset (b : Ptr)
  | terminate
  | lowmemPost
  | memFlush
  | timer (h : ℕ)
  | api (c : ApiCall)

/-- The answers of the outside while one event is handled. -/
structure Answers where
  calloc : Bool
  ret : ℤ
  timer : Bool
  deriving DecidableEq, Repr

namespace Process

/-- The address of `priv`, the data of `efl_ops`. -/
def privAddr : Addr := 0

/-- `efl_ops`. -/
def eflOps : UiOps :=
  ⟨some privAddr, some .doApp⟩

/-- Invoke a callback of the application unless it is NULL. -/
def invoke (fn : Ptr) (c : Addr → Call) (p : Process) : Process :=
  match fn with
  | some fn => p.call (c fn)
  | none => p

/-! ### Memory flushing -/

/-- The branch `AE_MEM_FLUSH` of `__do_app`: call `mfcb`, which flushes the caches. -/
def memFlush (p : Process) : Process :=
  match p.priv.mfcb with
  | some .eflMemoryFlushCb => p.call .elmCacheAllFlush
  | none => p.call .fault

/-- `appcore_flush_memory`. -/
def appcoreFlushMemory (p : Process) : ℤ × Process :=
  let p := p.call .appcoreFlushMemory
  if p.core.state = 0 then (-1, p)
  else
    match p.core.ops with
    | none => (0, p.call .fault)
    | some ops =>
        let p : Process :=
          match ops.cbApp with
          | none => p
          | some .doApp => p.memFlush
          | some (.other fn) => p.call (.cbApp fn .memFlush ops.data)
        (0, p.call .mallocTrim)

/-- `__appcore_memory_flush_cb`. -/
def memoryFlushCb (p : Process) : Process :=
  let p := p.appcoreFlushMemory.2
  { p with priv.mftimer := none }

/-- `__appcore_low_memory_post_cb`. -/
def lowMemoryPostCb (p : Process) : ℤ × Process :=
  if p.priv.state = .paused then (0, p.appcoreFlushMemory.2) else (0, p.call .mallocTrim)

/-- `__appcore_timer_add`. -/
def timerAdd (a : Answers) (p : Process) : Process :=
  if a.timer = true then
    let p := p.call (.ecoreTimerAdd (some p.nextTimer))
    { p with
      priv.mftimer := some p.nextTimer
      timers := p.timers ++ [p.nextTimer]
      nextTimer := p.nextTimer + 1 }
  else
    let p := p.call (.ecoreTimerAdd none)
    { p with priv.mftimer := none }

/-- `__appcore_timer_del`. -/
def timerDel (p : Process) : Process :=
  match p.priv.mftimer with
  | some h =>
      let p := p.call (.ecoreTimerDel h)
      { p with timers := p.timers.erase h, priv.mftimer := none }
  | none => p

/-- A live timer expires: its callback runs and, as it returns `ECORE_CALLBACK_CANCEL`,
Ecore deletes it. -/
def timerExpired (h : ℕ) (p : Process) : Process :=
  if h ∈ p.timers then
    let p := p.memoryFlushCb.call (.ecoreTimerExpired h)
    { p with timers := p.timers.erase h }
  else p

/-! ### `__do_app` -/

/-- The branch `AE_RESET`. -/
def doReset (ops : AppcoreOps) (b : Ptr) (p : Process) : Process :=
  let p := p.invoke ops.reset (.reset · b ops.data)
  { p with priv.state := .running }

/-- The branch `AE_PAUSE`; `r` starts at -1 and is the result of the callback if there is
one. -/
def doPause (ops : AppcoreOps) (a : Answers) (p : Process) : Process :=
  let p : Process :=
    if p.priv.state = .running then
      let r : ℤ := if ops.pause = none then -1 else a.ret
      let p := p.invoke ops.pause (.pause · ops.data)
      let p : Process := { p with priv.state := .paused }
      if 0 ≤ r ∧ p.resourceReclaiming = true then p.timerAdd a else p
    else p
  p.call .sysmanInformBackgrd

/-- The branch `AE_RESUME`. -/
def doResume (ops : AppcoreOps) (p : Process) : Process :=
  let p : Process :=
    if p.priv.state = .paused then
      let p := p.invoke ops.resume (.resume · ops.data)
      { p with priv.state := .running }
    else p
  p.call .sysmanInformForegrd

/-- What follows the early returns of `__do_app`. -/
def doAppTail (event : AppEvent) (b : Ptr) (a : Answers) (p : Process) : Process :=
  let p := if p.priv.state = .paused ∧ event = .pause then p else p.timerDel
  if event = .terminate then
    let p : Process := { p with priv.state := .dying }
    p.call .elmExit
  else
    match p.priv.ops with
    | none => p
    | some ops =>
        match event with
        | .reset => p.doReset ops b
        | .pause => p.doPause ops a
        | .resume => p.doResume ops
        | _ => p

/-- `__do_app`. -/
def doApp (event : AppEvent) (b : Ptr) (a : Answers) (p : Process) : Process :=
  if event = .memFlush then p.memFlush
  else if event = .lowmemPost then
    let r := p.lowMemoryPostCb
    if r.1 = 0 then r.2 else r.2.doAppTail event b a
  else p.doAppTail event b a

/-! ### The X handlers -/

/-- `__show_cb`. -/
def showCb (win : BitVec 32) (ret : ℤ) (a : Answers) (p : Process) : Process :=
  if ret ≠ 1 then p
  else if existWin win p.gWinnodeList = false then
    { p with gWinnodeList := (addWin win a.calloc p.gWinnodeList).2 }
  else { p with gWinnodeList := (updateWin win false a.calloc p.gWinnodeList).2 }

/-- `__hide_cb`. -/
def hideCb (win : BitVec 32) (a : Answers) (p : Process) : Process :=
  if existWin win p.gWinnodeList = true then
    let p : Process := { p with gWinnodeList := (deleteWin win p.gWinnodeList).2 }
    let bvisibility := checkVisible p.gWinnodeList
    if bvisibility = false ∧ p.bActive = true then
      let p : Process := { p with bActive := false }
      p.doApp .pause none a
    else p
  else p

/-- `__visibility_cb`. -/
def visibilityCb (win : BitVec 32) (fullyObscured : Bool) (a : Answers) (p : Process) :
    Process :=
  let p : Process :=
    { p with gWinnodeList := (updateWin win fullyObscured a.calloc p.gWinnodeList).2 }
  let bvisibility := checkVisible p.gWinnodeList
  if bvisibility = true ∧ p.bActive = false then
    let p : Process := { p with bActive := true }
    p.doApp .resume none a
  else if bvisibility = false ∧ p.bActive = true then
    let p : Process := { p with bActive := false }
    p.doApp .pause none a
  else p

/-! ### The main loop -/

/-- An API call of the application. -/
def runApi (c : ApiCall) (p : Process) : Process :=
  match c with
  | .init name ops a => (p.appcoreInit name ops a).2
  | .exit => p.appcoreExit
  | .setEventCallback event cb data => (p.setEventCallback event cb data).2
  | .setI18n domainname a => { p with i18n := (p.i18n.appcoreSetI18n domainname a).2 }
  | .setSystemResourceReclaiming enable => { p with resourceReclaiming := enable }
  | .flushMemory => p.appcoreFlushMemory.2
  | .rotation c a ρ => { p with rotation := p.rotation.runApi ρ.run c a }

/-- **One step** of the main loop: an event together with the answers of the outside. -/
def step (p : Process) (x : Event × Answers) : Process :=
  match x.1 with
  | .show win ret => p.showCb win ret x.2
  | .hide win => p.hideCb win x.2
  | .visibilityChange win fullyObscured => p.visibilityCb win fullyObscured x.2
  | .reset b => p.doApp .reset b x.2
  | .terminate => p.doApp .terminate none x.2
  | .lowmemPost => p.doApp .lowmemPost none x.2
  | .memFlush => p.doApp .memFlush none x.2
  | .timer h => p.timerExpired h
  | .api c => p.runApi c

/-! ### `appcore_efl_main` -/

/-- The answers to the calls made before the loop: `strdup`, those of `appcore_init`, and
what `create` returns and which API calls it makes. -/
structure StartAnswers where
  strdup : Bool
  init : InitAnswers
  create : ℤ
  createApi : List ApiCall

/-- A call of `appcore_efl_main`, with everything the outside decides while it runs: the
answers before the loop, the events of the loop, and after it the answers to
`appcore_unset_rotation_cb` and the API calls that the callback `terminate` makes. -/
structure MainCall where
  name : Option String
  argc : Option ℤ
  argv : Ptr
  ops : Option AppcoreOps
  start : StartAnswers
  events : List (Event × Answers)
  after : Rotation.Answers
  terminateApi : List ApiCall

/-- `__add_climsg_cb`: the three handlers of window events. -/
def addClimsgCb (p : Process) : Process :=
  { p with
    priv.hshow := some p.nextHandler
    priv.hhide := some (p.nextHandler + 1)
    priv.hvchange := some (p.nextHandler + 2)
    handlers := p.handlers ++ [p.nextHandler, p.nextHandler + 1, p.nextHandler + 2]
    nextHandler := p.nextHandler + 3 }

/-- The end of `__before_loop`. -/
def enterLoop (p : Process) : Process :=
  let p : Process := { p with priv.state := .created }
  p.addClimsgCb

/-- The callback `create`, with the API calls it makes. -/
def runCreate (fn : Addr) (ops : AppcoreOps) (a : StartAnswers) (p : Process) : Process :=
  let p := p.call (.create fn ops.data)
  a.createApi.foldl (fun p c => p.runApi c) p

/-- `__before_loop`. -/
def beforeLoop (argc : Option ℤ) (argv : Ptr) (a : StartAnswers) (p : Process) :
    ℤ × Process :=
  if argc = none ∨ argv = none then (-1, p)
  else
    let p := p.call .elmInit
    let r := p.appcoreInit p.priv.name (some eflOps) a.init
    let p := r.2
    if r.1 = -1 then (-1, p)
    else
      match p.priv.ops with
      | none => (0, p.enterLoop)
      | some ops =>
          match ops.create with
          | none => (0, p.enterLoop)
          | some fn =>
              let p := p.runCreate fn ops a
              if a.create = -1 then (-1, p.appcoreExit) else (0, p.enterLoop)

/-- `ecore_event_handler_del`, unless the handler is NULL. -/
def handlerDel (h : Option ℕ) (p : Process) : Process :=
  match h with
  | some h => { p with handlers := p.handlers.erase h }
  | none => p

/-- The callback `terminate`, with the API calls it makes. -/
def runTerminate (cs : List ApiCall) (p : Process) : Process :=
  match p.priv.ops with
  | none => p
  | some ops =>
      match ops.terminate with
      | none => p
      | some fn => cs.foldl (fun p c => p.runApi c) (p.call (.terminate fn ops.data))

/-- `__after_loop`. The call that unsets the rotation callback invokes no callback. -/
def afterLoop (a : Rotation.Answers) (cs : List ApiCall) (p : Process) : Process :=
  let p : Process := { p with rotation := p.rotation.runApi id .unset a }
  let p := p.appcoreExit
  let p := p.runTerminate cs
  let p := p.handlerDel p.priv.hshow
  let p := p.handlerDel p.priv.hhide
  let p := p.handlerDel p.priv.hvchange
  let p := p.timerDel
  p.call .elmShutdown

/-- `__set_data`. -/
def setData (name : Option String) (ops : Option AppcoreOps) (a : StartAnswers)
    (p : Process) : ℤ × Process :=
  if p.priv.name ≠ none then (-1, p)
  else if name = none ∨ name = some "" then (-1, p)
  else if ops = none then (-1, p)
  else
    let p : Process := { p with priv.name := if a.strdup = true then name else none }
    if a.strdup = false then (-1, p)
    else (0, { p with priv.ops := ops, priv.mfcb := some .eflMemoryFlushCb })

/-- `__unset_data`. -/
def unsetData (p : Process) : Process :=
  { p with priv := .zero }

/-- The part of `appcore_efl_main` before `elm_run`. -/
def startUp (m : MainCall) (p : Process) : ℤ × Process :=
  let r := p.setData m.name m.ops m.start
  if r.1 = -1 then (-1, r.2)
  else
    let r := r.2.beforeLoop m.argc m.argv m.start
    if r.1 = -1 then (-1, r.2.unsetData) else (0, r.2.call .elmRun)

/-- `appcore_efl_main`. -/
def appcoreEflMain (m : MainCall) (p : Process) : ℤ × Process :=
  let r := p.startUp m
  if r.1 = -1 then (-1, r.2)
  else
    let p := Machine.run step r.2 m.events
    let p := p.afterLoop m.after m.terminateApi
    (0, p.unsetData)

end Process

end AppCore
