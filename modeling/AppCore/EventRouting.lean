import AppCore.Dispatch
import AppCore.EflSpec
import AppCore.Lib.Trace

/-!
# Event Routing

`appcore_set_event_callback` finds the slot of a public event through the table `to_ae`,
and `__vconf_cb` finds it from the other side, through the table `evtops` and the handlers
that its rows name. This module puts the two together: `route` says what a notification is
to do, in terms of what was registered for the public events and without the slots.

Registrations are read off the history of API calls since `core` was last cleared. The
slots also survive every other API call, so that the history may contain those.

## Main results

* `setEventCallback_value`, `setEventCallback_invalid`: what a registration does.
* `sops_run`: **the slots hold what was last registered**.
* `vconfCb_eq`: a notification, with the search of the table resolved.
* `vconfCb_routes`: **the routing of a notification**, after any history.
-/

set_option autoImplicit false

namespace AppCore

/-- `enum appcore_event`, without `APPCORE_EVENT_UNKNOWN`. -/
inductive AppcoreEvent
  | lowMemory
  | lowBattery
  | langChange
  | regionChange
  deriving DecidableEq, Repr

/-- The value of the event in the header. -/
def AppcoreEvent.value : AppcoreEvent → ℤ
  | .lowMemory => 1
  | .lowBattery => 2
  | .langChange => 3
  | .regionChange => 4

/-- The slot of the event in `core.sops`. -/
def AppcoreEvent.slot : AppcoreEvent → SysEvent
  | .lowMemory => .lowmem
  | .lowBattery => .lowbat
  | .langChange => .langchg
  | .regionChange => .regionchg

/-- The events have different values. -/
theorem AppcoreEvent.value_injective : Function.Injective AppcoreEvent.value := by
  intro e f h
  cases e <;> cases f <;> first | rfl | exact absurd h (by decide)

/-- The events have different slots of `core.sops`. -/
theorem AppcoreEvent.slot_injective : Function.Injective AppcoreEvent.slot := by
  intro e f h
  cases e <;> cases f <;> first | rfl | exact absurd h (by decide)

/-- What an API call registers for an event, if it does. -/
def ApiCall.registers (e : AppcoreEvent) : ApiCall → Option SysOp
  | .setEventCallback event cb data => if event = e.value then some ⟨cb, data⟩ else none
  | _ => none

/-- What the calls of a history last registered for an event; at first that is nothing. -/
def registered (hist : List ApiCall) (e : AppcoreEvent) : SysOp :=
  Trace.latest (ApiCall.registers e) ⟨none, none⟩ hist

/-- The event that a notification is passed on for, by the name of its key. -/
def Notification.event (n : Notification) : Option AppcoreEvent :=
  match n.name with
  | some .sysmanLowMemory => some .lowMemory
  | some .sysmanBatteryStatusLow =>
      if n.int ≤ n.sysmanBatCriticalLow then some .lowBattery else none
  | some .langset => some .langChange
  | some .regionformat => some .regionChange
  | some .regionformatTime1224 => some .regionChange
  | some (.other _) => none
  | none => none

/-- The invocation of what is registered: the callback with its data, unless it is NULL. -/
def SysOp.invocation (op : SysOp) : List (Addr × Ptr) :=
  match op.func with
  | none => []
  | some fn => [(fn, op.data)]

/-- The entry of the trace is the invocation of an event callback. -/
def Call.eventCallback : Call → Option (Addr × Ptr)
  | .sysCallback fn data => some (fn, data)
  | _ => none

/-- Flushing memory invokes no event callback. -/
theorem Call.IsFlush.eventCallback_eq_none {c : Call} (h : c.IsFlush) :
    c.eventCallback = none := by
  cases c <;> first | rfl | exact h.elim

namespace Process

/-- The event callbacks invoked so far, each with the data passed to it. -/
def eventCallbacks (p : Process) : List (Addr × Ptr) :=
  p.calls.filterMap Call.eventCallback

/-- The update of the environment that precedes the callback. -/
def updateBefore (n : Notification) (p : Process) : Process :=
  match n.name with
  | some .langset => { p with i18n := p.i18n.updateLang n.i18n }
  | some .regionformat => { p with i18n := p.i18n.updateRegion n.i18n }
  | _ => p

/-- The callback is invoked, and makes its API calls. -/
def deliver (op : SysOp) (n : Notification) (p : Process) : Process :=
  match op.func with
  | none => p
  | some fn => n.calls.foldl (fun p c => p.runApi c) (p.call (.sysCallback fn op.data))

/-- The dispatch of `AE_LOWMEM_POST` that follows a low-memory callback. -/
def postAfter (n : Notification) (p : Process) : Process :=
  if n.name = some .sysmanLowMemory then p.cbApp .lowmemPost none n.answers else p

/-- What a notification is to do when `reg` tells what is registered for each event. -/
def route (reg : AppcoreEvent → SysOp) (n : Notification) (p : Process) : Process :=
  let p := p.updateBefore n
  let p :=
    match n.event with
    | none => p
    | some e => p.deliver (reg e) n
  p.postAfter n

/-! ### Registration -/

/-- A registration fills the slot of its event. -/
theorem setEventCallback_value (e : AppcoreEvent) (cb data : Ptr) (p : Process) :
    p.setEventCallback e.value cb data =
      (0, { p with core.sops := Function.update p.core.sops e.slot ⟨cb, data⟩ }) := by
  cases e <;> rfl

/-- Any other value is turned down. -/
theorem setEventCallback_invalid {event : ℤ} (h : ∀ e : AppcoreEvent, event ≠ e.value)
    (cb data : Ptr) (p : Process) : p.setEventCallback event cb data = (-1, p) := by
  rw [setEventCallback]
  by_cases h₀ : event = 0
  · subst h₀
    rfl
  · have hfind : sysEvents.find? (fun se => decide (event = toAe se)) = none := by
      rw [List.find?_eq_none]
      intro se _ hse
      have heq : event = toAe se := of_decide_eq_true hse
      cases se with
      | unknown => exact h₀ heq
      | lowmem => exact h .lowMemory heq
      | lowbat => exact h .lowBattery heq
      | langchg => exact h .langChange heq
      | regionchg => exact h .regionChange heq
    rw [hfind]

/-- A call of `appcore_set_event_callback` fills the slot of its event and no other. -/
theorem sops_setEventCallback (event : ℤ) (cb data : Ptr) (p : Process) (e : AppcoreEvent) :
    (p.setEventCallback event cb data).2.core.sops e.slot =
      ((ApiCall.setEventCallback event cb data).registers e).getD (p.core.sops e.slot) := by
  rw [ApiCall.registers]
  by_cases hvalid : ∃ f : AppcoreEvent, event = f.value
  · obtain ⟨f, rfl⟩ := hvalid
    rw [setEventCallback_value]
    by_cases hf : f = e
    · rw [hf, if_pos rfl]
      exact Function.update_self ..
    · have hvalue : f.value ≠ e.value := fun h => hf (AppcoreEvent.value_injective h)
      have hslot : e.slot ≠ f.slot := fun h => hf (AppcoreEvent.slot_injective h.symm)
      rw [if_neg hvalue]
      exact Function.update_of_ne hslot ..
  · have hne : ∀ f : AppcoreEvent, event ≠ f.value := not_exists.mp hvalid
    rw [setEventCallback_invalid hne, if_neg (hne e)]
    rfl

/-- The call clears `core`: an `appcore_init` that fails once the keys are followed, or an
`appcore_exit` that has something to undo. -/
def Clears (p : Process) : ApiCall → Prop
  | .init name ops a =>
      p.core.state = 0 ∧ ops.bind UiOps.cbApp ≠ none ∧
        (p.i18n.setI18n name a.i18n).1 ≠ -1 ∧
        (a.aulLaunchInit < 0 ∨ a.aulLaunchArgvHandler < 0)
  | .exit => p.core.state ≠ 0
  | _ => False

variable {p : Process}

/-- **One API call**: unless `core` is cleared, the slot of an event holds what the call
registers for it, or what it held before. -/
theorem sops_runApi {c : ApiCall} (hc : ¬ Clears p c) (e : AppcoreEvent) :
    (p.runApi c).core.sops e.slot = (c.registers e).getD (p.core.sops e.slot) := by
  cases c with
  | init name ops a =>
      rw [runApi, appcoreInit_eq]
      split
      · rfl
      · rename_i hguard
        obtain ⟨hstate, hops⟩ := not_or.mp hguard
        dsimp only
        split
        · rfl
        · rename_i hi
          have haul : ¬ (a.aulLaunchInit < 0 ∨ a.aulLaunchArgvHandler < 0) :=
            fun haul => hc ⟨not_not.mp hstate, hops, hi, haul⟩
          obtain ⟨hinit, hargv⟩ := not_or.mp haul
          rw [if_neg hinit, if_neg hargv]
          rfl
  | exit =>
      have hstate : ¬ p.core.state ≠ 0 := hc
      rw [runApi, appcoreExit_eq, if_neg hstate]
      rfl
  | setEventCallback event cb data =>
      exact sops_setEventCallback event cb data p e
  | setI18n domainname a => rfl
  | setSystemResourceReclaiming enable => rfl
  | flushMemory =>
      obtain ⟨l, -, heq⟩ := logs_appcoreFlushMemory p
      rw [runApi, heq]
      rfl
  | rotation c a ρ => rfl

/-- **The slots hold what was last registered**, as long as `core` is not cleared. -/
theorem sops_run {hist : List ApiCall}
    (hhist : Machine.AtEach (fun p c => p.runApi c) (fun p c => ¬ Clears p c) p hist)
    (e : AppcoreEvent) :
    (Machine.run (fun p c => p.runApi c) p hist).core.sops e.slot =
      Trace.latest (ApiCall.registers e) (p.core.sops e.slot) hist := by
  induction hist generalizing p with
  | nil => rfl
  | cons c hist ih =>
      rw [Machine.run_cons, ih hhist.2, sops_runApi hhist.1, Trace.latest_cons]

/-! ### Notifications -/

/-- **A notification, with the search of the table resolved.** The keys of the table are
different, so at most one row runs. -/
theorem vconfCb_eq (n : Notification) (p : Process) :
    p.vconfCb n = p.route (fun e => p.core.sops e.slot) n := by
  obtain ⟨name, int, low, i, a, cs⟩ := n
  cases name with
  | none => rfl
  | some key =>
      cases key with
      | sysmanBatteryStatusLow =>
          have hrun : p.vconfCb ⟨some .sysmanBatteryStatusLow, int, low, i, a, cs⟩ =
              p.sysLowbatt ⟨some .sysmanBatteryStatusLow, int, low, i, a, cs⟩ := rfl
          rw [hrun, sysLowbatt, route, Notification.event]
          dsimp only
          split
          · rfl
          · rfl
      | sysmanLowMemory => rfl
      | langset => rfl
      | regionformat => rfl
      | regionformatTime1224 => rfl
      | other name => rfl

/-! ### The event callbacks in the trace -/

/-- A step that appends only other entries to the trace. -/
theorem eventCallbacks_of_append {q : Process} {l : List Call} (h : q.calls = p.calls ++ l)
    (hl : ∀ c ∈ l, c.eventCallback = none) : q.eventCallbacks = p.eventCallbacks := by
  rw [eventCallbacks, h, List.filterMap_append, List.filterMap_eq_nil_iff.mpr hl,
    List.append_nil, eventCallbacks]

/-- API calls invoke no event callback. -/
theorem eventCallbacks_runApi (c : ApiCall) (p : Process) :
    (p.runApi c).eventCallbacks = p.eventCallbacks := by
  obtain ⟨l, hl, heq⟩ := (outside_runApi c p).newCalls
  exact eventCallbacks_of_append heq fun c hc => (hl c hc).eventCallback_eq_none

/-- The dispatch of `AE_LOWMEM_POST` only appends to the trace. -/
theorem logs_cbApp_lowmemPost (a : Answers) (p : Process) :
    Logs Call.IsFlush p (p.cbApp .lowmemPost none a) := by
  rw [cbApp]
  split
  · exact logs_call trivial p
  · split
    · exact logs_call trivial p
    · have hdoes : Does a p .lowmemPost (p.doApp .lowmemPost none a) :=
        does_doApp .lowmemPost none a p
      generalize p.doApp .lowmemPost none a = q at hdoes
      cases hdoes with
      | lowmemPost => exact logs_lowMemoryPostCb p
      | move _ hne => exact absurd rfl hne
    · exact logs_call trivial p

/-- The flush after a notification of low memory invokes no event callback. -/
theorem eventCallbacks_postAfter (n : Notification) (p : Process) :
    (p.postAfter n).eventCallbacks = p.eventCallbacks := by
  rw [postAfter]
  split
  · obtain ⟨l, hl, heq⟩ := logs_cbApp_lowmemPost n.answers p
    rw [heq]
    exact eventCallbacks_of_append rfl fun c hc => (hl c hc).eventCallback_eq_none
  · rfl

/-- Writing the environment invokes no event callback. -/
theorem eventCallbacks_updateBefore (n : Notification) (p : Process) :
    (p.updateBefore n).eventCallbacks = p.eventCallbacks := by
  rw [updateBefore]
  split <;> rfl

/-- A delivery invokes the callback once, and what the callback calls invokes none. -/
theorem eventCallbacks_deliver (op : SysOp) (n : Notification) (p : Process) :
    (p.deliver op n).eventCallbacks = p.eventCallbacks ++ op.invocation := by
  rw [deliver, SysOp.invocation]
  cases op.func with
  | none => rw [List.append_nil]
  | some fn =>
      refine foldl_runApi (I := fun q => q.eventCallbacks = _) ?_ ?_
      · intro c _ q hq
        rw [eventCallbacks_runApi, hq]
      · rw [eventCallbacks, Process.call, List.filterMap_append]
        rfl

/-- **A notification invokes what is registered for its event**, once, and nothing else. -/
theorem eventCallbacks_route (reg : AppcoreEvent → SysOp) (n : Notification) (p : Process) :
    (p.route reg n).eventCallbacks =
      p.eventCallbacks ++ n.event.elim [] fun e => (reg e).invocation := by
  rw [route, eventCallbacks_postAfter]
  cases n.event with
  | none => rw [Option.elim_none, List.append_nil, eventCallbacks_updateBefore]
  | some e => rw [Option.elim_some, eventCallbacks_deliver, eventCallbacks_updateBefore]

/-! ### The routing -/

/-- What the environment holds when the callback runs: the new language, -/
theorem env_updateBefore_language {n : Notification} {lang : String}
    (hname : n.name = some .langset) (hlang : n.i18n.langset = some lang) (p : Process) :
    (p.updateBefore n).i18n.env = I18n.setLang lang p.i18n.env := by
  rw [updateBefore, hname]
  exact I18n.env_updateLang hlang p.i18n

/-- or the new region. -/
theorem env_updateBefore_region {n : Notification} {region : String}
    (hname : n.name = some .regionformat) (hregion : n.i18n.regionformat = some region)
    (p : Process) : (p.updateBefore n).i18n.env = I18n.setRegion region p.i18n.env := by
  rw [updateBefore, hname]
  exact congrArg I18n.env (I18n.updateRegion_eq hregion p.i18n)

/-- **Event routing.** In a process whose slots are those that a history of API calls has
left since `core` was cleared: a registration for no event is turned down and changes
nothing, and a notification is routed by what the history last registered for each event,
so that it invokes exactly the callback of its own event. The callback of a change of the
language or of the region runs with the new value in the environment. -/
theorem vconfCb_routes {p : Process} (hp : ∀ e : AppcoreEvent, p.core.sops e.slot = ⟨none, none⟩)
    {hist : List ApiCall}
    (hhist : Machine.AtEach (fun p c => p.runApi c) (fun p c => ¬ Clears p c) p hist)
    {q : Process}
    (hq : q.core.sops = (Machine.run (fun p c => p.runApi c) p hist).core.sops) :
    (∀ event cb data, (∀ e : AppcoreEvent, event ≠ e.value) →
      q.setEventCallback event cb data = (-1, q)) ∧
      ∀ n, q.vconfCb n = q.route (registered hist) n ∧
        (q.vconfCb n).eventCallbacks =
          q.eventCallbacks ++ n.event.elim [] (fun e => (registered hist e).invocation) ∧
        (∀ lang, n.name = some .langset → n.i18n.langset = some lang →
          (q.updateBefore n).i18n.env = I18n.setLang lang q.i18n.env) ∧
        ∀ region, n.name = some .regionformat → n.i18n.regionformat = some region →
          (q.updateBefore n).i18n.env = I18n.setRegion region q.i18n.env := by
  have hregistered : (fun e : AppcoreEvent => q.core.sops e.slot) = registered hist := by
    funext e
    rw [hq, sops_run hhist, hp, registered]
  refine ⟨fun event cb data h => setEventCallback_invalid h cb data q, fun n => ?_⟩
  have hroute : q.vconfCb n = q.route (registered hist) n := by
    rw [vconfCb_eq, hregistered]
  exact ⟨hroute, by rw [hroute, eventCallbacks_route],
    fun _ hname hlang => env_updateBefore_language hname hlang q,
    fun _ hname hregion => env_updateBefore_region hname hregion q⟩

/-- Two callbacks are set and then one is replaced and the other unset; a value of no event
comes in between. -/
def overwritten : List ApiCall :=
  [.setEventCallback 1 (some 7) (some 3), .setEventCallback 3 (some 6) none,
   .setEventCallback 9 (some 5) none, .setEventCallback 1 (some 8) (some 4),
   .setEventCallback 3 none none]

/-- A notification of the key, with answers that are all good. -/
def notice (key : VconfKey) : Notification where
  name := some key
  int := 0
  sysmanBatCriticalLow := 1
  i18n := ⟨some "ko_KR", none, none, some "en_US", true, true, true, true, true, true⟩
  answers := ⟨true, 1, true⟩
  calls := []

/-- The replaced callback is the one that a low-memory notification invokes, and a change
of the language invokes none. -/
theorem vconfCb_routes_overwritten :
    let p : Process := .fresh (fun _ => none) (fun _ => "C") false
    let q := Machine.run (fun p c => p.runApi c) p overwritten
    q.setEventCallback 9 (some 5) none = (-1, q) ∧
      (q.vconfCb (notice .sysmanLowMemory)).eventCallbacks = [(8, some 4)] ∧
      (q.vconfCb (notice .langset)).eventCallbacks = [] ∧
      (q.updateBefore (notice .regionformat)).i18n.env (.lc .time) = some "en_US" := by
  have h := @vconfCb_routes (.fresh (fun _ => none) (fun _ => "C") false) (fun _ => rfl)
    overwritten ⟨id, id, id, id, id, trivial⟩ _ rfl
  refine ⟨h.1 9 (some 5) none fun e => by cases e <;> decide, ?_, ?_, ?_⟩
  · exact (h.2 (notice .sysmanLowMemory)).2.1.trans (by decide)
  · exact (h.2 (notice .langset)).2.1.trans (by decide)
  · exact congrFun ((h.2 (notice .regionformat)).2.2.2 "en_US" rfl rfl) (.lc .time)

end Process

end AppCore
