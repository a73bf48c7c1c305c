import AppCore.CoreHistory

/-!
# Event Callbacks over a Run

A callback of `appcore_set_event_callback` stays registered until another call for the same
event replaces it or the library clears `core`, which the end of a call does and a start that
fails in between. It may be set by any callback, also by itself, and while no call is under
way. This module reads the registrations and the notifications off the history of a run, as
marks, and says which callback a notification is to invoke in terms of the marks before it.

## Main results

* `Routed.runApi`, `Routed.vconfCb`: one API call and one notification make their marks.
* `events_system`: **the event callbacks of a run of the system.**
-/

set_option autoImplicit false

namespace AppCore

/-- What bears on the event callbacks. -/
inductive EventMark
  | api (c : ApiCall)
  /-- `core` is cleared. -/
  | clears
  | notifies (e : AppcoreEvent)

/-- What a mark sets for an event, if it does. -/
def EventMark.sets (e : AppcoreEvent) : EventMark → Option SysOp
  | .api c => c.registers e
  | .clears => some ⟨none, none⟩
  | .notifies _ => none

/-- What is registered for an event after some marks. -/
def standing (e : AppcoreEvent) (ms : List EventMark) : SysOp :=
  Trace.latest (EventMark.sets e) ⟨none, none⟩ ms

/-- The invocations that a mark leads to after others. -/
def EventMark.invokes (past : List EventMark) : EventMark → List (Addr × Ptr)
  | .notifies e => (standing e past).invocation
  | _ => []

/-- **The invocations that marks lead to**: each notification invokes what is registered for
its event by then. -/
def invoked (ms : List EventMark) : List (Addr × Ptr) :=
  (Trace.withPast [] ms).flatMap fun x => x.2.invokes x.1

/-- The registration after one more mark. -/
theorem standing_snoc (e : AppcoreEvent) (ms : List EventMark) (m : EventMark) :
    standing e (ms ++ [m]) = (m.sets e).getD (standing e ms) :=
  Trace.latest_snoc

/-- The invocations after one more mark. -/
theorem invoked_snoc (ms : List EventMark) (m : EventMark) :
    invoked (ms ++ [m]) = invoked ms ++ m.invokes ms := by
  rw [invoked, Trace.withPast_snoc, List.flatMap_append, List.flatMap_singleton]
  rfl

namespace Process

/-! ### Marks -/

instance (p : Process) (c : ApiCall) : Decidable (Clears p c) :=
  match c with
  | .init .. => inferInstanceAs (Decidable (_ ∧ _ ∧ _ ∧ _))
  | .exit => inferInstanceAs (Decidable (_ ≠ _))
  | .setEventCallback .. | .setI18n .. | .setSystemResourceReclaiming _ | .flushMemory
  | .rotation .. => inferInstanceAs (Decidable False)

/-- The mark of an API call. -/
def apiMark (p : Process) (c : ApiCall) : EventMark :=
  if Clears p c then .clears else .api c

/-- The marks of API calls that are made one after the other. -/
def callsMarks (p : Process) (cs : List ApiCall) : List EventMark :=
  Machine.outputs (fun p c => (p.runApi c, [p.apiMark c])) p cs

/-- The marks of an input: a notification that reaches `__vconf_cb` and is passed on for an
event comes before the API calls of its callback. -/
def inputMarks (p : Process) : CoreInput → List EventMark
  | .api c => [p.apiMark c]
  | .vconf n =>
      if n.name.all (fun k => decide (k ∈ p.vconf)) = true then
        n.event.elim [] fun e =>
          .notifies e ::
            (p.core.sops e.slot).func.elim [] fun fn =>
              ((p.updateBefore n).call (.sysCallback fn (p.core.sops e.slot).data)).callsMarks
                n.calls
      else []

/-- The marks of a history. -/
def eventMarks (p : Process) (hist : List CoreInput) : List EventMark :=
  Machine.outputs (fun p y => (p.act y.action, p.inputMarks y)) p hist

/-! ### What the marks say -/

/-- The slots and the trace of the process are those that the marks lead to. -/
structure Routed (ms : List EventMark) (p : Process) : Prop where
  slots : ∀ e : AppcoreEvent, p.core.sops e.slot = standing e ms
  callbacks : p.eventCallbacks = invoked ms

variable {ms : List EventMark} {p q : Process}

/-- Only what the two modules hold matters. -/
theorem Routed.congr (h : Routed ms p) (hcentral : q.central = p.central) : Routed ms q := by
  obtain ⟨hcore, -, -, -, hcallbacks⟩ := Central.mk.inj hcentral
  exact ⟨fun e => by rw [hcore, h.slots], hcallbacks.trans h.callbacks⟩

/-- A call that clears `core` leaves nothing registered. -/
theorem sops_of_clears {c : ApiCall} (hc : Clears p c) (e : AppcoreEvent) :
    (p.runApi c).core.sops e.slot = ⟨none, none⟩ := by
  cases c with
  | init name ops a =>
      obtain ⟨hstate, hops, hi18n, haul⟩ := hc
      rw [runApi, appcoreInit_eq, if_neg (not_or.mpr ⟨not_not.mpr hstate, hops⟩)]
      dsimp only
      rw [if_neg hi18n]
      by_cases hlaunch : a.aulLaunchInit < 0
      · rw [if_pos hlaunch]
        rfl
      · rw [if_neg hlaunch, if_pos (haul.resolve_left hlaunch)]
        rfl
  | exit =>
      have hstate : p.core.state ≠ 0 := hc
      rw [runApi, appcoreExit_eq, if_pos hstate]
      rfl
  | _ => exact hc.elim

/-- **One API call.** -/
theorem Routed.runApi (h : Routed ms p) (c : ApiCall) :
    Routed (ms ++ [p.apiMark c]) (p.runApi c) := by
  have hinvokes : (p.apiMark c).invokes ms = [] := by
    rw [apiMark]
    split <;> rfl
  constructor
  · intro e
    rw [standing_snoc, apiMark]
    by_cases hc : Clears p c
    · rw [if_pos hc, sops_of_clears hc]
      rfl
    · rw [if_neg hc, sops_runApi hc, h.slots]
      rfl
  · rw [eventCallbacks_runApi, invoked_snoc, hinvokes, List.append_nil, h.callbacks]

/-- The API calls of a callback and their marks. -/
theorem Routed.calls (h : Routed ms p) (cs : List ApiCall) :
    Routed (ms ++ p.callsMarks cs) (cs.foldl (fun p c => p.runApi c) p) := by
  induction cs generalizing p ms with
  | nil => rwa [callsMarks, Machine.outputs_nil, List.append_nil]
  | cons c cs ih =>
      rw [callsMarks, Machine.outputs_cons, ← List.append_assoc]
      exact ih (h.runApi c)

/-- The event of a notification invokes what is registered for it. -/
theorem Routed.notified (h : Routed ms p) (e : AppcoreEvent)
    (hcore : q.core.sops = p.core.sops)
    (hcallbacks : q.eventCallbacks = p.eventCallbacks ++ (standing e ms).invocation) :
    Routed (ms ++ [.notifies e]) q := by
  constructor
  · intro f
    rw [standing_snoc, hcore, h.slots]
    rfl
  · rw [invoked_snoc, hcallbacks, h.callbacks]
    rfl

/-- A notification invokes the registered callback, and its API calls follow. -/
theorem Routed.deliver (h : Routed ms p) {e : AppcoreEvent} {op : SysOp}
    (hop : op = standing e ms) (n : Notification) :
    Routed (ms ++ .notifies e :: op.func.elim [] fun fn =>
      (p.call (.sysCallback fn op.data)).callsMarks n.calls) (p.deliver op n) := by
  rw [Process.deliver]
  cases hfn : op.func with
  | none =>
      refine h.notified e rfl ?_
      rw [← hop, SysOp.invocation, hfn, List.append_nil]
  | some fn =>
      rw [Option.elim_some, List.append_cons]
      have hcalled : Routed (ms ++ [.notifies e]) (p.call (.sysCallback fn op.data)) := by
        refine h.notified e rfl ?_
        rw [← hop, SysOp.invocation, hfn, eventCallbacks, Process.call, List.filterMap_append]
        rfl
      exact hcalled.calls n.calls

/-- **One notification**, with what is registered for its event. -/
theorem Routed.vconfCb (h : Routed ms p) {n : Notification}
    (hkey : n.name.all (fun k => decide (k ∈ p.vconf)) = true) :
    Routed (ms ++ p.inputMarks (.vconf n)) (p.vconfCb n) := by
  have hbefore : Routed ms (p.updateBefore n) := by
    refine ⟨fun e => ?_, (eventCallbacks_updateBefore n p).trans h.callbacks⟩
    rw [← h.slots e, updateBefore]
    split <;> rfl
  rw [vconfCb_eq, route, inputMarks, if_pos hkey]
  refine Routed.congr ?_ (central_postAfter n _)
  cases n.event with
  | none =>
      rw [Option.elim_none, List.append_nil]
      exact hbefore
  | some e =>
      have hslot := h.slots e
      rw [Option.elim_some]
      dsimp only
      generalize p.updateBefore n = q at hbefore ⊢
      generalize p.core.sops e.slot = op at hslot ⊢
      exact hbefore.deliver hslot n

/-- An input of the core and its marks. -/
theorem Routed.core (h : Routed ms p) (y : CoreInput) :
    Routed (ms ++ p.inputMarks y) (p.act y.action) := by
  cases y with
  | api c => exact h.runApi c
  | vconf n =>
      by_cases hkey : n.name.all (fun k => decide (k ∈ p.vconf)) = true
      · rw [CoreInput.action, act, if_pos hkey]
        exact h.vconfCb hkey
      · rw [CoreInput.action, act, if_neg hkey, inputMarks, if_neg hkey, List.append_nil]
        exact h

/-- **A history** makes its marks. -/
theorem Routed.run (h : Routed ms p) (hist : List CoreInput) :
    Routed (ms ++ p.eventMarks hist) (Machine.run act p (hist.map CoreInput.action)) := by
  induction hist generalizing p ms with
  | nil => rwa [eventMarks, Machine.outputs_nil, List.append_nil]
  | cons y hist ih =>
      rw [eventMarks, Machine.outputs_cons, ← List.append_assoc]
      exact ih (h.core y)

end Process

namespace System

variable {w : ℕ}

/-- The marks of a run. -/
def eventMarks (s : System) (is : List (Input w)) : List EventMark :=
  s.process.eventMarks (s.coreHistory is)

/-- **The event callbacks of a run of the system.** Each notification that vconf makes for a
key the library follows invokes the callback that was registered last for its event, with
its data, unless `core` was cleared since, and nothing else invokes an event callback. What
the callbacks themselves register is in effect from the next notification on. -/
theorem events_system (env : EnvVar → Option String) (locale : LcCategory → String)
    (rotateLock : Bool) (pid : ℤ) (is : List (Input w)) :
    let s₀ := init (.fresh env locale rotateLock) pid
    let p := (Machine.run step s₀ is).process
    p.eventCallbacks = invoked (s₀.eventMarks is) ∧
      ∀ e : AppcoreEvent, p.core.sops e.slot = standing e (s₀.eventMarks is) := by
  intro s₀ p
  have hinit : Process.Routed [] s₀.process := ⟨fun _ => rfl, rfl⟩
  have hrun : Process.Routed (s₀.eventMarks is) p :=
    (hinit.run (s₀.coreHistory is)).congr (central_system s₀ is)
  exact ⟨hrun.callbacks, hrun.slots⟩

open Process (plain goodCall fullOps notice)

/-- A callback that replaces itself is invoked once; the next call has none. -/
example :
    let enter : Input 64 := .action (.enter (goodCall fullOps [])) noDisplay
    let replace : ApiCall := .setEventCallback 1 (some 9) none
    let lowMemory : Input 64 := .action (.vconf (notice .sysmanLowMemory)) noDisplay
    (Machine.run step (init plain 77)
      [enter, .action (.api (.setEventCallback 1 (some 8) none)) noDisplay,
       .action (.vconf { notice .sysmanLowMemory with calls := [replace] }) noDisplay, lowMemory,
       .action (.leave (goodCall fullOps []).after []) noDisplay, enter,
       lowMemory]).process.eventCallbacks = [(8, none), (9, none)] := by
  decide

end System

end AppCore
