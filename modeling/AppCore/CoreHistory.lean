import AppCore.Appends
import AppCore.Delivery
import AppCore.Resume

/-!
# Runs as Histories of API Calls and Notifications

What `appcore.c` and `appcore-i18n.c` hold is changed by API calls and by notifications from
vconf, and by nothing else. The start and the end of a call of `appcore_efl_main` make API
calls of their own, the callbacks of the application make others, and so does the callback
of `appcore_set_open_cb`. This module lists them: from a run of the system it reads off the
history of API calls and notifications, and shows that this history alone leads to what the
two modules hold, and to the event callbacks that were invoked.

## Main results

* `central_core`: one API call or notification depends on what the two modules hold only.
* `central_act`: **an action is a history** of API calls and notifications.
* `central_system`: so is **a run of the system**.
-/

set_option autoImplicit false

namespace AppCore

/-- An API call, or a notification that vconf makes. -/
inductive CoreInput
  | api (c : ApiCall)
  | vconf (n : Notification)

/-- The action of the session. -/
def CoreInput.action : CoreInput → Process.Action
  | .api c => .api c
  | .vconf n => .vconf n

/-- What `appcore.c` and `appcore-i18n.c` hold, and the event callbacks invoked so far. -/
structure Central where
  core : Appcore
  vconf : Finset VconfKey
  aul : Bool
  i18n : I18n
  eventCallbacks : List (Addr × Ptr)

/-- The loop invokes no event callback. -/
theorem Call.IsLoop.eventCallback_eq_none {c : Call} (h : c.IsLoop) : c.eventCallback = none := by
  cases c <;> first | rfl | exact (h.elim id fun h => h.elim id id).elim

namespace Process

/-- What the two modules hold. -/
def central (p : Process) : Central :=
  ⟨p.core, p.vconf, p.aul, p.i18n, p.eventCallbacks⟩

variable {p q : Process}

/-- What the two modules hold is part of the platform, apart from the event callbacks. -/
theorem central_of_platform (hplatform : q.platform = p.platform)
    (hcallbacks : q.eventCallbacks = p.eventCallbacks) : q.central = p.central := by
  obtain ⟨hcore, hvconf, haul, hi18n, -, -⟩ := Platform.mk.inj hplatform
  rw [central, hcore, hvconf, haul, hi18n, hcallbacks]
  rfl

/-! ### What is none of the two modules' business -/

/-- What the loop appends invokes no event callback. -/
theorem Appends.eventCallbacks (h : Appends Call.IsLoop p q) :
    q.eventCallbacks = p.eventCallbacks := by
  obtain ⟨l, hl, hq⟩ := h
  exact eventCallbacks_of_append hq fun c hc => (hl c hc).eventCallback_eq_none

/-- An event of the loop that is no API call. -/
theorem central_step {x : Event × Answers} (hx : ∀ c, x.1 ≠ .api c) (p : Process) :
    (p.step x).central = p.central :=
  central_of_platform (platform_step p hx) (appends_step p x).eventCallbacks

/-! ### One input -/

/-- **An API call** depends on what the two modules hold only. -/
theorem central_runApi (h : q.central = p.central) (c : ApiCall) :
    (q.runApi c).central = (p.runApi c).central := by
  obtain ⟨hcore, hvconf, haul, hi18n, hcallbacks⟩ := Central.mk.inj h
  cases c with
  | init name ops a =>
      rw [runApi, runApi, appcoreInit_eq, appcoreInit_eq, hcore, hvconf, haul, hi18n]
      dsimp only
      split_ifs
      · exact h
      all_goals exact congrArg (Central.mk _ _ _ _) hcallbacks
  | exit =>
      rw [runApi, runApi, appcoreExit_eq, appcoreExit_eq, hcore, hvconf, hi18n]
      split_ifs
      all_goals exact congrArg (Central.mk _ _ _ _) hcallbacks
  | setEventCallback event cb data =>
      rw [runApi, runApi, setEventCallback, setEventCallback, hcore, hvconf, haul, hi18n]
      split
      · exact h
      · exact h
      · exact congrArg (Central.mk _ _ _ _) hcallbacks
  | setI18n domainname a =>
      rw [runApi, runApi, hcore, hvconf, haul, hi18n]
      exact congrArg (Central.mk _ _ _ _) hcallbacks
  | setSystemResourceReclaiming enable => exact h
  | flushMemory =>
      have hflush (p : Process) : (p.runApi .flushMemory).central = p.central := by
        refine central_of_platform ?_ (eventCallbacks_runApi .flushMemory p)
        obtain ⟨l, -, hp⟩ := logs_appcoreFlushMemory p
        rw [runApi, hp]
        rfl
      rw [hflush, hflush, h]
  | rotation c a ρ => exact h

/-- The API calls of a callback depend on what the two modules hold only. -/
theorem central_foldl_runApi (h : q.central = p.central) (cs : List ApiCall) :
    (cs.foldl (fun p c => p.runApi c) q).central =
      (cs.foldl (fun p c => p.runApi c) p).central := by
  induction cs generalizing p q with
  | nil => exact h
  | cons c cs ih => exact ih (central_runApi h c)

/-- The invocation of an event callback depends on what the two modules hold only. -/
theorem central_deliver (h : q.central = p.central) (op : SysOp) (n : Notification) :
    (q.deliver op n).central = (p.deliver op n).central := by
  rw [deliver, deliver]
  split
  · exact h
  · refine central_foldl_runApi ?_ n.calls
    obtain ⟨hcore, hvconf, haul, hi18n, hcallbacks⟩ := Central.mk.inj h
    rw [central, central, eventCallbacks, eventCallbacks, call, call, hcore, hvconf, haul, hi18n]
    rw [List.filterMap_append, List.filterMap_append]
    exact congrArg (Central.mk _ _ _ _) (congrArg (· ++ _) hcallbacks)

/-- The flush after a notification of low memory leaves what the two modules hold alone. -/
theorem central_postAfter (n : Notification) (p : Process) :
    (p.postAfter n).central = p.central := by
  rw [postAfter]
  split
  · exact central_of_platform (platform_cbApp .lowmemPost none n.answers p)
      (appends_cbApp .lowmemPost none n.answers p).eventCallbacks
  · rfl

/-- **A notification** depends on what the two modules hold only. -/
theorem central_vconfCb (h : q.central = p.central) (n : Notification) :
    (q.vconfCb n).central = (p.vconfCb n).central := by
  obtain ⟨hcore, hvconf, haul, hi18n, hcallbacks⟩ := Central.mk.inj h
  have hbefore : (q.updateBefore n).central = (p.updateBefore n).central := by
    rw [updateBefore, updateBefore, hi18n]
    split
    · rw [hcore, hvconf, haul]
      exact congrArg (Central.mk _ _ _ _) hcallbacks
    · rw [hcore, hvconf, haul]
      exact congrArg (Central.mk _ _ _ _) hcallbacks
    · exact h
  rw [vconfCb_eq, vconfCb_eq, route, route, central_postAfter, central_postAfter, hcore]
  split
  · exact hbefore
  · exact central_deliver hbefore _ n

/-- **One input** of a history. -/
theorem central_core (h : q.central = p.central) (y : CoreInput) :
    (q.act y.action).central = (p.act y.action).central := by
  cases y with
  | api c => exact central_runApi h c
  | vconf n =>
      have hvconf : q.vconf = p.vconf := congrArg Central.vconf h
      rw [CoreInput.action, act, act, hvconf]
      split
      · exact central_vconfCb h n
      · exact h

/-- A run of inputs of the core depends on what the two modules hold only. -/
theorem central_core_run (h : q.central = p.central) (ys : List CoreInput) :
    (Machine.run act q (ys.map CoreInput.action)).central =
      (Machine.run act p (ys.map CoreInput.action)).central := by
  induction ys generalizing p q with
  | nil => exact h
  | cons y ys ih => exact ih (central_core h y)

/-! ### Actions -/

/-- The API calls of the start-up: `appcore_init`, those of the callback `create`, and
`appcore_exit` when this one gives up. -/
def startInputs (p : Process) (m : MainCall) : List ApiCall :=
  if p.priv.name ≠ none ∨ ¬ Valid m ∨ m.argc = none ∨ m.argv = none then []
  else
    .init m.name (some eflOps) m.start.init ::
      if (p.initCall m).1 = -1 then []
      else
        ((m.ops.bind AppcoreOps.create).elim [] fun _ => m.start.createApi) ++
          if CreateFails m then [.exit] else []

/-- The API calls of the end of a call: those of `__after_loop`, and those of the callback
`terminate`. -/
def leaveInputs (p : Process) (a : Rotation.Answers) (cs : List ApiCall) : List ApiCall :=
  .rotation .unset a .done :: .exit :: (p.priv.ops.bind AppcoreOps.terminate).elim [] fun _ => cs

/-- The API calls and the notifications that an action consists of. -/
def coreInputs (p : Process) : Action → List CoreInput
  | .enter m => (p.startInputs m).map .api
  | .handle (.api c, _) => if p.priv.name = none then [] else [.api c]
  | .handle _ => []
  | .leave a cs => if p.priv.name = none then [] else (p.leaveInputs a cs).map .api
  | .api c => [.api c]
  | .vconf n => [.vconf n]
  | .aul .. => []

/-- API calls as inputs of the core are the calls one after the other. -/
theorem run_api (cs : List ApiCall) (p : Process) :
    Machine.run act p ((cs.map CoreInput.api).map CoreInput.action) =
      cs.foldl (fun p c => p.runApi c) p := by
  induction cs generalizing p with
  | nil => rfl
  | cons c cs ih => exact ih (p.runApi c)

/-- An entry leaves what the two modules hold alone, unless it is an event callback. -/
theorem central_call {c : Call} (hc : c.eventCallback = none) (p : Process) :
    (p.call c).central = p.central :=
  central_of_platform rfl (eventCallbacks_of_append (l := [c]) rfl (by simpa using hc))

/-- Of `create` the core sees the API calls, if there is a `create`. -/
theorem central_createCall (m : MainCall) (h : q.central = p.central) :
    (q.createCall m).central =
      (((m.ops.bind AppcoreOps.create).elim [] fun _ => m.start.createApi).foldl
        (fun p c => p.runApi c) p).central := by
  rw [createCall]
  cases m.ops with
  | none => exact h
  | some ops =>
      rw [Option.bind_some]
      dsimp only
      cases ops.create with
      | none => exact h
      | some fn => exact central_foldl_runApi ((central_call rfl q).trans h) m.start.createApi

/-- **The start of a call** is a history. -/
theorem central_startUp (m : MainCall) (p : Process) :
    (p.startUp m).2.central =
      ((p.startInputs m).foldl (fun p c => p.runApi c) p).central := by
  by_cases hidle : p.priv.name = none
  · have hinit : (p.initCall m).2.central =
        (p.runApi (.init m.name (some eflOps) m.start.init)).central := by
      have hcall : ((p.dataSet m).call .elmInit).central = p.central := central_call rfl _
      exact central_runApi hcall (.init m.name (some eflOps) m.start.init)
    have hcreate := central_createCall m hinit
    rw [startUp_eq hidle, startInputs]
    by_cases hvalid : Valid m
    · by_cases hargs : m.argc = none ∨ m.argv = none
      · rw [if_neg (not_not.mpr hvalid), if_pos hargs, if_pos (.inr (.inr hargs))]
        rfl
      · have hgoes : ¬ (p.priv.name ≠ none ∨ ¬ Valid m ∨ m.argc = none ∨ m.argv = none) := by
          rintro (hbusy | hinvalid | hargs')
          · exact hbusy hidle
          · exact hinvalid hvalid
          · exact hargs hargs'
        rw [if_neg (not_not.mpr hvalid), if_neg hargs, if_neg hgoes, List.foldl_cons]
        dsimp only
        by_cases hres : (p.initCall m).1 = -1
        · rw [if_pos hres, if_pos hres]
          exact hinit
        · rw [if_neg hres, if_neg hres]
          by_cases hfails : CreateFails m
          · rw [if_pos hfails, if_pos hfails, List.foldl_append]
            exact central_runApi hcreate .exit
          · rw [if_neg hfails, if_neg hfails, List.append_nil]
            exact (central_call rfl _).trans hcreate
    · rw [if_pos hvalid, if_pos (.inr (.inl hvalid))]
      rfl
  · rw [startUp_of_busy hidle, startInputs, if_pos (.inl hidle)]
    rfl

/-- **The end of a call** is a history. -/
theorem central_leave (a : Rotation.Answers) (cs : List ApiCall) (p : Process) :
    (p.leave a cs).central =
      ((p.leaveInputs a cs).foldl (fun p c => p.runApi c) p).central := by
  have htear (q : Process) : q.tearDown.central = q.central := by
    refine central_of_platform ?_ ?_
    · rw [tearDown_eq]
      rfl
    · refine eventCallbacks_of_append (congrArg Process.calls (tearDown_eq q)) fun c hc => ?_
      rcases List.mem_append.mp hc with hc | hc
      · exact Call.IsLoop.eventCallback_eq_none (.inr (.inr (isTimer_timerDel q c hc)))
      · rw [List.mem_singleton.mp hc]
        rfl
  have hexit : (p.exitLoop a).priv.ops = p.priv.ops := by
    rw [exitLoop]
    exact congrArg UiPriv.ops (priv_runApi .exit _)
  rw [leave, htear, runTerminate, hexit, leaveInputs, List.foldl_cons, List.foldl_cons]
  cases p.priv.ops with
  | none => rfl
  | some ops =>
      rw [Option.bind_some]
      dsimp only
      cases ops.terminate with
      | none => rfl
      | some fn => exact central_foldl_runApi (central_call rfl _) cs

/-- **An action** is a history. -/
theorem central_act (p : Process) (x : Action) :
    (p.act x).central = (Machine.run act p ((p.coreInputs x).map CoreInput.action)).central := by
  cases x with
  | enter m =>
      rw [coreInputs, run_api]
      exact central_startUp m p
  | handle x =>
      obtain ⟨e, a⟩ := x
      by_cases hname : p.priv.name = none
      · rw [act, if_pos hname]
        cases e with
        | api c => rw [coreInputs, if_pos hname]; rfl
        | _ => rfl
      · rw [act, if_neg hname]
        cases e with
        | api c => rw [coreInputs, if_neg hname]; rfl
        | _ => exact central_step (fun c hc => by cases hc) p
  | leave a cs =>
      rw [act, coreInputs]
      split
      · rfl
      · rw [run_api]
        exact central_leave a cs p
  | api c => rfl
  | vconf n => rfl
  | aul type b a =>
      rw [act]
      split
      · exact central_of_platform (platform_aulHandler type b a p)
          (appends_aulHandler type b a p).eventCallbacks
      · rfl

end Process

/-! ### Runs of the system -/

namespace System

variable {w : ℕ}

/-- The API calls and the notifications that an input consists of. A request to resume
comes with the API calls of the callback of `appcore_set_open_cb`. -/
def coreInputs (s : System) : Input w → List CoreInput
  | .action (.aul .resume _ _) a =>
      if s.process.aul = true ∧ s.openS.callback ≠ none then a.calls.map .api else []
  | .action x _ => s.process.coreInputs x
  | _ => []

/-- **The history of a run.** -/
def coreHistory (s : System) (is : List (Input w)) : List CoreInput :=
  Machine.outputs (fun s i => (s.step i, s.coreInputs i)) s is

/-- Of a resume request the core sees the API calls of the open callback. -/
theorem central_resume (b : Ptr) (c : Answers) (a : ResumeAnswers) (s : System) :
    let i : Input w := .action (.aul .resume b c) a
    (s.step i).process.central =
      (Machine.run Process.act s.process ((s.coreInputs i).map CoreInput.action)).central := by
  intro i
  have hinputs : s.coreInputs i =
      if s.process.aul = true ∧ s.openS.callback ≠ none then a.calls.map .api else [] := rfl
  rw [hinputs, step, act]
  by_cases haul : s.process.aul = true
  · rw [if_pos haul, process_aulResume_eq]
    by_cases hcb : s.openS.callback = none
    · rw [if_pos hcb, if_neg fun h => h.2 hcb]
      rfl
    · rw [if_neg hcb, if_pos ⟨haul, hcb⟩, List.map_map]
      rfl
  · rw [if_neg haul, if_neg fun h => haul h.1]
    rfl

/-- A request to resume is the one action whose history the process does not make. -/
theorem coreInputs_of_ne {x : Process.Action} (hx : ∀ b c, x ≠ .aul .resume b c)
    (a : ResumeAnswers) (s : System) :
    s.coreInputs (.action x a : Input w) = s.process.coreInputs x := by
  cases x with
  | aul type b c =>
      cases type with
      | resume => exact absurd rfl (hx b c)
      | _ => rfl
  | _ => rfl

/-- **One input** is a history. -/
theorem central_step (s : System) (i : Input w) :
    (s.step i).process.central =
      (Machine.run Process.act s.process ((s.coreInputs i).map CoreInput.action)).central := by
  cases i with
  | action x a =>
      by_cases hresume : ∃ b c, x = .aul .resume b c
      · obtain ⟨b, c, rfl⟩ := hresume
        exact central_resume b c a s
      · have hx : ∀ b c, x ≠ .aul .resume b c := fun b c h => hresume ⟨b, c, h⟩
        rw [coreInputs_of_ne hx a s, step, process_act hx]
        exact Process.central_act s.process x
  | setOpenCb cb data => rfl
  | idle id getenv now stack =>
      rw [step, idle]
      split <;> rfl
  | rotation x => rfl

/-- **A run of the system is a history** of API calls and notifications, as far as
`appcore.c`, `appcore-i18n.c` and the event callbacks are concerned. -/
theorem central_system (s : System) (is : List (Input w)) :
    (Machine.run step s is).process.central =
      (Machine.run Process.act s.process ((s.coreHistory is).map CoreInput.action)).central := by
  induction is generalizing s with
  | nil => rfl
  | cons i is ih =>
      have hcons : s.coreHistory (i :: is) = s.coreInputs i ++ (s.step i).coreHistory is := rfl
      rw [Machine.run_cons, ih, hcons, List.map_append, Machine.run_append]
      exact Process.central_core_run (central_step s i) _

end System

end AppCore
