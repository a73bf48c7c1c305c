import AppCore.Dispatch
import AppCore.EflSpec
import AppCore.MainCall

/-!
# Sessions

The life of a process that uses the library, as a machine over `Process`. An action is the
start-up of an `appcore_efl_main` call, an event of its main loop, the end of the call, an
API call, a notification of vconf, or a request of the AUL daemon, in any order: whether an
action reaches the library is decided by the state. A call of `appcore_efl_main` is a run
of this machine.

## Main results

* `leave_eq_afterLoop`: the end of a call is `__after_loop` followed by `__unset_data`.
* `appcoreEflMain_eq_run`: **a call is a run** of its start-up, its events and its end.
* `startUp_eq`: what the start-up does, exit by exit.
-/

set_option autoImplicit false

namespace AppCore

/-- Applications cannot name `__do_app`, which is static. -/
def ApiCall.Legal : ApiCall → Prop
  | .init _ ops _ => ops.bind UiOps.cbApp ≠ some .doApp
  | _ => True

/-- The event handlers of a call. -/
def UiPriv.handlers (u : UiPriv) : List ℕ :=
  u.hshow.toList ++ u.hhide.toList ++ u.hvchange.toList

namespace Process

/-- What can happen to a process. The end of a call comes with the API calls that the
callback `terminate` makes. -/
inductive Action
  | enter (m : MainCall)
  | handle (x : Event × Answers)
  | leave (a : Rotation.Answers) (terminateApi : List ApiCall)
  | api (c : ApiCall)
  | vconf (n : Notification)
  | aul (type : AulType) (b : Ptr) (a : Answers)

/-- The API calls that an action makes on behalf of the application. -/
def Action.apiCalls : Action → List ApiCall
  | .enter m => m.start.createApi
  | .handle (.api c, _) => [c]
  | .handle _ => []
  | .leave _ cs => cs
  | .api c => [c]
  | .vconf n => n.calls
  | .aul .. => []

/-- An action of an application that does not call `appcore_exit` during a notification. -/
def Action.Legal (x : Action) : Prop :=
  (∀ c ∈ x.apiCalls, c.Legal) ∧ ∀ n, x = .vconf n → .exit ∉ n.calls

/-! ### The end of a call -/

/-- `__after_loop` up to the callback `terminate`. -/
def exitLoop (a : Rotation.Answers) (p : Process) : Process :=
  let p : Process := { p with rotation := p.rotation.runApi id .unset a }
  p.appcoreExit

/-- What follows the callback `terminate` in `appcore_efl_main`. -/
def tearDown (p : Process) : Process :=
  let p := p.handlerDel p.priv.hshow
  let p := p.handlerDel p.priv.hhide
  let p := p.handlerDel p.priv.hvchange
  let p := p.timerDel
  let p := p.call .elmShutdown
  p.unsetData

/-- What follows the loop in `appcore_efl_main`. -/
def leave (a : Rotation.Answers) (cs : List ApiCall) (p : Process) : Process :=
  ((p.exitLoop a).runTerminate cs).tearDown

/-- The end of a call is what `appcore_efl_main` does after the loop. -/
theorem leave_eq_afterLoop (a : Rotation.Answers) (cs : List ApiCall) (p : Process) :
    p.leave a cs = (p.afterLoop a cs).unsetData :=
  rfl

/-- Deleting a handler by its field, which may be NULL. -/
theorem handlerDel_eq (h : Option ℕ) (p : Process) :
    p.handlerDel h = { p with handlers := p.handlers.diff h.toList } := by
  cases h with
  | none => rfl
  | some h => simp [handlerDel, List.diff_cons]

/-- **What the tear-down does.** -/
theorem tearDown_eq (p : Process) :
    p.tearDown = { p with
      priv := .zero
      handlers := p.handlers.diff p.priv.handlers
      timers := p.priv.mftimer.elim p.timers p.timers.erase
      calls := p.calls ++ ((p.priv.mftimer.map Call.ecoreTimerDel).toList ++ [.elmShutdown]) } := by
  simp only [tearDown, handlerDel_eq, timerDel_eq, unsetData, call, UiPriv.handlers,
    List.diff_append, List.append_assoc]

/-! ### The machine -/

/-- **One action.** Events of a loop reach the library while a call is under way, a
notification when `__vconf_cb` follows the key, and a request of the AUL daemon when
`__aul_handler` is registered. -/
def act (p : Process) (x : Action) : Process :=
  match x with
  | .enter m => (p.startUp m).2
  | .handle x => if p.priv.name = none then p else p.step x
  | .leave a cs => if p.priv.name = none then p else p.leave a cs
  | .api c => p.runApi c
  | .vconf n => if n.name.all (fun k => decide (k ∈ p.vconf)) = true then p.vconfCb n else p
  | .aul type b a => if p.aul = true then p.aulHandler type b a else p

/-! ### The start of a call -/

/-- `__set_data` accepts the name and the callbacks. -/
def Valid (m : MainCall) : Prop :=
  m.name ≠ none ∧ m.name ≠ some "" ∧ m.ops ≠ none ∧ m.start.strdup = true

instance (m : MainCall) : Decidable (Valid m) :=
  inferInstanceAs (Decidable (_ ∧ _ ∧ _ ∧ _))

/-- `elm_init` and `appcore_init`, as `__before_loop` calls them. -/
def initCall (m : MainCall) (p : Process) : ℤ × Process :=
  ((p.dataSet m).call .elmInit).appcoreInit m.name (some eflOps) m.start.init

/-- The callback `create`, if there is one. -/
def createCall (m : MainCall) (p : Process) : Process :=
  match m.ops with
  | none => p
  | some ops =>
      match ops.create with
      | none => p
      | some fn => p.runCreate fn ops m.start

/-- API calls do not touch `priv`. -/
theorem priv_runApi (c : ApiCall) (p : Process) : (p.runApi c).priv = p.priv := by
  obtain ⟨_, _, _, _, _, _, _, -, h⟩ := outside_runApi c p
  rw [h]

/-- The initialisations leave `priv` as `__set_data` has written it. -/
theorem priv_initCall (m : MainCall) (p : Process) :
    (p.initCall m).2.priv = (p.dataSet m).priv :=
  priv_runApi (.init m.name (some eflOps) m.start.init) _

/-- `create` does not touch `priv`. -/
theorem priv_createCall (m : MainCall) (p : Process) : (p.createCall m).priv = p.priv := by
  rw [createCall]
  split
  · rfl
  · split
    · rfl
    · rw [runCreate]
      exact foldl_runApi (I := fun q => q.priv = p.priv)
        (fun c _ q hq => (priv_runApi c q).trans hq) rfl

/-- `__set_data` refuses what is not valid and leaves no trace. -/
theorem setData_of_not_valid {m : MainCall} {p : Process} (hidle : p.priv.name = none)
    (h : ¬ Valid m) : p.setData m.name m.ops m.start = (-1, p) := by
  rw [setData, if_neg (not_not.mpr hidle)]
  by_cases harg : m.name = none ∨ m.name = some ""
  · rw [if_pos harg]
  · obtain ⟨hname, hempty⟩ := not_or.mp harg
    rw [if_neg harg]
    by_cases hops : m.ops = none
    · rw [if_pos hops]
    · have hstrdup : m.start.strdup = false := by
        by_contra hne
        exact h ⟨hname, hempty, hops, by simpa using hne⟩
      obtain ⟨_, _, _, _, _, ⟨name, _, _, _, _, _, _, _⟩⟩ := p
      obtain rfl : name = none := hidle
      rw [if_neg hops, hstrdup]
      rfl

/-- **What the start-up does** when no call is under way, exit by exit. -/
theorem startUp_eq {p : Process} (hidle : p.priv.name = none) (m : MainCall) :
    p.startUp m =
      if ¬ Valid m then (-1, p)
      else if m.argc = none ∨ m.argv = none then (-1, { p with priv := .zero })
      else
        let r := p.initCall m
        if r.1 = -1 then (-1, r.2.unsetData)
        else if CreateFails m then (-1, (r.2.createCall m).appcoreExit.unsetData)
        else (0, (r.2.createCall m).enterLoop.call .elmRun) := by
  by_cases hvalid : Valid m
  · have ⟨hname, hempty, hops, hstrdup⟩ := hvalid
    rw [startUp_of_dataSet hidle hname hempty hops hstrdup, if_neg (not_not.mpr hvalid),
      beforeLoop]
    by_cases hargs : m.argc = none ∨ m.argv = none
    · rw [if_pos hargs, if_pos hargs]
      rfl
    · have hr : ((p.dataSet m).call .elmInit).appcoreInit
          ((p.dataSet m).call .elmInit).priv.name (some eflOps) m.start.init = p.initCall m := rfl
      have hrops : (p.initCall m).2.priv.ops = m.ops := by rw [priv_initCall, dataSet]
      rw [if_neg hargs, if_neg hargs]
      dsimp only
      rw [hr]
      generalize p.initCall m = r at hrops ⊢
      by_cases hinit : r.1 = -1
      · rw [if_pos hinit, if_pos hinit]
        rfl
      · obtain ⟨ops, hops⟩ := Option.ne_none_iff_exists'.mp hops
        rw [if_neg hinit, if_neg hinit, hrops, createCall, hops]
        rcases Option.eq_none_or_eq_some ops.create with hfn | ⟨fn, hfn⟩
        · have hcreate : ¬ CreateFails m := by simp [CreateFails, hops, hfn]
          simp only [hfn, if_neg hcreate]
          rfl
        · by_cases hret : m.start.create = -1
          · have hcreate : CreateFails m := ⟨by simp [hops, hfn], hret⟩
            simp only [hfn, if_pos hret, if_pos hcreate]
            rfl
          · have hcreate : ¬ CreateFails m := fun h => hret h.2
            simp only [hfn, if_neg hret, if_neg hcreate]
            rfl
  · rw [if_pos hvalid, startUp, setData_of_not_valid hidle hvalid]
    rfl

/-- A start while a call is under way is refused. -/
theorem startUp_of_busy {p : Process} (hbusy : p.priv.name ≠ none) (m : MainCall) :
    p.startUp m = (-1, p) := by
  rw [startUp, setData, if_pos hbusy]
  rfl

/-- An API call leaves the EFL module alone. -/
theorem outside_api (c : ApiCall) (p : Process) : Outside Call.IsOutside p (p.runApi c) :=
  (outside_runApi c p).mono fun _ hc => hc.isOutside

/-- The callback `create` and its API calls leave the EFL module alone. -/
theorem outside_createCall {P : Call → Prop} (hflush : ∀ c, c.IsFlush → P c)
    (hcreate : ∀ fn data, P (.create fn data)) (m : MainCall) (p : Process) :
    Outside P p (p.createCall m) := by
  rw [createCall]
  split
  · exact .refl p
  · split
    · exact .refl p
    · exact foldl_runApi (I := Outside P p)
        (fun c _ q hq => hq.trans ((outside_runApi c q).mono hflush))
        (outside_call (hcreate _ _) p)

/-- The initialisations leave the EFL module alone. -/
theorem outside_initCall (m : MainCall) (p : Process) :
    Outside Call.IsOutside (p.dataSet m) (p.initCall m).2 :=
  (outside_call (by simp [Call.IsOutside, Call.IsApp, Call.IsTimer]) _).trans
    (outside_api (.init m.name (some eflOps) m.start.init) _)

/-- `struct ui_priv` at the entry of the loop. -/
def entryPriv (m : MainCall) (p : Process) : UiPriv where
  name := m.name
  state := .created
  hshow := some p.nextHandler
  hhide := some (p.nextHandler + 1)
  hvchange := some (p.nextHandler + 2)
  mftimer := p.priv.mftimer
  ops := m.ops
  mfcb := some .eflMemoryFlushCb

/-- The start-up takes one of three ways: it refuses the call, it gives it up, or it enters
the loop. -/
inductive Started (m : MainCall) (p : Process) : ℤ × Process → Prop
  | refused : Started m p (-1, p)
  | failed {q : Process} : Outside Call.IsOutside (p.dataSet m) q → Started m p (-1, q.unsetData)
  | entered {q : Process} : m.name ≠ none → Outside Call.IsOutside (p.dataSet m) q →
      Started m p (0, { q with
        priv := p.entryPriv m
        handlers := p.handlers ++ (p.entryPriv m).handlers
        nextHandler := p.nextHandler + 3
        calls := q.calls ++ [.elmRun] })

/-- **What the start-up can do**, as far as the EFL module is concerned. -/
theorem started_startUp (m : MainCall) (p : Process) : Started m p (p.startUp m) := by
  by_cases hidle : p.priv.name = none
  · have hinit := outside_initCall m p
    have hcreate := hinit.trans (outside_createCall (fun _ hc => hc.isOutside)
      (by simp [Call.IsOutside, Call.IsApp, Call.IsTimer]) m _)
    rw [startUp_eq hidle]
    dsimp only
    split_ifs with hvalid hargs hres hret
    · exact Started.failed (q := p.dataSet m) (.refl _)
    · exact .failed hinit
    · exact .failed (hcreate.trans (outside_api .exit _))
    · have hentered := Started.entered hvalid.1 hcreate
      obtain ⟨_, _, _, _, _, _, _, -, heq⟩ := hcreate
      rw [heq] at hentered ⊢
      exact hentered
    · exact .refused
  · rw [startUp_of_busy hidle]
    exact .refused

/-- The first half of `__after_loop` leaves the EFL module alone. -/
theorem outside_exitLoop (a : Rotation.Answers) (p : Process) :
    Outside Call.IsOutside p (p.exitLoop a) := by
  refine Outside.trans ?_ (outside_api .exit _)
  exact ⟨_, _, _, _, _, _, .refl _⟩

/-- `terminate` leaves the EFL module alone. -/
theorem outside_runTerminate (cs : List ApiCall) (p : Process) :
    Outside Call.IsOutside p (p.runTerminate cs) := by
  rw [runTerminate]
  split
  · exact .refl p
  · split
    · exact .refl p
    · exact foldl_runApi (I := Outside Call.IsOutside p)
        (fun c _ q hq => hq.trans (outside_api c q))
        (outside_call (by simp [Call.IsOutside, Call.IsApp, Call.IsTimer]) p)

/-- What the end of a call does to the EFL module is done by the tear-down. -/
theorem leave_eq (a : Rotation.Answers) (cs : List ApiCall) (p : Process) :
    ∃ q, Outside Call.IsOutside p q ∧ p.leave a cs = q.tearDown :=
  ⟨_, (outside_exitLoop a p).trans (outside_runTerminate cs _), rfl⟩

/-! ### What an action can do -/

/-- A notification leaves the EFL module alone: at most it flushes memory. -/
theorem outside_vconfCb (n : Notification) (p : Process) :
    Outside Call.IsOutside p (p.vconfCb n) := by
  have hother {c : Call} (hc : c.IsOutside) {q : Process} (hq : Outside Call.IsOutside p q) :
      Outside Call.IsOutside p (q.call c) := hq.trans (outside_call hc q)
  refine vconfCb_rule (I := Outside Call.IsOutside p) ?_ ?_ ?_ ?_ (.refl p)
  · exact fun fn data q => hother (by simp [Call.IsOutside, Call.IsApp, Call.IsTimer])
  · exact fun c _ q hq => hq.trans (outside_api c q)
  · exact fun i q hq => hq.trans ⟨_, _, _, _, _, _, .refl _⟩
  · intro q hq
    rw [cbApp]
    split
    · exact hother (by simp [Call.IsOutside, Call.IsApp, Call.IsTimer]) hq
    · split
      · exact hother (by simp [Call.IsOutside, Call.IsApp, Call.IsTimer]) hq
      · have hdoes := does_doApp .lowmemPost none n.answers q
        generalize q.doApp .lowmemPost none n.answers = r at hdoes
        cases hdoes with
        | lowmemPost =>
            exact hq.trans ((logs_lowMemoryPostCb q).outside.mono fun _ hc => hc.isOutside)
        | move _ hne => exact absurd rfl hne
      · exact hother (by simp [Call.IsOutside, Call.IsApp, Call.IsTimer]) hq

/-- Where an action leaves a process: the start or the end of a call, a step of its loop,
a request that `__do_app` handles, or nothing that concerns the EFL module. -/
inductive Acted (p : Process) : Action → Process → Prop
  | enter (m : MainCall) : Acted p (.enter m) (p.startUp m).2
  | leave (a : Rotation.Answers) (cs : List ApiCall) : p.priv.name ≠ none →
      Acted p (.leave a cs) (p.leave a cs)
  | loop {e : Event} {a : Answers} {q : Process} : p.priv.name ≠ none → Stepped a p e q →
      Acted p (.handle (e, a)) q
  | request {type : AulType} {b c : Ptr} {a : Answers} {event : AppEvent} :
      p.core.ops.bind UiOps.cbApp = some .doApp → event = .reset ∨ event = .terminate →
      Acted p (.aul type b a) (p.doApp event c a)
  | outside {x : Action} {q : Process} : Outside Call.IsOutside p q → Acted p x q

/-- A request of the AUL daemon reaches `__do_app` or something else. -/
theorem acted_cbApp {event : AppEvent} (he : event = .reset ∨ event = .terminate)
    (type : AulType) (b c : Ptr) (a : Answers) (p : Process) :
    Acted p (.aul type b a) (p.cbApp event c a) := by
  rw [cbApp]
  split
  · exact .outside (outside_call (by simp [Call.IsOutside, Call.IsApp, Call.IsTimer]) p)
  · rename_i hops
    split
    · exact .outside (outside_call (by simp [Call.IsOutside, Call.IsApp, Call.IsTimer]) p)
    · rename_i hdo
      exact .request (by rw [hops]; exact hdo) he
    · exact .outside (outside_call (by simp [Call.IsOutside, Call.IsApp, Call.IsTimer]) p)

/-- A request of the daemon is an action for the EFL module, or none. -/
theorem acted_aulHandler (type : AulType) (b : Ptr) (a : Answers) (p : Process) :
    Acted p (.aul type b a) (p.aulHandler type b a) := by
  cases type with
  | start =>
      rw [aulHandler, appReset]
      split
      · exact .outside (.refl p)
      · split
        · exact .outside (.refl p)
        · exact acted_cbApp (.inl rfl) _ _ _ _ _
  | resume => exact .outside (.refl p)
  | terminate =>
      rw [aulHandler, appTerminate]
      split
      · exact .outside (.refl p)
      · split
        · exact .outside (.refl p)
        · exact acted_cbApp (.inr rfl) _ _ _ _ _
  | other => exact .outside (.refl p)

/-- **What an action can do.** -/
theorem acted_act (p : Process) (x : Action) : Acted p x (p.act x) := by
  cases x with
  | enter m => exact .enter m
  | handle x =>
      rw [act]
      split
      · exact .outside (.refl p)
      · rename_i hname
        exact .loop hname (stepped_step p x)
  | leave a cs =>
      rw [act]
      split
      · exact .outside (.refl p)
      · rename_i hname
        exact .leave a cs hname
  | api c => exact .outside (outside_api c p)
  | vconf n =>
      rw [act]
      split
      · exact .outside (outside_vconfCb n p)
      · exact .outside (.refl p)
  | aul type b a =>
      rw [act]
      split
      · exact acted_aulHandler type b a p
      · exact .outside (.refl p)

/-! ### A call is a run -/

/-- A call is under way after the start-up exactly when that succeeds. -/
theorem name_startUp {p : Process} (hidle : p.priv.name = none) (m : MainCall) :
    (p.startUp m).2.priv.name ≠ none ↔ (p.startUp m).1 = 0 := by
  rw [startUp_eq hidle]
  dsimp only
  split_ifs with hvalid hargs hinit hcreate
  · exact iff_of_false (not_not.mpr rfl) (Int.negSucc_ne_zero 0)
  · exact iff_of_false (not_not.mpr rfl) (Int.negSucc_ne_zero 0)
  · exact iff_of_false (not_not.mpr rfl) (Int.negSucc_ne_zero 0)
  · refine iff_of_true ?_ rfl
    change ((p.initCall m).2.createCall m).priv.name ≠ none
    rw [priv_createCall, priv_initCall]
    exact hvalid.1
  · exact iff_of_false (not_not.mpr hidle) (Int.negSucc_ne_zero 0)

/-- An event neither begins nor ends a call. -/
theorem name_step (p : Process) (x : Event × Answers) :
    (p.step x).priv.name = p.priv.name := by
  obtain ⟨e, a⟩ := x
  by_cases hapi : ∃ c, e = .api c
  · obtain ⟨c, rfl⟩ := hapi
    exact congrArg UiPriv.name (priv_runApi c p)
  · have hne : ∀ c, (e, a).1 ≠ .api c := fun c hc => hapi ⟨c, hc⟩
    obtain ⟨_, _, _, _, _, _, _, h⟩ := step_frame hne p
    rw [h]

/-- While a call is under way the machine makes the steps of its loop. -/
theorem run_handle {p : Process} (hname : p.priv.name ≠ none) (es : List (Event × Answers)) :
    Machine.run act p (es.map .handle) = Machine.run step p es ∧
      (Machine.run step p es).priv.name ≠ none := by
  induction es generalizing p with
  | nil => exact ⟨rfl, hname⟩
  | cons x es ih =>
      have hact : p.act (.handle x) = p.step x := if_neg hname
      rw [List.map_cons, Machine.run_cons, Machine.run_cons, hact]
      exact ih (by rwa [name_step])

/-- After a start-up that fails no call is under way. -/
theorem name_startUp_of_not_starts {m : MainCall} {p : Process} (hidle : p.priv.name = none)
    (h : ¬ Starts m p) : (p.startUp m).2.priv.name = none := by
  by_contra hne
  exact h ((startUp_fst m p).mp ((name_startUp hidle m).mp hne))

/-- When a call has returned, none is under way. -/
theorem name_appcoreEflMain {p : Process} (hidle : p.priv.name = none) (m : MainCall) :
    (p.appcoreEflMain m).2.priv.name = none := by
  by_cases hstarts : Starts m p
  · rw [appcoreEflMain, (startUp_fst m p).mpr hstarts]
    rfl
  · rw [appcoreEflMain_of_not_starts hstarts]
    exact name_startUp_of_not_starts hidle hstarts

/-- **A call is a run** of its start-up, its events and its end. After a start-up that
fails, the rest of the run does nothing. -/
theorem appcoreEflMain_eq_run {p : Process} (hidle : p.priv.name = none) (m : MainCall) :
    (p.appcoreEflMain m).2 =
      Machine.run act p
        (.enter m :: (m.events.map .handle ++ [.leave m.after m.terminateApi])) := by
  have henter : p.act (.enter m) = (p.startUp m).2 := rfl
  rw [Machine.run_cons, henter, Machine.run_snoc]
  by_cases hstarts : Starts m p
  · have hfst := (startUp_fst m p).mpr hstarts
    obtain ⟨hrun, hname⟩ := run_handle ((name_startUp hidle m).mpr hfst) m.events
    rw [hrun, act, if_neg hname, leave_eq_afterLoop, appcoreEflMain, hfst]
    rfl
  · have hname := name_startUp_of_not_starts hidle hstarts
    have hrun : Machine.run act (p.startUp m).2 (m.events.map .handle) = (p.startUp m).2 := by
      refine Machine.AtEach.run_invariant (I := fun q => q = (p.startUp m).2)
        (G := fun _ x => ∃ e, x = .handle e) ?_ rfl (Machine.atEach_of_forall fun x hx => ?_)
      · rintro q _ rfl ⟨e, rfl⟩
        exact if_pos hname
      · obtain ⟨e, -, rfl⟩ := List.mem_map.mp hx
        exact ⟨e, rfl⟩
    rw [hrun, act, if_pos hname, appcoreEflMain_of_not_starts hstarts]

end Process

end AppCore
