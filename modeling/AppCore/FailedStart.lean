import AppCore.FlushTimer
import AppCore.Targets

/-!
# A Start that Fails

The start-up of `appcore_efl_main` calls `elm_init`, then `appcore_init`, then the callback
`create`, which may acquire more. The exits that give up the start undo `__set_data` and,
after `create`, `appcore_init`; they do not shut Elementary down or unset a rotation
callback, as `__after_loop` does, and a `create` that returns an error other than -1 does
not stop the start at all.

## Main results

* `tidy_act`: with no call under way `priv` is zero and no event handler is live.
* `released_iff`: **which calls release everything without having run**.
* `failedStart_iff`: **when a failed start releases everything**.
* `not_released_createFails`: a `create` that sets a rotation callback and fails.
-/

set_option autoImplicit false

namespace AppCore

namespace Process

/-! ### Between calls -/

/-- The live event handlers are those the module has handles of, and between calls `priv` is
zero. -/
structure Tidy (p : Process) : Prop where
  handlers : p.handlers = p.priv.handlers
  idle : p.priv.name = none → p.priv = .zero

variable {p q : Process}

/-- No event handler is live while no call is under way. -/
theorem Tidy.handlers_of_idle (h : Tidy p) (hidle : p.priv.name = none) : p.handlers = [] := by
  rw [h.handlers, h.idle hidle]
  rfl

/-- What leaves the EFL module alone leaves it tidy. -/
theorem Tidy.outside {P : Call → Prop} (h : Tidy p) (hout : Outside P p q) : Tidy q := by
  obtain ⟨_, _, _, _, _, _, l, -, rfl⟩ := hout
  exact ⟨h.handlers, h.idle⟩

/-- `__do_app` and the loop touch neither the handlers nor the name. -/
theorem Tidy.does {a : Answers} {e : AppEvent} (h : Tidy p) (hname : p.priv.name ≠ none)
    (hdoes : Does a p e q) : Tidy q := by
  obtain ⟨_, _, _, _, _, rfl, -⟩ := does_frame hdoes
  exact ⟨h.handlers, fun hnone => absurd hnone hname⟩

/-- An event of the loop adds no event handler and takes none away. -/
theorem Tidy.stepped {a : Answers} {e : Event} (h : Tidy p) (hname : p.priv.name ≠ none)
    (hstep : Stepped a p e q) : Tidy q := by
  cases hstep with
  | windows => exact ⟨h.handlers, h.idle⟩
  | switch _ _ hdoes =>
      refine Tidy.does ?_ ?_ hdoes
      · exact ⟨h.handlers, h.idle⟩
      · exact hname
  | app _ hdoes => exact h.does hname hdoes
  | timer t =>
      by_cases hlive : t ∈ p.timers
      · obtain ⟨l, -, -, heq⟩ := timerExpired_of_mem hlive
        rw [heq]
        exact ⟨h.handlers, fun hnone => absurd hnone hname⟩
      · rwa [timerExpired_of_notMem hlive]
  | api c => exact h.outside (outside_runApi c p)

/-- A start registers the three handlers of its call, or gives up before. -/
theorem Tidy.startUp (h : Tidy p) (m : MainCall) : Tidy (p.startUp m).2 := by
  by_cases hidle : p.priv.name = none
  · have hnil := h.handlers_of_idle hidle
    have hstarted := started_startUp m p
    generalize p.startUp m = r at hstarted
    cases hstarted with
    | refused => exact h
    | failed hout =>
        obtain ⟨_, _, _, _, _, _, l, -, rfl⟩ := hout
        exact ⟨hnil, fun _ => rfl⟩
    | entered hname hout =>
        refine ⟨?_, fun hnone => absurd hnone hname⟩
        change p.handlers ++ (p.entryPriv m).handlers = _
        rw [hnil]
        rfl
  · rw [startUp_of_busy hidle]
    exact h

/-- The end of a call deletes the three handlers. -/
theorem Tidy.leave (h : Tidy p) (a : Rotation.Answers) (cs : List ApiCall) :
    Tidy (p.leave a cs) := by
  obtain ⟨q, hout, heq⟩ := leave_eq a cs p
  have hq := h.outside hout
  rw [heq, tearDown_eq]
  refine ⟨?_, fun _ => rfl⟩
  change q.handlers.diff q.priv.handlers = []
  rw [hq.handlers]
  induction q.priv.handlers with
  | nil => rfl
  | cons t l ih => rwa [List.diff_cons, List.erase_cons_head]

/-- **One action** of a legal application keeps things tidy. -/
theorem tidy_act (ht : Targets p) (h : Tidy p) (x : Action) : Tidy (p.act x) := by
  have hact := acted_act p x
  generalize p.act x = q at hact
  cases hact with
  | enter m => exact h.startUp m
  | leave a cs => exact h.leave a cs
  | loop hname hstep => exact h.stepped hname hstep
  | request hdo => exact h.does (ht.efl hdo) (does_doApp _ _ _ p)
  | outside hout => exact h.outside hout

/-! ### What a failed start leaves -/

/-- **The call released everything without having run**: it returned -1, entered no loop and
invoked no callback `terminate`; it shut Elementary down as often as it initialised it;
`core.state` and the followed keys are as before; no rotation callback and no registration
with the sensor is there that was not there before; no event handler and no timer is live;
and `priv` is zero. -/
structure Released (m : MainCall) (p : Process) : Prop where
  result : (p.appcoreEflMain m).1 = -1
  elmRun : .elmRun ∉ newCalls p (p.appcoreEflMain m).2
  terminate : ∀ fn data, .terminate fn data ∉ newCalls p (p.appcoreEflMain m).2
  elm : (newCalls p (p.appcoreEflMain m).2).count .elmInit =
    (newCalls p (p.appcoreEflMain m).2).count .elmShutdown
  state : (p.appcoreEflMain m).2.core.state = p.core.state
  vconf : (p.appcoreEflMain m).2.vconf = p.vconf
  callback : (p.appcoreEflMain m).2.rotation.rot.callback ≠ none →
    (p.appcoreEflMain m).2.rotation.rot.callback = p.rotation.rot.callback
  registered : ∀ handle, (p.appcoreEflMain m).2.rotation.registered handle ≠ none →
    (p.appcoreEflMain m).2.rotation.registered handle = p.rotation.registered handle
  handlers : (p.appcoreEflMain m).2.handlers = []
  timers : (p.appcoreEflMain m).2.timers = []
  priv : (p.appcoreEflMain m).2.priv = .zero

/-- The start-up fails as the header says: it does not get as far as `create`, or `create`
returns an error. -/
def StartFails (m : MainCall) (p : Process) : Prop :=
  ¬ Admits m p ∨ m.ops.bind AppcoreOps.create ≠ none ∧ m.start.create ≠ 0

/-- The start-up gives up before it calls `elm_init`. -/
def BeforeElm (m : MainCall) : Prop :=
  ¬ Valid m ∨ m.argc = none ∨ m.argv = none

/-- A start-up that fails is the whole call. -/
theorem appcoreEflMain_of_startUp {m : MainCall} (h : (p.startUp m).1 = -1) :
    p.appcoreEflMain m = (-1, (p.startUp m).2) := by
  rw [appcoreEflMain, h]
  rfl

/-- Before `elm_init` nothing was acquired that is not undone. -/
theorem released_of_beforeElm {m : MainCall} (hidle : p.priv.name = none) (htidy : Tidy p)
    (htimers : p.timers = []) (h : BeforeElm m) : Released m p := by
  have heq : p.startUp m = (-1, p) := by
    have hzero : ({ p with priv := .zero } : Process) = p := by
      rw [← htidy.idle hidle]
    rw [startUp_eq hidle]
    by_cases hvalid : Valid m
    · rw [if_neg (not_not.mpr hvalid), if_pos (h.resolve_left (not_not.mpr hvalid)), hzero]
    · rw [if_pos hvalid]
  have hmain : p.appcoreEflMain m = (-1, p) := by
    rw [appcoreEflMain_of_startUp (by rw [heq]), heq]
  have hnew : newCalls p p = [] := newCalls_of_append (List.append_nil _).symm
  have hhandlers := htidy.handlers_of_idle hidle
  exact {
    result := by rw [hmain]
    elmRun := by simp [hmain, hnew]
    terminate := by simp [hmain, hnew]
    elm := by simp [hmain, hnew]
    state := by rw [hmain]
    vconf := by rw [hmain]
    callback := by simp [hmain]
    registered := by simp [hmain]
    handlers := by rw [hmain]; exact hhandlers
    timers := by rw [hmain]; exact htimers
    priv := by rw [hmain]; exact htidy.idle hidle }

/-- Entries other than `elm_shutdown`, after that of `elm_init`. -/
def Unbalanced (p q : Process) : Prop :=
  ∃ l, .elmShutdown ∉ l ∧ q.calls = p.calls ++ .elmInit :: l

/-- A call that leaves Elementary initialised has not released everything. -/
theorem Unbalanced.not_released {m : MainCall} (h : Unbalanced p (p.appcoreEflMain m).2) :
    ¬ Released m p := by
  obtain ⟨l, hl, hq⟩ := h
  intro hreleased
  have helm := hreleased.elm
  rw [newCalls_of_append hq, List.count_cons_self, List.count_cons_of_ne (by simp),
    List.count_eq_zero_of_not_mem hl] at helm
  exact Nat.succ_ne_zero _ helm

/-- No exit of the start-up shuts Elementary down. -/
theorem unbalanced_of_outside {m : MainCall}
    (h : Outside (fun c => c ≠ .elmShutdown) ((p.dataSet m).call .elmInit) q) :
    Unbalanced p q.unsetData := by
  obtain ⟨l, hl, hq⟩ := h.newCalls
  refine ⟨l, fun hmem => hl _ hmem rfl, ?_⟩
  rw [Process.unsetData, hq]
  exact List.append_assoc _ _ _

/-- From `elm_init` on a call that fails leaves Elementary initialised, and one that does
not fail runs. -/
theorem not_released_of_elm {m : MainCall} (hidle : p.priv.name = none) (h : ¬ BeforeElm m) :
    ¬ Released m p := by
  obtain ⟨hvalid, hargs⟩ := not_or.mp h
  have hflush (c : Call) (hc : c.IsFlush) : c ≠ .elmShutdown := by
    rintro rfl
    exact hc
  have hinit : Outside (fun c => c ≠ .elmShutdown) ((p.dataSet m).call .elmInit)
      (p.initCall m).2 :=
    (outside_runApi (.init m.name (some eflOps) m.start.init) _).mono hflush
  have hcreate := hinit.trans (outside_createCall hflush (by simp) m _)
  have heq := startUp_eq hidle m
  rw [if_neg hvalid, if_neg hargs] at heq
  dsimp only at heq
  by_cases hres : (p.initCall m).1 = -1
  · rw [if_pos hres] at heq
    refine Unbalanced.not_released ?_
    rw [appcoreEflMain_of_startUp (by rw [heq]), heq]
    exact unbalanced_of_outside hinit
  · rw [if_neg hres] at heq
    by_cases hfails : CreateFails m
    · rw [if_pos hfails] at heq
      have hexit := hcreate.trans ((outside_runApi .exit _).mono hflush)
      refine Unbalanced.not_released ?_
      rw [appcoreEflMain_of_startUp (by rw [heq]), heq]
      exact unbalanced_of_outside hexit
    · rw [if_neg hfails] at heq
      intro hreleased
      have hone : (p.appcoreEflMain m).1 = 0 := by
        rw [appcoreEflMain, heq]
        rfl
      exact absurd (hone.symm.trans hreleased.result) (by decide)

/-! ### Sessions -/

/-- **Which calls release everything without having run**: those that give up before
`elm_init`. -/
theorem released_iff (htidy : Tidy p) (hdisc : Disciplined p) (hidle : p.priv.name = none)
    (m : MainCall) : Released m p ↔ BeforeElm m := by
  have htimers : p.timers = [] := by
    rw [hdisc.timers, hdisc.idle hidle]
    rfl
  constructor
  · intro h
    by_contra hnot
    exact not_released_of_elm hidle hnot h
  · exact released_of_beforeElm hidle htidy htimers

/-- Sessions of a legal application stay tidy. -/
theorem tidy_run {as : List Action} (has : ∀ x ∈ as, x.Legal) (env : EnvVar → Option String)
    (locale : LcCategory → String) (rotateLock : Bool) :
    Tidy (Machine.run act (.fresh env locale rotateLock) as) :=
  (Machine.AtEach.run_invariant (I := fun q => Targets q ∧ Tidy q) (G := fun _ x => x.Legal)
    (fun _ x hq hx => ⟨targets_act hq.1 hx, tidy_act hq.1 hq.2 x⟩)
    ⟨targets_fresh env locale rotateLock, ⟨rfl, fun _ => rfl⟩⟩
    (Machine.atEach_of_forall has)).2

/-- **When a failed start releases everything**: a call made in any session while no loop is
running keeps the promise exactly when, if its start-up fails, it fails before
`elm_init`. -/
theorem failedStart_iff (env : EnvVar → Option String) (locale : LcCategory → String)
    (rotateLock : Bool) {as : List Action} (has : ∀ x ∈ as, x.Legal)
    (hidle : (Machine.run act (.fresh env locale rotateLock) as).priv.name = none)
    (m : MainCall) :
    let p := Machine.run act (.fresh env locale rotateLock) as
    (StartFails m p → Released m p) ↔ (StartFails m p → BeforeElm m) := by
  have htidy := tidy_run has env locale rotateLock
  have hdisc := disciplined_run (disciplined_fresh env locale rotateLock) as
  exact imp_congr_right fun _ => released_iff htidy hdisc hidle m

/-- A `create` that sets a rotation callback and returns an error. -/
def createFailsCall : MainCall :=
  { goodCall fullOps [] with
    start := ⟨true, goodInit, -1,
      [.rotation (.set (some 7) none) (goodCall fullOps []).after .done]⟩ }

/-- A whole call before it: the application is launched, covered and left. -/
def earlierCall : List Action :=
  [.enter (goodCall fullOps []), .aul .start (some 7) goodAnswers,
   .handle (.visibilityChange 1 true, goodAnswers), .leave (goodCall fullOps []).after []]

/-- After another call, a start without arguments releases everything, for it fails before
`elm_init`; one that fails at `create` does not. -/
theorem failedStart_iff_earlierCall :
    let p := Machine.run act plain earlierCall
    let m : MainCall := { goodCall fullOps [] with argv := none }
    (StartFails m p → Released m p) ∧
      ¬ (StartFails createFailsCall p → Released createFailsCall p) := by
  intro p m
  have hlegal : ∀ x ∈ earlierCall, x.Legal := by
    simp [earlierCall, Action.Legal, Action.apiCalls, goodCall]
  have h := failedStart_iff (fun _ => none) (fun _ => "C") false hlegal rfl
  refine ⟨(h m).mpr fun _ => .inr (.inr rfl), fun hkept => ?_⟩
  have hfails : StartFails createFailsCall p := .inr ⟨by decide, by decide⟩
  have hbefore : BeforeElm createFailsCall := (h createFailsCall).mp hkept hfails
  simp [BeforeElm, Valid, createFailsCall, goodCall] at hbefore

/-- After the failing `create` Elementary is initialised, and the rotation callback is
registered with the sensor. -/
theorem not_released_createFails :
    let r := plain.appcoreEflMain createFailsCall
    StartFails createFailsCall plain ∧ ¬ Released createFailsCall plain ∧ r.1 = -1 ∧
      .elmShutdown ∉ r.2.calls ∧ r.2.rotation.rot.callback = some 7 ∧
      r.2.rotation.registered 0 = some none := by
  refine ⟨.inr ⟨by decide, by decide⟩, ?_, by decide, by decide, by decide, by decide⟩
  refine not_released_of_elm rfl ?_
  simp [BeforeElm, Valid, createFailsCall, goodCall]

end Process

end AppCore
