import AppCore.LifeCycle

/-!
# A Whole Call of `appcore_efl_main`

A call of `appcore_efl_main` either fails before the callback `create`, or fails because
`create` returns -1, or enters the main loop, handles its events and leaves again. This
module says which of the three happens, and what the call does to the life cycle in each
case.

## Main results

* `startUp_of_not_admits`, `startUp_of_createFails`, `startUp_of_starts`: the three
  outcomes of the start-up.
* `startUp_fst`: the start-up succeeds exactly when `Starts` holds.
* `life_appcoreEflMain`: **the life cycle of a call** that enters the loop is the run of
  the abstract life cycle from the state `created`.
-/

set_option autoImplicit false

namespace AppCore

namespace Process

/-- The start-up gets as far as the callback `create`: no call is under way, the
arguments are valid, and everything the call needs succeeds. -/
structure Admits (m : MainCall) (p : Process) : Prop where
  idle : p.priv.name = none
  name_ne_none : m.name ≠ none
  name_ne_empty : m.name ≠ some ""
  ops_ne_none : m.ops ≠ none
  strdup : m.start.strdup = true
  argc_ne_none : m.argc ≠ none
  argv_ne_none : m.argv ≠ none
  core_idle : p.core.state = 0
  i18n_ok : (p.i18n.setI18n m.name m.start.init.i18n).1 ≠ -1
  aulLaunchInit_ok : ¬ m.start.init.aulLaunchInit < 0
  aulLaunchArgvHandler_ok : ¬ m.start.init.aulLaunchArgvHandler < 0

/-- The application has a callback `create`, and it reports an error. -/
def CreateFails (m : MainCall) : Prop :=
  m.ops.bind AppcoreOps.create ≠ none ∧ m.start.create = -1

instance (m : MainCall) : Decidable (CreateFails m) :=
  inferInstanceAs (Decidable (_ ∧ _))

/-- The call enters the main loop. -/
def Starts (m : MainCall) (p : Process) : Prop :=
  Admits m p ∧ ¬ CreateFails m

/-- The trace entry of a callback `create`, if there is one. -/
def createCalls (ops : AppcoreOps) : List Call :=
  (ops.create.map (.create · ops.data)).toList

/-- The trace entry of a callback `terminate`, if there is one. -/
def terminateCalls (ops : AppcoreOps) : List Call :=
  (ops.terminate.map (.terminate · ops.data)).toList

/-- The life cycle at the entry of the main loop. -/
def entryLife (ops : AppcoreOps) (p : Process) : Life :=
  ⟨.created, some ops, p.bActive, p.gWinnodeList, p.life.trace ++ createCalls ops⟩

/-- The process once `__set_data` has stored the name and the callbacks. -/
def dataSet (m : MainCall) (p : Process) : Process :=
  { p with priv.name := m.name, priv.ops := m.ops, priv.mfcb := some .eflMemoryFlushCb }

/-! ### The steps of the start-up -/

/-- `appcore_init` as the start-up calls it succeeds unless it is in use or one of the
outside calls fails. -/
theorem appcoreInit_eflOps_fst (name : Option String) (a : InitAnswers) (p : Process) :
    (p.appcoreInit name (some eflOps) a).1 ≠ -1 ↔
      p.core.state = 0 ∧ (p.i18n.setI18n name a.i18n).1 ≠ -1 ∧ ¬ a.aulLaunchInit < 0 ∧
        ¬ a.aulLaunchArgvHandler < 0 := by
  have hcb : (some eflOps).bind UiOps.cbApp ≠ none := by simp [eflOps]
  rw [appcoreInit_eq]
  dsimp only
  split_ifs with hstate hi hinit hargv <;> simp_all

/-- `__set_data` succeeds for valid arguments unless a call is under way. -/
theorem setData_of_ok {m : MainCall} {p : Process} (hidle : p.priv.name = none)
    (hname : m.name ≠ none) (hempty : m.name ≠ some "") (hops : m.ops ≠ none)
    (hstrdup : m.start.strdup = true) :
    p.setData m.name m.ops m.start = (0, p.dataSet m) := by
  rw [setData, if_neg (by simpa using hidle), if_neg (by simp [hname, hempty]), if_neg hops]
  simp [hstrdup, dataSet]

/-- Otherwise it fails, and the life cycle goes on as before. -/
theorem setData_of_not_ok {m : MainCall} {p : Process}
    (h : ¬ (p.priv.name = none ∧ m.name ≠ none ∧ m.name ≠ some "" ∧ m.ops ≠ none ∧
      m.start.strdup = true)) :
    (p.setData m.name m.ops m.start).1 = -1 ∧
      (p.setData m.name m.ops m.start).2.life = p.life := by
  rw [setData]
  by_cases hname : p.priv.name ≠ none
  · rw [if_pos hname]
    exact ⟨rfl, rfl⟩
  · rw [if_neg hname]
    by_cases harg : m.name = none ∨ m.name = some ""
    · rw [if_pos harg]
      exact ⟨rfl, rfl⟩
    · rw [if_neg harg]
      by_cases hops : m.ops = none
      · rw [if_pos hops]
        exact ⟨rfl, rfl⟩
      · rw [if_neg hops]
        cases hstrdup : m.start.strdup with
        | false => exact ⟨rfl, rfl⟩
        | true =>
            obtain ⟨hnull, hempty⟩ := not_or.mp harg
            exact absurd ⟨not_not.mp hname, hnull, hempty, hops, hstrdup⟩ h

/-- The end of the start-up leaves the application in the state `created`, and changes
nothing else of the life cycle. -/
theorem life_enterLoop (p : Process) :
    p.enterLoop.life = { p.life with state := .created } := rfl

/-- The API calls that a callback makes are no part of the life cycle. -/
theorem life_foldl_runApi (cs : List ApiCall) (p : Process) :
    (cs.foldl (fun p c => p.runApi c) p).life = p.life := by
  induction cs generalizing p with
  | nil => rfl
  | cons c cs ih => exact (ih (p.runApi c)).trans (life_runApi c p)

/-- The callback `create` is invoked once. -/
theorem life_runCreate (fn : Addr) (ops : AppcoreOps) (a : StartAnswers) (p : Process) :
    (p.runCreate fn ops a).life = p.life.emit (.create fn ops.data) := by
  rw [runCreate, life_foldl_runApi]
  exact life_call_of_isLife rfl p

/-- Without `create`, or with one that reports no error, `__before_loop` enters the
loop once `appcore_init` has succeeded. -/
theorem beforeLoop_of_init {argc : Option ℤ} {argv : Ptr} {a : StartAnswers} {p : Process}
    {ops : AppcoreOps} (hargc : argc ≠ none) (hargv : argv ≠ none)
    (hinit : ((p.call .elmInit).appcoreInit p.priv.name (some eflOps) a.init).1 ≠ -1)
    (hops : p.priv.ops = some ops) :
    let r := p.beforeLoop argc argv a
    if ops.create ≠ none ∧ a.create = -1 then
      r.1 = -1 ∧ r.2.life = { p.life with trace := p.life.trace ++ createCalls ops }
    else
      r.1 = 0 ∧ r.2.life =
        { p.life with state := .created, trace := p.life.trace ++ createCalls ops } := by
  have hlife : ((p.call .elmInit).appcoreInit p.priv.name (some eflOps) a.init).2.life =
      p.life := (life_appcoreInit _ _ _ _).trans (life_call_of_not_isLife rfl p)
  intro r
  have hr : r = p.beforeLoop argc argv a := rfl
  have hnull : ¬ (argc = none ∨ argv = none) := not_or.mpr ⟨hargc, hargv⟩
  rw [beforeLoop, if_neg hnull] at hr
  have hname : (p.call .elmInit).priv.name = p.priv.name := rfl
  dsimp only at hr
  rw [hname, if_neg hinit] at hr
  generalize ((p.call .elmInit).appcoreInit p.priv.name (some eflOps) a.init).2 = q at hr hlife
  have hqops : q.priv.ops = some ops := (congrArg Life.ops hlife).trans hops
  rw [hqops] at hr
  dsimp only at hr
  cases hcreate : ops.create with
  | none =>
      rw [hcreate] at hr
      rw [if_neg (by simp), hr]
      exact ⟨rfl, by simp [life_enterLoop, hlife, createCalls, hcreate]⟩
  | some fn =>
      rw [hcreate] at hr
      dsimp only at hr
      by_cases hret : a.create = -1
      · rw [if_pos hret] at hr
        rw [if_pos ⟨by simp, hret⟩, hr]
        refine ⟨rfl, ?_⟩
        rw [life_appcoreExit, life_runCreate, hlife]
        simp [Life.emit, createCalls, hcreate]
      · rw [if_neg hret] at hr
        rw [if_neg (fun h => hret h.2), hr]
        refine ⟨rfl, ?_⟩
        rw [life_enterLoop, life_runCreate, hlife]
        simp [Life.emit, createCalls, hcreate]

/-- When `appcore_init` fails, `__before_loop` fails without a trace of it in the life
cycle. -/
theorem beforeLoop_of_not_init {argc : Option ℤ} {argv : Ptr} {a : StartAnswers}
    {p : Process}
    (h : argc = none ∨ argv = none ∨
      ((p.call .elmInit).appcoreInit p.priv.name (some eflOps) a.init).1 = -1) :
    (p.beforeLoop argc argv a).1 = -1 ∧ (p.beforeLoop argc argv a).2.life = p.life := by
  have hlife : ((p.call .elmInit).appcoreInit p.priv.name (some eflOps) a.init).2.life =
      p.life := (life_appcoreInit _ _ _ _).trans (life_call_of_not_isLife rfl p)
  have hname : (p.call .elmInit).priv.name = p.priv.name := rfl
  rw [beforeLoop]
  by_cases hnull : argc = none ∨ argv = none
  · rw [if_pos hnull]
    exact ⟨rfl, rfl⟩
  · have hinit : ((p.call .elmInit).appcoreInit p.priv.name (some eflOps) a.init).1 = -1 := by
      tauto
    rw [if_neg hnull]
    dsimp only
    rw [hname, if_pos hinit]
    exact ⟨rfl, hlife⟩

/-! ### The three outcomes of the start-up -/

/-- After `__set_data` the call of `appcore_init` succeeds as the process before it
decides. -/
theorem appcoreInit_dataSet_fst (m : MainCall) (p : Process) :
    (((p.dataSet m).call .elmInit).appcoreInit (p.dataSet m).priv.name (some eflOps)
        m.start.init).1 ≠ -1 ↔
      p.core.state = 0 ∧ (p.i18n.setI18n m.name m.start.init.i18n).1 ≠ -1 ∧
        ¬ m.start.init.aulLaunchInit < 0 ∧ ¬ m.start.init.aulLaunchArgvHandler < 0 :=
  appcoreInit_eflOps_fst m.name m.start.init _

/-- Once the data is set, the result of `__before_loop` decides. -/
theorem startUp_of_dataSet {m : MainCall} {p : Process} (hidle : p.priv.name = none)
    (hname : m.name ≠ none) (hempty : m.name ≠ some "") (hops : m.ops ≠ none)
    (hstrdup : m.start.strdup = true) :
    p.startUp m =
      let r := (p.dataSet m).beforeLoop m.argc m.argv m.start
      if r.1 = -1 then (-1, r.2.unsetData) else (0, r.2.call .elmRun) := by
  rw [startUp, setData_of_ok hidle hname hempty hops hstrdup]
  rfl

/-- The start-up **fails before `create`**: nothing is recorded, and the windows and
`b_active` are untouched. -/
theorem startUp_of_not_admits {m : MainCall} {p : Process} (h : ¬ Admits m p) :
    (p.startUp m).1 = -1 ∧ (p.startUp m).2.life.trace = p.life.trace ∧
      (p.startUp m).2.bActive = p.bActive ∧
      (p.startUp m).2.gWinnodeList = p.gWinnodeList := by
  by_cases hset : p.priv.name = none ∧ m.name ≠ none ∧ m.name ≠ some "" ∧ m.ops ≠ none ∧
      m.start.strdup = true
  · obtain ⟨hidle, hname, hempty, hops, hstrdup⟩ := hset
    have hinit : m.argc = none ∨ m.argv = none ∨
        (((p.dataSet m).call .elmInit).appcoreInit (p.dataSet m).priv.name (some eflOps)
          m.start.init).1 = -1 := by
      by_contra hcon
      simp only [not_or] at hcon
      obtain ⟨hargc, hargv, hinit⟩ := hcon
      obtain ⟨hcore, hi18n, haul, hargvh⟩ := (appcoreInit_dataSet_fst m p).mp hinit
      exact h ⟨hidle, hname, hempty, hops, hstrdup, hargc, hargv, hcore, hi18n, haul, hargvh⟩
    obtain ⟨hfst, hlife⟩ := beforeLoop_of_not_init hinit
    rw [startUp_of_dataSet hidle hname hempty hops hstrdup]
    dsimp only
    rw [if_pos hfst]
    have htrace := congrArg Life.trace hlife
    have hactive := congrArg Life.bActive hlife
    have hwins := congrArg Life.wins hlife
    exact ⟨rfl, htrace, hactive, hwins⟩
  · obtain ⟨hfst, hlife⟩ := setData_of_not_ok hset
    rw [startUp]
    dsimp only
    rw [if_pos hfst]
    exact ⟨rfl, congrArg Life.trace hlife, congrArg Life.bActive hlife,
      congrArg Life.wins hlife⟩

/-- What is decided once nothing stands between the start-up and `create`. -/
theorem startUp_of_admits {m : MainCall} {p : Process} {ops : AppcoreOps}
    (h : Admits m p) (hops : m.ops = some ops) :
    (CreateFails m ∧ (p.startUp m).1 = -1 ∧
      (p.startUp m).2.life = ⟨.none, none, p.bActive, p.gWinnodeList,
        p.life.trace ++ createCalls ops⟩) ∨
    (¬ CreateFails m ∧ (p.startUp m).1 = 0 ∧ (p.startUp m).2.life = entryLife ops p) := by
  have hinit := (appcoreInit_dataSet_fst m p).mpr
    ⟨h.core_idle, h.i18n_ok, h.aulLaunchInit_ok, h.aulLaunchArgvHandler_ok⟩
  have hloop := beforeLoop_of_init h.argc_ne_none h.argv_ne_none hinit
    (show (p.dataSet m).priv.ops = some ops from hops)
  have hfails : CreateFails m ↔ ops.create ≠ none ∧ m.start.create = -1 := by
    rw [CreateFails, hops, Option.bind_some]
  rw [startUp_of_dataSet h.idle h.name_ne_none h.name_ne_empty h.ops_ne_none h.strdup]
  dsimp only at hloop ⊢
  by_cases hcreate : CreateFails m
  · rw [if_pos (hfails.mp hcreate)] at hloop
    obtain ⟨hfst, hlife⟩ := hloop
    rw [if_pos hfst]
    have htrace := congrArg Life.trace hlife
    have hactive := congrArg Life.bActive hlife
    have hwins := congrArg Life.wins hlife
    refine Or.inl ⟨hcreate, rfl, ?_⟩
    rw [Life.mk.injEq]
    exact ⟨rfl, rfl, hactive, hwins, htrace⟩
  · rw [if_neg (fun hc => hcreate (hfails.mpr hc))] at hloop
    obtain ⟨hfst, hlife⟩ := hloop
    have hne : ((p.dataSet m).beforeLoop m.argc m.argv m.start).1 ≠ -1 := by
      rw [hfst]
      decide
    rw [if_neg hne]
    refine Or.inr ⟨hcreate, rfl, ?_⟩
    rw [life_call_of_not_isLife rfl, hlife, entryLife, Life.mk.injEq]
    exact ⟨rfl, hops, rfl, rfl, rfl⟩

/-- The start-up **fails in `create`**: the callback is the only entry. -/
theorem startUp_of_createFails {m : MainCall} {p : Process} {ops : AppcoreOps}
    (h : Admits m p) (hcreate : CreateFails m) (hops : m.ops = some ops) :
    (p.startUp m).1 = -1 ∧
      (p.startUp m).2.life =
        ⟨.none, none, p.bActive, p.gWinnodeList, p.life.trace ++ createCalls ops⟩ := by
  rcases startUp_of_admits h hops with ⟨-, hfst, hlife⟩ | ⟨hne, -⟩
  · exact ⟨hfst, hlife⟩
  · exact absurd hcreate hne

/-- The start-up **enters the loop** in the state `created`, with `create` as its first
entry. -/
theorem startUp_of_starts {m : MainCall} {p : Process} {ops : AppcoreOps} (h : Starts m p)
    (hops : m.ops = some ops) :
    (p.startUp m).1 = 0 ∧ (p.startUp m).2.life = entryLife ops p := by
  rcases startUp_of_admits h.1 hops with ⟨hcreate, -⟩ | ⟨-, hfst, hlife⟩
  · exact absurd hcreate h.2
  · exact ⟨hfst, hlife⟩

/-- A start-up that does not enter the loop returns -1. -/
theorem startUp_fst_of_not_starts {m : MainCall} {p : Process} (h : ¬ Starts m p) :
    (p.startUp m).1 = -1 := by
  by_cases hadmits : Admits m p
  · obtain ⟨ops, hops⟩ := Option.ne_none_iff_exists'.mp hadmits.ops_ne_none
    have hcreate : CreateFails m := not_not.mp fun hc => h ⟨hadmits, hc⟩
    exact (startUp_of_createFails hadmits hcreate hops).1
  · exact (startUp_of_not_admits hadmits).1

/-- The start-up succeeds exactly when it gets to `create` and that reports no error. -/
theorem startUp_fst (m : MainCall) (p : Process) : (p.startUp m).1 = 0 ↔ Starts m p := by
  constructor
  · intro hfst
    by_contra h
    rw [startUp_fst_of_not_starts h] at hfst
    exact absurd hfst (by decide)
  · intro h
    obtain ⟨ops, hops⟩ := Option.ne_none_iff_exists'.mp h.1.ops_ne_none
    exact (startUp_of_starts h hops).1

/-! ### The end of a call -/

/-- The callback `terminate` is invoked once, if there is one. -/
theorem life_runTerminate {p : Process} {ops : AppcoreOps} (cs : List ApiCall)
    (hops : p.priv.ops = some ops) :
    (p.runTerminate cs).life = { p.life with trace := p.life.trace ++ terminateCalls ops } := by
  rw [runTerminate, hops, terminateCalls]
  dsimp only
  cases ops.terminate with
  | none => simp
  | some fn =>
      dsimp only
      rw [life_foldl_runApi, life_call_of_isLife rfl]
      rfl

/-- `__after_loop` invokes `terminate` and takes no other part in the life cycle. -/
theorem life_afterLoop {p : Process} {ops : AppcoreOps} (a : Rotation.Answers)
    (cs : List ApiCall) (hops : p.priv.ops = some ops) :
    (p.afterLoop a cs).life = { p.life with trace := p.life.trace ++ terminateCalls ops } := by
  have hhandler : ∀ (h : Option ℕ) (q : Process), (q.handlerDel h).life = q.life := by
    intro h q
    cases h <;> rfl
  rw [afterLoop]
  dsimp only
  have hq : ({ p with rotation := p.rotation.runApi id .unset a } : Process).appcoreExit.life =
      p.life := life_appcoreExit _
  generalize ({ p with rotation := p.rotation.runApi id .unset a } : Process).appcoreExit = q
    at hq ⊢
  have hqops : q.priv.ops = some ops := (congrArg Life.ops hq).trans hops
  rw [life_call_of_not_isLife rfl, life_timerDel, hhandler, hhandler, hhandler,
    life_runTerminate cs hqops, hq]

/-- The life cycle inside the loop is a run of the abstract one from its entry. -/
theorem life_loop {m : MainCall} {p : Process} {ops : AppcoreOps} (h : Starts m p)
    (hops : m.ops = some ops) (es : List (Event × Answers)) :
    (Machine.run step (p.startUp m).2 es).life = Machine.run Life.step (entryLife ops p) es := by
  rw [life_run, (startUp_of_starts h hops).2]

/-- The life cycle at the end of the main loop. -/
def loopLife (m : MainCall) (ops : AppcoreOps) (p : Process) : Life :=
  Machine.run Life.step (entryLife ops p) m.events

/-- No step of the life cycle replaces the callbacks. -/
theorem ops_step (l : Life) (x : Event × Answers) : (l.step x).ops = l.ops := by
  obtain ⟨e, a⟩ := x
  have h := l.step_spec (e, a)
  generalize l.step (e, a) = l' at h
  cases h <;> simp [Life.terminate]

/-- The loop leaves the table alone. -/
theorem ops_run (l : Life) (es : List (Event × Answers)) :
    (Machine.run Life.step l es).ops = l.ops :=
  Machine.run_invariant (I := fun l' => l'.ops = l.ops) Life.step
    (fun l' x h => (ops_step l' x).trans h) rfl es

/-- **The life cycle of a whole call** that enters the main loop. -/
theorem life_appcoreEflMain {m : MainCall} {p : Process} {ops : AppcoreOps}
    (h : Starts m p) (hops : m.ops = some ops) :
    (p.appcoreEflMain m).1 = 0 ∧
      (p.appcoreEflMain m).2.life =
        ⟨.none, none, (loopLife m ops p).bActive, (loopLife m ops p).wins,
          (loopLife m ops p).trace ++ terminateCalls ops⟩ := by
  have hlife : (Machine.run step (p.startUp m).2 m.events).life = loopLife m ops p :=
    life_loop h hops m.events
  have hopsLoop : (Machine.run step (p.startUp m).2 m.events).priv.ops = some ops := by
    have hrun := ops_run (entryLife ops p) m.events
    exact (congrArg Life.ops hlife).trans hrun
  have hafter := life_afterLoop m.after m.terminateApi hopsLoop
  rw [hlife] at hafter
  rw [appcoreEflMain, (startUp_fst m p).mpr h]
  dsimp only
  rw [if_neg (by decide)]
  refine ⟨rfl, ?_⟩
  have htrace := congrArg Life.trace hafter
  have hactive := congrArg Life.bActive hafter
  have hwins := congrArg Life.wins hafter
  rw [Life.mk.injEq]
  exact ⟨rfl, rfl, hactive, hwins, htrace⟩

/-- A call that does not enter the main loop ends with its start-up. -/
theorem appcoreEflMain_of_not_starts {m : MainCall} {p : Process} (h : ¬ Starts m p) :
    p.appcoreEflMain m = (-1, (p.startUp m).2) := by
  rw [appcoreEflMain, startUp_fst_of_not_starts h]
  rfl

/-! ### A call in which nothing fails -/

/-- Answers to the calls of `appcore_init` with which it succeeds. -/
def goodInit : InitAnswers :=
  ⟨⟨none, none, none, none, true, true, true, true, true, true⟩, 0, 0⟩

/-- A call of `appcore_efl_main` in which nothing fails, with the given callbacks and
events. -/
def goodCall (ops : AppcoreOps) (events : List (Event × Answers)) : MainCall where
  name := some "app"
  argc := some 1
  argv := some 1
  ops := some ops
  start := ⟨true, goodInit, 0, []⟩
  events := events
  after := ⟨true, 0, 0, 0, 0, 0, none, true, 0, 0, true, 0, 0⟩
  terminateApi := []

/-- Such a call enters the loop of any process in which no call is under way. -/
theorem starts_goodCall {p : Process} (hidle : p.priv.name = none)
    (hcore : p.core.state = 0) (ops : AppcoreOps) (events : List (Event × Answers)) :
    Starts (goodCall ops events) p := by
  have hi18n : (p.i18n.setI18n (some "app") goodInit.i18n).1 ≠ -1 := by
    rw [I18n.setI18n]
    split
    · exact Int.zero_ne_negSucc 0
    · simp [I18n.setI18nStatic, goodInit]
  refine ⟨⟨hidle, ?_, ?_, ?_, rfl, ?_, ?_, hcore, hi18n, ?_, ?_⟩, fun h => ?_⟩
  · simp [goodCall]
  · simp [goodCall]
  · simp [goodCall]
  · simp [goodCall]
  · simp [goodCall]
  · simp [goodCall, goodInit]
  · simp [goodCall, goodInit]
  · simp [CreateFails, goodCall] at h

/-- Answers to one event in which nothing fails. -/
def goodAnswers : Answers :=
  ⟨true, 0, true⟩

/-- Callbacks none of which is NULL. -/
def fullOps : AppcoreOps :=
  ⟨none, some 1, some 2, some 3, some 4, some 5⟩

/-- A fresh process without anything inherited but the locale `C`. -/
def plain : Process :=
  .fresh (fun _ => none) (fun _ => "C") false

/-- A call in which nothing fails enters the loop in the plain process. -/
theorem starts_plain (ops : AppcoreOps) (events : List (Event × Answers)) :
    Starts (goodCall ops events) plain :=
  starts_goodCall rfl rfl ops events

end Process

end AppCore
