import AppCore.EnvTime
import AppCore.Session
import AppCore.WinSearch

/-!
# The System

The library as a whole: a process with what the session machine leaves out, so that every
module takes part in one run. It adds the events of the rotation module, the request
`AUL_RESUME` with the callback of `appcore_set_open_cb` and the window that `x_raise_win`
looks for, and the idle handlers that `__app_reset` adds to the loop.

The windows of a display are a finite tree, as `Screen` says, so that the search comes to
an end. `errno` and the results that the callers drop are left out.

## Main results

* `appResume_eq`: the search of `__app_resume` comes to an end, and which window is asked to
  come to the front.
* `process_step`: **an input is a session action** or an event of the rotation module, as far
  as the process is concerned.
* `run_process`: invariants of sessions are invariants of the system.
-/

set_option autoImplicit false

namespace AppCore

/-- `struct open_s`. -/
structure OpenS where
  callback : Ptr
  cbdata : Ptr
  deriving DecidableEq, Repr

/-- The `XClientMessageEvent` that `__raise_win` sends to the root window. -/
structure XClientMessage where
  window : Window
  messageType : Atom
  format : ℤ
  l : List ℤ
  deriving DecidableEq, Repr

/-- A display whose windows are a finite tree. -/
structure Screen where
  display : Display
  tree : RoseTree Window
  fits : tree.Fits display.queryTree
  root_eq : tree.root = display.rootWindow

/-- An entry of the log of the system. -/
inductive Report
  | openCallback (fn : Addr) (data : Ptr)
  | xSendEvent (root : Window) (xev : XClientMessage)
  /-- `__prt_ltime` was added to the loop as the idle handler `id`. -/
  | gIdleAdd (id : ℕ)
  /-- The handler `id` has run `__prt_ltime`, which measured that many milliseconds. -/
  | prtLtime (id : ℕ) (msec : BitVec 32)
  deriving DecidableEq, Repr

/-- The answers to the calls made for `AUL_RESUME`: what the callback of
`appcore_set_open_cb` returns and which API calls it makes, and those of `x_raise_win`. -/
structure ResumeAnswers where
  ret : ℤ
  calls : List ApiCall
  kill : ℤ
  openDisplay : Option Screen
  netWmPid : Atom
  netActiveWindow : Atom

/-- The answers to `x_raise_win`. -/
def ResumeAnswers.raise (a : ResumeAnswers) : RaiseAnswers :=
  ⟨a.kill, a.openDisplay.map Screen.display, a.netWmPid⟩

/-- The height of the tree is enough for the search. -/
def ResumeAnswers.fuel (a : ResumeAnswers) : ℕ :=
  a.openDisplay.elim 0 fun screen => screen.tree.height

/-- A process with the statics `open`, `a_pid` and `a_active_win`, its pid, and the idle
handlers that have not run yet. -/
structure System where
  process : Process
  openS : OpenS
  aPid : Atom
  aActiveWin : Atom
  pid : ℤ
  idles : List ℕ
  nextIdle : ℕ
  log : List Report

namespace System

open Process (Action)

/-- A fresh process in its system. -/
def init (p : Process) (pid : ℤ) : System :=
  ⟨p, ⟨none, none⟩, 0, 0, pid, [], 0, []⟩

/-- Append an entry to the log. -/
def report (r : Report) (s : System) : System :=
  { s with log := s.log ++ [r] }

/-- An API call of the application. -/
def runApi (c : ApiCall) (s : System) : System :=
  { s with process := s.process.runApi c }

/-- `appcore_set_open_cb`. -/
def setOpenCb (cb data : Ptr) (s : System) : ℤ × System :=
  (0, { s with openS := ⟨cb, data⟩ })

/-! ### `AUL_RESUME` -/

/-- `__raise_win`. -/
def raiseWin (d : Display) (win : Window) (a : ResumeAnswers) (s : System) : System :=
  let aActiveWin := if s.aActiveWin = 0 then a.netActiveWindow else s.aActiveWin
  let s : System := { s with aActiveWin := aActiveWin }
  s.report (.xSendEvent d.rootWindow ⟨win, aActiveWin, 32, [1, 0, 0, 0, 0]⟩)

/-- `__app_resume`: `x_raise_win` of the process itself. -/
def appResume (a : ResumeAnswers) (s : System) : System :=
  match xRaiseWin a.fuel s.pid a.raise s.aPid with
  | none => s
  | some (_, aPid, win) =>
      let s : System := { s with aPid := aPid }
      match a.openDisplay, win with
      | some screen, some win => s.raiseWin screen.display win a
      | _, _ => s

/-- The branch `AUL_RESUME` of `__aul_handler`. -/
def aulResume (a : ResumeAnswers) (s : System) : System :=
  match s.openS.callback with
  | some fn =>
      let s := s.report (.openCallback fn s.openS.cbdata)
      let s := a.calls.foldl (fun s c => s.runApi c) s
      if a.ret = 0 then s.appResume a else s
  | none => s.appResume a

/-! ### Idle handlers -/

/-- `g_idle_add` of `__prt_ltime`, as `__app_reset` calls it. -/
def addIdle (s : System) : System :=
  { s with idles := s.idles ++ [s.nextIdle], nextIdle := s.nextIdle + 1 }.report
    (.gIdleAdd s.nextIdle)

/-- The loop is idle: a handler that waits runs `__prt_ltime` and, as this returns FALSE,
GLib removes it. -/
def idle {w : ℕ} (id : ℕ) (getenv : String → Option String) (now stack : Timeval w)
    (s : System) : System :=
  if id ∈ s.idles then
    { s with idles := s.idles.erase id }.report
      (.prtLtime id (measureTimeFrom getenv none now stack))
  else s

/-! ### The machine -/

/-- What can happen to the system. An action `AUL_RESUME` comes with answers of its own. -/
inductive Input (w : ℕ)
  | action (x : Action) (a : ResumeAnswers)
  | setOpenCb (cb data : Ptr)
  | idle (id : ℕ) (getenv : String → Option String) (now stack : Timeval w)
  | rotation (x : Rotation.Input)

/-- An action. Of the requests of the AUL daemon, a launch adds an idle handler before it
is passed on, and `AUL_RESUME` does not concern the process. -/
def act (x : Action) (a : ResumeAnswers) (s : System) : System :=
  match x with
  | .aul .resume _ _ => if s.process.aul = true then s.aulResume a else s
  | .aul .start _ _ =>
      let launch : Bool :=
        s.process.aul && (s.process.core.ops.bind UiOps.cbApp).isSome
      let s := if launch = true then s.addIdle else s
      { s with process := s.process.act x }
  | x => { s with process := s.process.act x }

/-- **One step** of the system. -/
def step {w : ℕ} (s : System) (i : Input w) : System :=
  match i with
  | .action x a => s.act x a
  | .setOpenCb cb data => (s.setOpenCb cb data).2
  | .idle id getenv now stack => s.idle id getenv now stack
  | .rotation x => { s with process.rotation := s.process.rotation.step x }

/-- No display answers. -/
def noDisplay : ResumeAnswers :=
  ⟨0, [], 0, none, 0, 0⟩

/-! ### What a request raises -/

/-- The atom `_NET_WM_PID`, once it is known. -/
def pidAtom (a : ResumeAnswers) (s : System) : Atom :=
  if s.aPid = 0 then a.netWmPid else s.aPid

/-- The first window of the process in the order of the search. -/
def firstWindow (screen : Screen) (a : ResumeAnswers) (s : System) : Option Window :=
  (screen.tree.preorder screen.display.queryTree).find?
    (screen.display.hasPid (s.pidAtom a) s.pid)

/-- **What `__app_resume` does** on a display: the search comes to an end, and the first
window of the process is asked to come to the front. -/
theorem appResume_eq {s : System} {a : ResumeAnswers} {screen : Screen} (hpid : 1 ≤ s.pid)
    (hkill : a.kill ≠ -1) (hopen : a.openDisplay = some screen) :
    s.appResume a =
      (s.firstWindow screen a).elim { s with aPid := s.pidAtom a } fun win =>
        { s with aPid := s.pidAtom a }.raiseWin screen.display win a := by
  have hdisplay : a.raise.openDisplay = some screen.display := by
    rw [ResumeAnswers.raise, hopen]
    rfl
  have hfuel : screen.tree.height ≤ a.fuel := by
    rw [ResumeAnswers.fuel, hopen]
    rfl
  have hraise := xRaiseWin_eq hpid hkill hdisplay screen.fits screen.root_eq hfuel s.aPid
  dsimp only at hraise
  rw [appResume, hraise, hopen, firstWindow, pidAtom]
  dsimp only [ResumeAnswers.raise]
  cases (screen.tree.preorder screen.display.queryTree).find? _ <;> rfl

/-- Without a display, or for a process that does not run, it does nothing. -/
theorem appResume_of_fails {s : System} {a : ResumeAnswers}
    (h : s.pid < 1 ∨ a.kill = -1 ∨ a.openDisplay = none) : s.appResume a = s := by
  have hraise : xRaiseWin a.fuel s.pid a.raise s.aPid = some (-1, s.aPid, none) := by
    rw [xRaiseWin]
    by_cases hpid : s.pid < 1
    · rw [if_pos hpid]
    · rw [if_neg hpid]
      by_cases hkill : a.kill = -1
      · exact if_pos hkill
      · have hopen : a.openDisplay = none := (h.resolve_left hpid).resolve_left hkill
        rw [if_neg (show ¬ a.raise.kill = -1 from hkill), ResumeAnswers.raise, hopen]
        rfl
  rw [appResume, hraise]
  cases a.openDisplay <;> rfl

/-! ### The process in the system -/

/-- Raising a window does not concern the process. -/
@[simp] theorem process_appResume (a : ResumeAnswers) (s : System) :
    (s.appResume a).process = s.process := by
  rw [appResume]
  split
  · rfl
  · split <;> rfl

/-- API calls in the system are actions of the process. -/
theorem process_foldl_runApi (cs : List ApiCall) (s : System) :
    (cs.foldl (fun s c => s.runApi c) s).process =
      Machine.run Process.act s.process (cs.map .api) := by
  induction cs generalizing s with
  | nil => rfl
  | cons c cs ih => exact ih (s.runApi c)

/-- Of a resume request the process sees API calls only. -/
theorem process_aulResume (a : ResumeAnswers) (s : System) :
    ∃ as, (∀ x ∈ as, x ∈ a.calls.map Action.api) ∧
      (s.aulResume a).process = Machine.run Process.act s.process as := by
  rw [aulResume]
  split
  · rename_i fn _
    have hcalls := process_foldl_runApi a.calls (s.report (.openCallback fn s.openS.cbdata))
    refine ⟨a.calls.map .api, fun x hx => hx, ?_⟩
    dsimp only
    split
    · exact (process_appResume a _).trans hcalls
    · exact hcalls
  · exact ⟨[], by simp, process_appResume a s⟩

/-- Every other action is an action of the session. -/
theorem process_act {x : Action} (hx : ∀ b c, x ≠ .aul .resume b c) (a : ResumeAnswers)
    (s : System) : (s.act x a).process = s.process.act x := by
  cases x with
  | aul type b c =>
      cases type with
      | resume => exact absurd rfl (hx b c)
      | start =>
          rw [act]
          dsimp only
          split <;> rfl
      | terminate => rfl
      | other => rfl
  | enter m => rfl
  | handle x => rfl
  | leave a cs => rfl
  | api c => rfl
  | vconf n => rfl

/-- The session actions that an input can make. -/
def Input.actions {w : ℕ} : Input w → List Action
  | .action (.aul .resume _ _) a => a.calls.map .api
  | .action x _ => [x]
  | _ => []

/-- Any other action is itself. -/
theorem Input.actions_of_ne {w : ℕ} {x : Action} (hx : ∀ b c, x ≠ .aul .resume b c)
    (a : ResumeAnswers) : (Input.action x a : Input w).actions = [x] := by
  cases x with
  | aul type b c =>
      cases type with
      | resume => exact absurd rfl (hx b c)
      | _ => rfl
  | _ => rfl

/-- **What an input does to the process**: session actions, or an event of the rotation
module. -/
theorem process_step {w : ℕ} (s : System) (i : Input w) :
    (∃ x, i = .rotation x ∧
      (s.step i).process = { s.process with rotation := s.process.rotation.step x }) ∨
    ∃ as, (∀ x ∈ as, x ∈ i.actions) ∧
      (s.step i).process = Machine.run Process.act s.process as := by
  cases i with
  | action x a =>
      right
      by_cases hresume : ∃ b c, x = .aul .resume b c
      · obtain ⟨b, c, rfl⟩ := hresume
        rw [step, act]
        split
        · exact process_aulResume a s
        · exact ⟨[], by simp, rfl⟩
      · have hx : ∀ b c, x ≠ .aul .resume b c := fun b c h => hresume ⟨b, c, h⟩
        exact ⟨[x], by simp [Input.actions_of_ne hx], process_act hx a s⟩
  | setOpenCb cb data => exact .inr ⟨[], by simp, rfl⟩
  | idle id getenv now stack =>
      refine .inr ⟨[], by simp, ?_⟩
      rw [step, idle]
      split <;> rfl
  | rotation x => exact .inl ⟨x, rfl, rfl⟩

/-- **Invariants of sessions are invariants of the system**, if they do not speak about the
rotation module. -/
theorem run_process {w : ℕ} {I : Process → Prop} {G : Action → Prop}
    (hact : ∀ p x, G x → I p → I (p.act x))
    (hrotation : ∀ p r, I p → I { p with rotation := r }) {s : System} (h : I s.process)
    {is : List (Input w)} (hG : ∀ i ∈ is, ∀ x ∈ i.actions, G x) :
    I (Machine.run step s is).process := by
  refine Machine.AtEach.run_invariant (I := fun s : System => I s.process)
    (G := fun _ (i : Input w) => ∀ x ∈ i.actions, G x) ?_ h (Machine.atEach_of_forall hG)
  intro s i hs hi
  rcases process_step s i with ⟨x, -, hprocess⟩ | ⟨as, has, hprocess⟩
  · rw [hprocess]
    exact hrotation _ _ hs
  · rw [hprocess]
    exact Machine.AtEach.run_invariant (fun p x hp hx => hact p x hx hp) hs
      (Machine.atEach_of_forall fun x hx => hi x (has x hx))

end System

end AppCore
