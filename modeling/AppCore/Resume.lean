import AppCore.Lib.Trace
import AppCore.System

/-!
# Requests to Resume, and Idle Handlers

`AUL_RESUME` does not reach `__do_app`. It runs the callback of `appcore_set_open_cb`, and
raises a window of the process unless that callback says otherwise. A launch that is passed
on leaves an idle handler in the loop, which measures the time once; the handlers are
numbered by the launches. Both leave a trace in the log of the system, and what they leave
there is determined by the history.

## Main results

* `openS_run`: the static `open` holds what was last registered.
* `resume_routed`: **what a request to resume does**, after any history.
* `process_start`: which launches are passed on to `cb_app`.
* `idle_accounted`: **each launch is measured at most once**, and nothing else is.
-/

set_option autoImplicit false

namespace AppCore

namespace System

open Process (Action)

variable {w : ℕ}

/-! ### The callback in force -/

/-- The registration that an input is. -/
def Input.opens : Input w → Option OpenS
  | .setOpenCb cb data => some ⟨cb, data⟩
  | _ => none

/-- Raising a window leaves the open callback alone. -/
@[simp] theorem openS_appResume (a : ResumeAnswers) (s : System) :
    (s.appResume a).openS = s.openS := by
  rw [appResume]
  split
  · rfl
  · split <;> rfl

/-- The API calls of the callback concern the process only. -/
theorem foldl_runApi_eq (cs : List ApiCall) (s : System) :
    cs.foldl (fun s c => s.runApi c) s =
      { s with process := Machine.run Process.act s.process (cs.map .api) } := by
  induction cs generalizing s with
  | nil => rfl
  | cons c cs ih => exact ih (s.runApi c)

/-- A resume request leaves the open callback alone. -/
theorem openS_aulResume (a : ResumeAnswers) (s : System) : (s.aulResume a).openS = s.openS := by
  rw [aulResume]
  split
  · dsimp only
    rw [foldl_runApi_eq]
    split
    · exact openS_appResume a _
    · rfl
  · exact openS_appResume a s

/-- No action sets the open callback. -/
theorem openS_act (x : Action) (a : ResumeAnswers) (s : System) :
    (s.act x a).openS = s.openS := by
  cases x with
  | aul type b c =>
      cases type with
      | start =>
          rw [act]
          dsimp only
          split <;> rfl
      | resume =>
          rw [act]
          split
          · exact openS_aulResume a s
          · rfl
      | terminate => rfl
      | other => rfl
  | _ => rfl

/-- Only `appcore_set_open_cb` sets the open callback. -/
theorem openS_step (s : System) (i : Input w) : (s.step i).openS = i.opens.getD s.openS := by
  cases i with
  | action x a => exact openS_act x a s
  | setOpenCb cb data => rfl
  | idle id getenv now stack =>
      rw [step, idle]
      split <;> rfl
  | rotation x => rfl

/-- **The callback in force** is the one that was registered last. -/
theorem openS_run (s : System) (is : List (Input w)) :
    (Machine.run step s is).openS = Trace.latest Input.opens s.openS is := by
  induction is generalizing s with
  | nil => rfl
  | cons i is ih => rw [Machine.run_cons, ih, openS_step, Trace.latest_cons]

/-! ### A request to resume -/

/-- The message that a request sends, if a window is to be raised and is found. -/
def raised (a : ResumeAnswers) (s : System) : Option Report :=
  if 1 ≤ s.pid ∧ a.kill ≠ -1 then
    a.openDisplay.bind fun screen =>
      (s.firstWindow screen a).map fun win =>
        .xSendEvent screen.display.rootWindow
          ⟨win, if s.aActiveWin = 0 then a.netActiveWindow else s.aActiveWin, 32, [1, 0, 0, 0, 0]⟩
  else none

/-- No window is raised without a process to ask for or a display to ask. -/
theorem raised_of_fails {s : System} {a : ResumeAnswers}
    (h : s.pid < 1 ∨ a.kill = -1 ∨ a.openDisplay = none) : s.raised a = none := by
  rw [raised]
  rcases h with h | h | h
  · rw [if_neg (by omega)]
  · rw [if_neg (by simp [h])]
  · simp [h]

/-- The log gets the message to the window that is raised. -/
theorem log_appResume (a : ResumeAnswers) (s : System) :
    (s.appResume a).log = s.log ++ (s.raised a).toList := by
  by_cases hfails : s.pid < 1 ∨ a.kill = -1 ∨ a.openDisplay = none
  · rw [appResume_of_fails hfails, raised_of_fails hfails, Option.toList_none, List.append_nil]
  · obtain ⟨hpid, hkill, hopen⟩ : ¬ s.pid < 1 ∧ a.kill ≠ -1 ∧ a.openDisplay ≠ none := by
      simpa only [not_or] using hfails
    obtain ⟨screen, hopen⟩ := Option.ne_none_iff_exists'.mp hopen
    rw [appResume_eq (by omega) hkill hopen, raised, if_pos ⟨by omega, hkill⟩, hopen,
      Option.bind_some]
    cases s.firstWindow screen a with
    | none => exact (List.append_nil _).symm
    | some win => rfl

/-- The API calls of the callback leave no entry. -/
theorem raised_of_process (a : ResumeAnswers) (s : System) (p : Process) (l : List Report) :
    ({ s with process := p, log := l } : System).raised a = s.raised a := rfl

/-- What the request leaves in the log: the callback, then the message. -/
theorem log_aulResume (a : ResumeAnswers) (s : System) :
    (s.aulResume a).log =
      s.log ++ (s.openS.callback.map (Report.openCallback · s.openS.cbdata)).toList ++
        if s.openS.callback = none ∨ a.ret = 0 then (s.raised a).toList else [] := by
  rw [aulResume]
  cases s.openS.callback with
  | none => simpa using log_appResume a s
  | some fn =>
      dsimp only
      rw [foldl_runApi_eq]
      by_cases hret : a.ret = 0
      · rw [if_pos hret, log_appResume, if_pos (.inr hret)]
        simp [report, raised_of_process]
      · rw [if_neg hret, if_neg (by simp [hret])]
        simp [report]

/-- The process sees the API calls of the open callback. -/
theorem process_aulResume_eq (a : ResumeAnswers) (s : System) :
    (s.aulResume a).process = Machine.run Process.act s.process
      (if s.openS.callback = none then [] else a.calls.map .api) := by
  rw [aulResume]
  cases s.openS.callback with
  | none => exact process_appResume a s
  | some fn =>
      rw [if_neg (by simp)]
      dsimp only
      rw [foldl_runApi_eq]
      split
      · exact process_appResume a _
      · rfl

/-- **What a request to resume does**, after any history of the system. If `__aul_handler`
is registered, the callback that `appcore_set_open_cb` set last is invoked once, with the
data that was set with it. Then, if there is no callback or it returned zero, the first
window of the process in the order of the search is asked to come to the front. The process
sees the API calls of the callback and nothing else. -/
theorem resume_routed (p : Process) (pid : ℤ) (before : List (Input w)) (b : Ptr) (c : Answers)
    (a : ResumeAnswers) :
    let s := Machine.run step (init p pid) before
    let op := Trace.latest Input.opens ⟨none, none⟩ before
    let t := s.act (.aul .resume b c) a
    if s.process.aul = true then
      t.log = s.log ++ (op.callback.map (Report.openCallback · op.cbdata)).toList ++
          (if op.callback = none ∨ a.ret = 0 then (s.raised a).toList else []) ∧
        t.process = Machine.run Process.act s.process
          (if op.callback = none then [] else a.calls.map .api) ∧
        t.openS = op
    else t = s := by
  intro s op t
  have hop : s.openS = op := openS_run (init p pid) before
  split
  · rename_i haul
    have ht : t = s.aulResume a := if_pos haul
    rw [ht, ← hop]
    exact ⟨log_aulResume a s, process_aulResume_eq a s, openS_aulResume a s⟩
  · rename_i haul
    exact if_neg haul

end System

/-! ### Idle handlers -/

/-- The idle handler that was added. -/
def Report.added : Report → Option ℕ
  | .gIdleAdd id => some id
  | _ => none

/-- The idle handler that has run. -/
def Report.ran : Report → Option ℕ
  | .prtLtime id _ => some id
  | _ => none

namespace System

open Process (Action)

variable {w : ℕ}

/-- The launch request that an input is, by its bundle: `__app_reset` passes it on if there
is a `cb_app`. -/
def launch (s : System) : Input w → Option Ptr
  | .action (.aul .start b _) _ =>
      if s.process.aul = true ∧ s.process.core.ops.bind UiOps.cbApp ≠ none then some b else none
  | _ => none

/-- A launch request reaches `cb_app` if it is passed on, and nothing otherwise. -/
theorem process_start (b : Ptr) (c : Answers) (a : ResumeAnswers) (s : System) :
    (s.act (.aul .start b c) a).process =
      if s.launch (.action (.aul .start b c) a : Input w) = some b then
        s.process.cbApp .reset b c
      else s.process := by
  rw [process_act (by simp), Process.act, launch]
  by_cases haul : s.process.aul = true
  · rw [if_pos haul, Process.aulHandler, Process.appReset]
    cases hops : s.process.core.ops with
    | none => simp
    | some ops => by_cases hcb : ops.cbApp = none <;> simp [haul, hcb]
  · simp [haul]

/-- The launch requests of a run that are passed on, in their order. -/
def launches : System → List (Input w) → List Ptr :=
  Machine.outputs fun s i => (s.step i, (s.launch i).toList)

/-- **The idle handlers of `n` launches**: each launch has added one, in the order of the
launches. Those that have run were there before and had not run, and the others wait. -/
structure Accounted (n : ℕ) (s : System) : Prop where
  next : s.nextIdle = n
  added : s.log.filterMap Report.added = List.range n
  perm : (s.log.filterMap Report.ran ++ s.idles).Perm (List.range n)
  each : Trace.Each (fun pre r => ∀ id, r.ran = some id →
    id ∈ pre.filterMap Report.added ∧ id ∉ pre.filterMap Report.ran) s.log

variable {n : ℕ} {s t : System}

/-- Entries that are not about idle handlers do not matter. -/
theorem Accounted.append (h : s.Accounted n) {l : List Report} (hlog : t.log = s.log ++ l)
    (hidles : t.idles = s.idles) (hnext : t.nextIdle = s.nextIdle)
    (hl : ∀ r ∈ l, r.added = none ∧ r.ran = none) : t.Accounted n := by
  have hadded : l.filterMap Report.added = [] :=
    List.filterMap_eq_nil_iff.mpr fun r hr => (hl r hr).1
  have hran : l.filterMap Report.ran = [] :=
    List.filterMap_eq_nil_iff.mpr fun r hr => (hl r hr).2
  refine ⟨hnext.trans h.next, ?_, ?_, ?_⟩
  · rw [hlog, List.filterMap_append, hadded, List.append_nil]
    exact h.added
  · rw [hlog, hidles, List.filterMap_append, hran, List.append_nil]
    exact h.perm
  · rw [hlog, Trace.each_append_of_forall]
    · exact h.each
    · intro r hr pre id hid
      rw [(hl r hr).2] at hid
      cases hid

/-- What keeps the log and the handlers keeps the account. -/
theorem Accounted.congr (h : s.Accounted n) (hlog : t.log = s.log) (hidles : t.idles = s.idles)
    (hnext : t.nextIdle = s.nextIdle) : t.Accounted n :=
  h.append (hlog.trans (List.append_nil _).symm) hidles hnext (by simp)

/-- A launch adds the next handler. -/
theorem Accounted.addIdle (h : s.Accounted n) : s.addIdle.Accounted (n + 1) := by
  obtain ⟨hnext, hadded, hperm, heach⟩ := h
  have hran : [Report.gIdleAdd s.nextIdle].filterMap Report.ran = [] := rfl
  refine ⟨congrArg (· + 1) hnext, ?_, ?_, Trace.each_snoc.mpr ⟨heach, fun id hid => ?_⟩⟩
  · simp only [System.addIdle, report, List.filterMap_append, hadded, List.range_succ, hnext]
    rfl
  · simp only [System.addIdle, report, List.filterMap_append, hran, List.append_nil]
    rw [← List.append_assoc, List.range_succ, hnext]
    exact hperm.append_right [n]
  · cases hid

/-- A handler that waits runs once. -/
theorem Accounted.idle (h : s.Accounted n) (id : ℕ) (getenv : String → Option String)
    (now stack : Timeval w) : (s.idle id getenv now stack).Accounted n := by
  rw [System.idle]
  split
  · rename_i hid
    obtain ⟨hnext, hadded, hperm, heach⟩ := h
    refine ⟨hnext, ?_, ?_, Trace.each_snoc.mpr ⟨heach, ?_⟩⟩
    · have hnone : [Report.prtLtime id (measureTimeFrom getenv none now stack)].filterMap
          Report.added = [] := rfl
      simp only [report, List.filterMap_append, hnone, List.append_nil]
      exact hadded
    · have hran : [Report.prtLtime id (measureTimeFrom getenv none now stack)].filterMap
          Report.ran = [id] := rfl
      simp only [report, List.filterMap_append, hran]
      rw [List.append_assoc]
      exact ((List.perm_cons_erase hid).symm.append_left _).trans hperm
    · rintro _ ⟨⟩
      have hnodup : (s.log.filterMap Report.ran ++ s.idles).Nodup :=
        hperm.nodup_iff.mpr List.nodup_range
      refine ⟨?_, fun hran => List.disjoint_of_nodup_append hnodup hran hid⟩
      change id ∈ s.log.filterMap Report.added
      rw [hadded]
      exact hperm.subset (List.mem_append_right _ hid)
  · exact h

/-- Raising a window adds no handler. -/
theorem idles_appResume (a : ResumeAnswers) (s : System) :
    (s.appResume a).idles = s.idles ∧ (s.appResume a).nextIdle = s.nextIdle := by
  rw [appResume]
  split
  · exact ⟨rfl, rfl⟩
  · split
    · exact ⟨rfl, rfl⟩
    · exact ⟨rfl, rfl⟩

/-- A request to resume adds no handler. -/
theorem idles_aulResume (a : ResumeAnswers) (s : System) :
    (s.aulResume a).idles = s.idles ∧ (s.aulResume a).nextIdle = s.nextIdle := by
  rw [aulResume]
  split
  · dsimp only
    rw [foldl_runApi_eq]
    split
    · exact idles_appResume a _
    · exact ⟨rfl, rfl⟩
  · exact idles_appResume a s

/-- A request to resume is no launch. -/
theorem Accounted.aulResume (h : s.Accounted n) (a : ResumeAnswers) :
    (s.aulResume a).Accounted n := by
  obtain ⟨hidles, hnext⟩ := idles_aulResume a s
  refine h.append ((log_aulResume a s).trans (List.append_assoc _ _ _)) hidles hnext ?_
  have hraised : ∀ r ∈ s.raised a, r.added = none ∧ r.ran = none := by
    intro r hr
    rw [raised] at hr
    split at hr
    · obtain ⟨screen, -, hr⟩ := Option.bind_eq_some_iff.mp hr
      obtain ⟨win, -, rfl⟩ := Option.map_eq_some_iff.mp hr
      exact ⟨rfl, rfl⟩
    · cases hr
  intro r hr
  rcases List.mem_append.mp hr with hr | hr
  · obtain ⟨fn, -, rfl⟩ := Option.map_eq_some_iff.mp (Option.mem_toList.mp hr)
    exact ⟨rfl, rfl⟩
  · split at hr
    · exact hraised r (Option.mem_toList.mp hr)
    · cases hr

/-- A launch request adds a handler if it is passed on. -/
theorem Accounted.start (h : s.Accounted n) (b : Ptr) (c : Answers)
    (a : ResumeAnswers) :
    (s.act (.aul .start b c) a).Accounted
      (n + (s.launch (.action (.aul .start b c) a : Input w)).toList.length) := by
  have hpassed : (s.process.aul && (s.process.core.ops.bind UiOps.cbApp).isSome) = true ↔
      s.process.aul = true ∧ s.process.core.ops.bind UiOps.cbApp ≠ none := by
    rw [Bool.and_eq_true, Option.isSome_iff_ne_none]
  rw [System.act, launch]
  by_cases hlaunch : s.process.aul = true ∧ s.process.core.ops.bind UiOps.cbApp ≠ none
  · rw [if_pos (hpassed.mpr hlaunch), if_pos hlaunch]
    exact h.addIdle.congr rfl rfl rfl
  · rw [if_neg (mt hpassed.mp hlaunch), if_neg hlaunch]
    exact h.congr rfl rfl rfl

/-- **One action** keeps the account. -/
theorem Accounted.act (h : s.Accounted n) (x : Action) (a : ResumeAnswers) :
    (s.act x a).Accounted (n + (s.launch (.action x a : Input w)).toList.length) := by
  cases x with
  | aul type b c =>
      cases type with
      | start => exact h.start b c a
      | resume =>
          rw [System.act]
          split
          · exact h.aulResume a
          · exact h
      | terminate => exact h.congr rfl rfl rfl
      | other => exact h.congr rfl rfl rfl
  | _ => exact h.congr rfl rfl rfl

/-- **One input** keeps the account. -/
theorem Accounted.step (h : s.Accounted n) (i : Input w) :
    (s.step i).Accounted (n + (s.launch i).toList.length) := by
  cases i with
  | action x a => exact h.act x a
  | setOpenCb cb data => exact h.congr rfl rfl rfl
  | idle id getenv now stack => exact h.idle id getenv now stack
  | rotation x => exact h.congr rfl rfl rfl

/-- **A run** keeps the account. -/
theorem Accounted.run (h : s.Accounted n) (is : List (Input w)) :
    (Machine.run System.step s is).Accounted (n + (s.launches is).length) := by
  induction is generalizing n s with
  | nil => exact h
  | cons i is ih =>
      have hrun := ih (h.step i)
      rw [Machine.run_cons, launches, Machine.outputs_cons, List.length_append, ← Nat.add_assoc]
      exact hrun

/-- **Each launch is measured at most once.** In every run of the system, the launch requests
that `__app_reset` passes on to `cb_app` add one idle handler each: the handlers are numbered
by the launches, in their order. None runs twice; one that runs was added by its launch
before; and those that have not run are the ones that wait. -/
theorem idle_accounted (p : Process) (pid : ℤ) (is : List (Input w)) :
    let s := Machine.run step (init p pid) is
    let ids := List.range (launches (init p pid) is).length
    s.log.filterMap Report.added = ids ∧ (s.log.filterMap Report.ran).Nodup ∧
      (s.log.filterMap Report.ran ++ s.idles).Perm ids ∧
      Trace.Each (fun pre r => ∀ id, r.ran = some id →
        .gIdleAdd id ∈ pre ∧ id ∉ pre.filterMap Report.ran) s.log ∧
      ∀ b c a, (s.act (.aul .start b c) a).process =
        if s.launch (.action (.aul .start b c) a : Input w) = some b then
          s.process.cbApp .reset b c
        else s.process := by
  intro s ids
  have hfresh : (init p pid).Accounted 0 := ⟨rfl, rfl, List.Perm.refl _, Trace.each_nil⟩
  have h : s.Accounted (launches (init p pid) is).length := by simpa using hfresh.run is
  refine ⟨h.added, ?_, h.perm, fun pre r post hlog id hid => ?_,
    fun b c a => process_start b c a s⟩
  · exact (h.perm.nodup_iff.mpr List.nodup_range).of_append_left
  · obtain ⟨hadded, hran⟩ := h.each pre r post hlog id hid
    obtain ⟨r', hr', hid'⟩ := List.mem_filterMap.mp hadded
    cases r' with
    | gIdleAdd id' =>
        obtain rfl := Option.some.inj hid'
        exact ⟨hr', hran⟩
    | _ => cases hid'

/-- Two launches, of which the second is measured first, and once. -/
example :
    let is : List (Input 64) :=
      [.action (.enter (Process.goodCall Process.fullOps [])) noDisplay,
       .action (.aul .start (some 7) Process.goodAnswers) noDisplay,
       .action (.aul .start (some 8) Process.goodAnswers) noDisplay,
       .idle 1 (fun _ => none) ⟨5, 0⟩ ⟨0, 0⟩, .idle 1 (fun _ => none) ⟨6, 0⟩ ⟨0, 0⟩]
    launches (init Process.plain 77) is = [some 7, some 8] ∧
      (Machine.run step (init Process.plain 77) is).idles = [0] := by
  decide

end System

end AppCore
