import AppCore.Lib.Trace
import AppCore.Session

/-!
# The Flush Timer

A paused application flushes its caches after a while, by a timer that `__do_app` arms in
`AE_PAUSE` and cancels before anything else it does. Which timers are live can be read off
the trace of the calls to Ecore; the module knows it by the one handle in `priv.mftimer`.

## Main results

* `disciplined_act`: every action keeps the invariant `Disciplined`.
* `flushTimer_discipline`: **the discipline of the flush timer**, over whole sessions.
-/

set_option autoImplicit false

namespace AppCore

/-- What an entry of the trace does to the live timers. -/
def Call.timerStep (live : List ℕ) : Call → List ℕ
  | .ecoreTimerAdd (some h) => live ++ [h]
  | .ecoreTimerDel h => live.erase h
  | .ecoreTimerExpired h => live.erase h
  | _ => live

/-- The timers that are live after a trace. -/
def liveTimers (cs : List Call) : List ℕ :=
  cs.foldl Call.timerStep []

/-- `ecore_timer_del` is called on live timers only. -/
def DeletesLive (cs : List Call) : Prop :=
  Trace.Each (fun pre c => ∀ h, c = .ecoreTimerDel h → h ∈ liveTimers pre) cs

variable {cs l : List Call}

/-- The live timers after one more entry. -/
theorem liveTimers_snoc (cs : List Call) (c : Call) :
    liveTimers (cs ++ [c]) = c.timerStep (liveTimers cs) := by
  simp only [liveTimers, List.foldl_append, List.foldl_cons, List.foldl_nil]

/-- Only the entries of Ecore's timers change which are live. -/
theorem Call.timerStep_of_not_isTimer (c : Call) (hc : ¬ c.IsTimer) (live : List ℕ) :
    c.timerStep live = live := by
  cases c <;> first | rfl | exact absurd trivial hc

/-- Other entries leave the live timers as they are. -/
theorem liveTimers_append_of_forall (hl : ∀ c ∈ l, ¬ c.IsTimer) :
    liveTimers (cs ++ l) = liveTimers cs := by
  induction l using List.reverseRecOn with
  | nil => rw [List.append_nil]
  | append_singleton l c ih =>
      have hc : ¬ c.IsTimer := hl c (by simp)
      rw [← List.append_assoc, liveTimers_snoc, ih fun d hd => hl d (by simp [hd])]
      exact c.timerStep_of_not_isTimer hc _

/-- Other entries delete no timer. -/
theorem deletesLive_append_of_forall (hl : ∀ c ∈ l, ¬ c.IsTimer) :
    DeletesLive (cs ++ l) ↔ DeletesLive cs := by
  refine Trace.each_append_of_forall fun c hc pre h heq => ?_
  subst heq
  exact absurd trivial (hl _ hc)

/-- An entry that deletes no timer keeps the discipline of deletions. -/
theorem deletesLive_snoc_of_ne {c : Call} (hc : ∀ h, c ≠ .ecoreTimerDel h) :
    DeletesLive (cs ++ [c]) ↔ DeletesLive cs := by
  rw [DeletesLive, Trace.each_snoc, and_iff_left fun h heq => absurd heq (hc h)]
  rfl

namespace Process

/-- **The discipline of the flush timer**: the live timers are those the module has a handle
of, there is one only while the application is paused, and only live timers were
deleted. -/
structure Disciplined (p : Process) : Prop where
  timers : p.timers = p.priv.mftimer.toList
  paused : p.priv.mftimer ≠ none → p.priv.state = .paused
  idle : p.priv.name = none → p.priv.mftimer = none
  trace : liveTimers p.calls = p.timers
  deletes : DeletesLive p.calls

variable {p q : Process}

/-- Entries about other things than timers do not matter. -/
theorem Disciplined.append (h : Disciplined p) (hl : ∀ c ∈ l, ¬ c.IsTimer) :
    Disciplined { p with calls := p.calls ++ l } :=
  ⟨h.timers, h.paused, h.idle, (liveTimers_append_of_forall hl).trans h.trace,
    (deletesLive_append_of_forall hl).mpr h.deletes⟩

/-- Entries that do not concern timers keep the invariant. -/
theorem Disciplined.logs {P : Call → Prop} (h : Disciplined p) (hlogs : Logs P p q)
    (hP : ∀ c, P c → ¬ c.IsTimer) : Disciplined q := by
  obtain ⟨l, hl, rfl⟩ := hlogs
  exact h.append fun c hc => hP c (hl c hc)

/-- What leaves the EFL module alone keeps the invariant. -/
theorem Disciplined.outside (h : Disciplined p) (hout : Outside Call.IsOutside p q) :
    Disciplined q := by
  obtain ⟨_, _, _, _, _, _, hlogs⟩ := hout
  refine Disciplined.logs ?_ hlogs fun c hc => hc.2
  exact ⟨h.timers, h.paused, h.idle, h.trace, h.deletes⟩

/-- The entries of the application's callbacks do not concern timers. -/
theorem not_isTimer_of_isApp (c : Call) (hc : c.IsApp) : ¬ c.IsTimer := by
  cases c <;> first | exact id | exact hc.elim

/-- Without a live timer the other fields do not matter. -/
theorem disciplined_of_none (htimers : p.timers = []) (hmftimer : p.priv.mftimer = none)
    (htrace : liveTimers p.calls = []) (hdeletes : DeletesLive p.calls) : Disciplined p :=
  ⟨by rw [htimers, hmftimer]; rfl, fun h => absurd hmftimer h, fun _ => hmftimer,
    by rw [htrace, htimers], hdeletes⟩

/-! ### Arming, cancelling and expiry -/

/-- `__appcore_timer_del` deletes the live timer, if there is one. -/
theorem Disciplined.timerDel (h : Disciplined p) :
    p.timerDel.timers = [] ∧ liveTimers p.timerDel.calls = [] ∧
      DeletesLive p.timerDel.calls := by
  have htimers := h.timers
  have htrace := h.trace
  rw [timerDel_eq]
  cases hmf : p.priv.mftimer with
  | none =>
      rw [hmf] at htimers
      simp only [Option.elim_none, Option.map_none, Option.toList_none, List.append_nil]
      exact ⟨htimers, htrace.trans htimers, h.deletes⟩
  | some t =>
      rw [hmf] at htimers
      have hlive : liveTimers p.calls = [t] := htrace.trans htimers
      simp only [Option.elim_some, Option.map_some, Option.toList_some]
      refine ⟨by simp [htimers], by simp [liveTimers_snoc, hlive, Call.timerStep], ?_⟩
      rw [DeletesLive, Trace.each_snoc]
      refine ⟨h.deletes, fun t' heq => ?_⟩
      obtain rfl : t = t' := Call.ecoreTimerDel.inj heq
      simp [hlive]

/-- With the timer cancelled any state will do. -/
theorem Disciplined.cancelled (h : Disciplined p) (s : AppState) :
    Disciplined { p.timerDel with priv.state := s } := by
  obtain ⟨htimers, htrace, hdeletes⟩ := h.timerDel
  refine disciplined_of_none htimers ?_ htrace hdeletes
  change p.timerDel.priv.mftimer = none
  rw [timerDel_eq]

/-- A paused application without a timer may arm one. -/
theorem Disciplined.timerAdd (h : Disciplined p) (a : Answers) (hstate : p.priv.state = .paused)
    (hname : p.priv.name ≠ none) (hmftimer : p.priv.mftimer = none) :
    Disciplined (p.timerAdd a) := by
  have htimers : p.timers = [] := by rw [h.timers, hmftimer]; rfl
  rw [timerAdd_eq, htimers]
  refine ⟨rfl, fun _ => hstate, fun hnone => absurd hnone hname, ?_, ?_⟩
  · rw [liveTimers_snoc, h.trace, htimers, timerHandle]
    split <;> rfl
  · exact (deletesLive_snoc_of_ne (by simp)).mpr h.deletes

/-- The timer that expires is the one in `mftimer`. -/
theorem Disciplined.timerExpired (h : Disciplined p) (t : ℕ) :
    Disciplined (p.timerExpired t) := by
  by_cases hlive : t ∈ p.timers
  · obtain ⟨l, hl, -, heq⟩ := timerExpired_of_mem hlive
    have htimers : p.timers = [t] := by
      rw [h.timers, Option.mem_toList] at hlive
      rw [h.timers, hlive]
      rfl
    have h' := h.append fun c hc => (hl c hc).isOutside.2
    rw [heq, ← List.append_assoc]
    refine disciplined_of_none (by simp [htimers]) rfl ?_ ?_
    · rw [liveTimers_snoc, h'.trace.trans htimers]
      simp [Call.timerStep]
    · exact (deletesLive_snoc_of_ne (by simp)).mpr h'.deletes
  · rw [timerExpired_of_notMem hlive]
    exact h

/-! ### Steps and actions -/

/-- `__do_app` keeps the discipline; a pause needs a call under way. -/
theorem Disciplined.does {a : Answers} {e : AppEvent} (h : Disciplined p)
    (hname : e = .pause → p.priv.name ≠ none) (hdoes : Does a p e q) : Disciplined q := by
  cases hdoes with
  | memFlush => exact h.outside ((logs_memFlush p).outside.mono fun _ hc => hc.isOutside)
  | lowmemPost => exact h.outside ((logs_lowMemoryPostCb p).outside.mono fun _ hc => hc.isOutside)
  | move _ _ hlogs => exact (h.cancelled _).logs hlogs not_isTimer_of_isApp
  | arm _ _ hpause hrest =>
      have hcancelled := (h.cancelled .paused).logs hpause not_isTimer_of_isApp
      obtain ⟨l, -, rfl⟩ := hpause
      refine Disciplined.logs ?_ hrest not_isTimer_of_isApp
      refine hcancelled.timerAdd a rfl ?_ ?_
      · change p.timerDel.priv.name ≠ none
        rw [timerDel_eq]
        exact hname rfl
      · change p.timerDel.priv.mftimer = none
        rw [timerDel_eq]
  | again _ hlogs => exact h.logs hlogs not_isTimer_of_isApp

/-- An event of the loop keeps the invariant. -/
theorem Disciplined.stepped {a : Answers} {e : Event} (h : Disciplined p)
    (hname : p.priv.name ≠ none) (hstep : Stepped a p e q) : Disciplined q := by
  cases hstep with
  | windows => exact ⟨h.timers, h.paused, h.idle, h.trace, h.deletes⟩
  | switch _ _ hdoes =>
      refine Disciplined.does ?_ (fun _ => ?_) hdoes
      · exact ⟨h.timers, h.paused, h.idle, h.trace, h.deletes⟩
      · exact hname
  | app _ hdoes => exact h.does (fun _ => hname) hdoes
  | timer t => exact h.timerExpired t
  | api c => exact h.outside (outside_api c p)

/-- Before a call there is no timer, and the start-up arms none. -/
theorem Disciplined.startUp (h : Disciplined p) (m : MainCall) :
    Disciplined (p.startUp m).2 := by
  by_cases hidle : p.priv.name = none
  · have hset : Disciplined (p.dataSet m) :=
      ⟨h.timers, h.paused, fun _ => h.idle hidle, h.trace, h.deletes⟩
    have hnone {q : Process} (hout : Outside Call.IsOutside (p.dataSet m) q) :
        q.timers = [] ∧ liveTimers q.calls = [] ∧ DeletesLive q.calls := by
      have hq := hset.outside hout
      have hmftimer : q.priv.mftimer = none := by
        obtain ⟨_, _, _, _, _, _, _, -, rfl⟩ := hout
        exact h.idle hidle
      have htimers : q.timers = [] := by rw [hq.timers, hmftimer]; rfl
      exact ⟨htimers, hq.trace.trans htimers, hq.deletes⟩
    have hstarted := started_startUp m p
    generalize p.startUp m = r at hstarted
    cases hstarted with
    | refused => exact h
    | failed hout =>
        obtain ⟨htimers, htrace, hdeletes⟩ := hnone hout
        exact disciplined_of_none htimers rfl htrace hdeletes
    | entered _ hout =>
        obtain ⟨htimers, htrace, hdeletes⟩ := hnone hout
        refine disciplined_of_none htimers (h.idle hidle) ?_ ?_
        · rw [liveTimers_snoc]
          exact htrace
        · exact (deletesLive_snoc_of_ne (by simp)).mpr hdeletes
  · rw [startUp_of_busy hidle]
    exact h

/-- The end of a call cancels the timer that is left. -/
theorem Disciplined.leave (h : Disciplined p) (a : Rotation.Answers) (cs : List ApiCall) :
    Disciplined (p.leave a cs) := by
  obtain ⟨q, hout, heq⟩ := leave_eq a cs p
  obtain ⟨htimers, htrace, hdeletes⟩ := (h.outside hout).timerDel
  rw [timerDel_eq] at htimers htrace hdeletes
  rw [heq, tearDown_eq, ← List.append_assoc]
  refine disciplined_of_none htimers rfl ?_ ?_
  · rw [liveTimers_snoc]
    exact htrace
  · exact (deletesLive_snoc_of_ne (by simp)).mpr hdeletes

/-- **One action** keeps the discipline. -/
theorem disciplined_act (h : Disciplined p) (x : Action) : Disciplined (p.act x) := by
  have hact := acted_act p x
  generalize p.act x = q at hact
  cases hact with
  | enter m => exact h.startUp m
  | leave a cs => exact h.leave a cs
  | loop hname hstep => exact h.stepped hname hstep
  | request _ hevent =>
      refine h.does (fun hpause => ?_) (does_doApp _ _ _ p)
      subst hpause
      simp at hevent
  | outside hout => exact h.outside hout

/-! ### Who arms the timer -/

/-- Between `p` and `q` a timer was added only if the application went from running to
paused. -/
def ArmsInPause (p q : Process) : Prop :=
  ∀ h, .ecoreTimerAdd h ∈ newCalls p q → p.priv.state = .running ∧ q.priv.state = .paused

/-- Where no timer is added there is nothing to show. -/
theorem armsInPause_of_append (hq : q.calls = p.calls ++ l)
    (hl : ∀ h, .ecoreTimerAdd h ∉ l) : ArmsInPause p q := by
  intro h hmem
  rw [newCalls_of_append hq] at hmem
  exact absurd hmem (hl h)

/-- What leaves the EFL module alone adds no timer. -/
theorem Outside.armsInPause (h : Outside Call.IsOutside p q) : ArmsInPause p q := by
  obtain ⟨l, hl, hq⟩ := h.newCalls
  exact armsInPause_of_append hq fun t ht => (hl _ ht).2 trivial

/-- The deletion of a timer adds none. -/
theorem ecoreTimerAdd_notMem (u : UiPriv) (t : Option ℕ) :
    .ecoreTimerAdd t ∉ (u.mftimer.map Call.ecoreTimerDel).toList := by
  cases u.mftimer <;> simp

/-- `__do_app` adds a timer in a pause of a running application only. -/
theorem armsInPause_does {a : Answers} {e : AppEvent} (h : Does a p e q) : ArmsInPause p q := by
  cases h with
  | memFlush => exact ((logs_memFlush p).outside.mono fun _ hc => hc.isOutside).armsInPause
  | lowmemPost => exact ((logs_lowMemoryPostCb p).outside.mono fun _ hc => hc.isOutside).armsInPause
  | move _ _ hlogs =>
      obtain ⟨l, hl, rfl⟩ := hlogs
      rw [timerDel_eq]
      refine armsInPause_of_append (List.append_assoc _ _ _) fun t ht => ?_
      rcases List.mem_append.mp ht with ht | ht
      · exact ecoreTimerAdd_notMem _ t ht
      · exact hl _ ht
  | arm hrun _ hpause hrest =>
      obtain ⟨l, -, rfl⟩ := hpause
      obtain ⟨l', -, rfl⟩ := hrest
      rw [timerAdd_eq]
      exact fun _ _ => ⟨hrun, rfl⟩
  | again _ hlogs =>
      obtain ⟨l, hl, rfl⟩ := hlogs
      exact armsInPause_of_append rfl fun t ht => hl _ ht

/-- The start of a call adds no timer. -/
theorem armsInPause_startUp (m : MainCall) (p : Process) : ArmsInPause p (p.startUp m).2 := by
  have hstarted := started_startUp m p
  generalize p.startUp m = r at hstarted
  cases hstarted with
  | refused => exact armsInPause_of_append (List.append_nil _).symm (by simp)
  | failed hout =>
      obtain ⟨l, hl, hq⟩ := hout.newCalls
      exact armsInPause_of_append hq fun t ht => (hl _ ht).2 trivial
  | entered _ hout =>
      obtain ⟨l, hl, hq⟩ := hout.newCalls
      refine armsInPause_of_append (l := l ++ [.elmRun]) ?_ fun t ht => ?_
      · rw [← List.append_assoc]
        exact congrArg (· ++ [Call.elmRun]) hq
      · rcases List.mem_append.mp ht with ht | ht
        · exact (hl _ ht).2 trivial
        · simp at ht

/-- The end of a call adds no timer. -/
theorem armsInPause_leave (a : Rotation.Answers) (cs : List ApiCall) (p : Process) :
    ArmsInPause p (p.leave a cs) := by
  obtain ⟨q, hout, heq⟩ := leave_eq a cs p
  obtain ⟨l, hl, hq⟩ := hout.newCalls
  rw [heq, tearDown_eq, hq]
  refine armsInPause_of_append (List.append_assoc _ _ _) fun t ht => ?_
  simp only [List.mem_append, List.mem_singleton, reduceCtorEq, or_false] at ht
  rcases ht with ht | ht
  · exact (hl _ ht).2 trivial
  · exact ecoreTimerAdd_notMem _ t ht

/-- A timer that expires flushes, and arms none. -/
theorem armsInPause_timerExpired (t : ℕ) (p : Process) : ArmsInPause p (p.timerExpired t) := by
  by_cases hlive : t ∈ p.timers
  · obtain ⟨l, hl, -, heq⟩ := timerExpired_of_mem hlive
    rw [heq]
    refine armsInPause_of_append rfl fun t' ht => ?_
    rcases List.mem_append.mp ht with ht | ht
    · exact hl _ ht
    · simp at ht
  · rw [timerExpired_of_notMem hlive]
    exact armsInPause_of_append (List.append_nil _).symm (by simp)

/-- **Only a pause arms the timer.** -/
theorem armsInPause_act (p : Process) (x : Action) : ArmsInPause p (p.act x) := by
  have hact := acted_act p x
  generalize p.act x = q at hact
  cases hact with
  | enter m => exact armsInPause_startUp m p
  | leave a cs => exact armsInPause_leave a cs p
  | loop _ hstep =>
      cases hstep with
      | windows => exact armsInPause_of_append (List.append_nil _).symm (by simp)
      | switch _ _ hdoes =>
          have harms := armsInPause_does hdoes
          exact harms
      | app _ hdoes => exact armsInPause_does hdoes
      | timer t => exact armsInPause_timerExpired t p
      | api c => exact (outside_api c p).armsInPause
  | request => exact armsInPause_does (does_doApp _ _ _ p)
  | outside hout => exact hout.armsInPause

/-! ### Sessions -/

/-- A fresh process has no timer. -/
theorem disciplined_fresh (env : EnvVar → Option String) (locale : LcCategory → String)
    (rotateLock : Bool) : Disciplined (.fresh env locale rotateLock) :=
  disciplined_of_none rfl rfl rfl Trace.each_nil

/-- Sessions keep the invariant. -/
theorem disciplined_run (h : Disciplined p) (as : List Action) :
    Disciplined (Machine.run act p as) :=
  Machine.run_invariant (I := Disciplined) act (fun _ x hq => disciplined_act hq x) h as

/-- While no call is under way no timer is live. -/
theorem Disciplined.liveTimers_of_idle (h : Disciplined p) (hidle : p.priv.name = none) :
    liveTimers p.calls = [] := by
  rw [h.trace, h.timers, h.idle hidle]
  rfl

/-- **Flush timer discipline.** In every state of a session: at most one timer is live, and
its handle is the one stored; a stored handle is that of a live timer, and the application
is paused; timers were only deleted while live; the next action adds a timer only if it
takes the application from running to paused; and with no call under way, as after any
call of `appcore_efl_main` has returned, no timer is live. -/
theorem flushTimer_discipline (env : EnvVar → Option String) (locale : LcCategory → String)
    (rotateLock : Bool) (as : List Action) :
    let p := Machine.run act (.fresh env locale rotateLock) as
    p.timers = liveTimers p.calls ∧ p.timers.length ≤ 1 ∧
      (∀ h ∈ p.timers, p.priv.mftimer = some h) ∧
      (∀ h, p.priv.mftimer = some h → h ∈ p.timers ∧ p.priv.state = .paused) ∧
      DeletesLive p.calls ∧ (∀ x, ArmsInPause p (p.act x)) ∧
      (p.priv.name = none → p.timers = [] ∧ ∀ m, (p.appcoreEflMain m).2.timers = []) := by
  intro p
  have h : Disciplined p := disciplined_run (disciplined_fresh env locale rotateLock) as
  refine ⟨h.trace.symm, ?_, fun t ht => ?_, fun t ht => ⟨?_, ?_⟩, h.deletes, armsInPause_act p,
    fun hidle => ⟨?_, fun m => ?_⟩⟩
  · rw [h.timers]
    cases p.priv.mftimer <;> simp
  · rwa [h.timers, Option.mem_toList] at ht
  · rw [h.timers, ht]
    exact List.mem_singleton_self t
  · exact h.paused (by simp [ht])
  · exact h.trace.symm.trans (h.liveTimers_of_idle hidle)
  · have hname := name_appcoreEflMain hidle m
    rw [appcoreEflMain_eq_run hidle] at hname ⊢
    have hr := disciplined_run h
      (.enter m :: (m.events.map .handle ++ [.leave m.after m.terminateApi]))
    exact hr.trace.symm.trans (hr.liveTimers_of_idle hname)

/-- An application that is covered waits for its flush timer. -/
example : (Machine.run act plain [.enter (goodCall fullOps []), .aul .start none goodAnswers,
    .handle (.visibilityChange 1 true, goodAnswers)]).timers = [1] := by
  decide

end Process

end AppCore
