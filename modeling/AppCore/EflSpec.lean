import AppCore.LifeCycle

/-!
# What the Handlers of the EFL Module Do

The inversion of `__do_app` and of a step of the main loop, as far as timers, memory
flushing and the trace are concerned: which branch was taken, under which guard, and which
kind of entries it appended to the trace. The life cycle has its own inversion in
`Life.step_spec`; here the callbacks are only entries.

## Main results

* `logs_appcoreFlushMemory`: flushing memory changes nothing but the trace.
* `does_doApp`: **what `__do_app` can do**, by event.
* `stepped_step`: **what a step can do**: move windows, run a branch of `__do_app`, let a
  timer expire, or make an API call.
* `step_frame`, `platform_run`: **frame**, events of the loop that are no API calls leave
  the other modules as they are.
-/

set_option autoImplicit false

namespace AppCore

/-- The entries that flushing memory appends. -/
def Call.IsFlush : Call → Prop
  | .appcoreFlushMemory => True
  | .elmCacheAllFlush => True
  | .mallocTrim => True
  | .cbApp .. => True
  | .fault => True
  | _ => False

/-- The entries that the branches of `__do_app` append: callbacks, notifications of the
system and the request to leave the loop. -/
def Call.IsApp : Call → Prop
  | .pause .. => True
  | .resume .. => True
  | .reset .. => True
  | .sysmanInformBackgrd => True
  | .sysmanInformForegrd => True
  | .elmExit => True
  | _ => False

/-- The entries of the flush timer. -/
def Call.IsTimer : Call → Prop
  | .ecoreTimerAdd _ => True
  | .ecoreTimerDel _ => True
  | .ecoreTimerExpired _ => True
  | _ => False

/-- The entries that others append. -/
def Call.IsOutside (c : Call) : Prop :=
  ¬ c.IsApp ∧ ¬ c.IsTimer

/-- A flush is neither an entry of the application's callbacks nor of the timer. -/
theorem Call.IsFlush.isOutside {c : Call} (h : c.IsFlush) : c.IsOutside := by
  cases c <;> first | exact ⟨id, id⟩ | exact h.elim

/-- The event of `__do_app` that a main-loop event is, if it is one. -/
def Event.appEvent : Event → Option AppEvent
  | .reset _ => some .reset
  | .terminate => some .terminate
  | .lowmemPost => some .lowmemPost
  | .memFlush => some .memFlush
  | _ => none

/-- An event on a window after which the application may go to the background or come back
to the foreground. -/
def Event.IsSwitch : Event → Prop
  | .hide _ => True
  | .visibilityChange _ _ => True
  | _ => False

namespace Process

/-- From `p` to `q` nothing happened but that entries with `P` were appended to the
trace. -/
def Logs (P : Call → Prop) (p q : Process) : Prop :=
  ∃ l, (∀ c ∈ l, P c) ∧ q = { p with calls := p.calls ++ l }

variable {P : Call → Prop} {p q r : Process}

/-- A process that stands still appends nothing. -/
theorem Logs.refl (p : Process) : Logs P p p :=
  ⟨[], by simp, by simp⟩

/-- What is appended first and what is appended then. -/
theorem Logs.trans (h : Logs P p q) (k : Logs P q r) : Logs P p r := by
  obtain ⟨l, hl, rfl⟩ := h
  obtain ⟨m, hm, rfl⟩ := k
  refine ⟨l ++ m, fun c hc => ?_, by simp⟩
  rcases List.mem_append.mp hc with hc | hc
  · exact hl c hc
  · exact hm c hc

/-- Entries of one kind are entries of a wider kind. -/
theorem Logs.mono {Q : Call → Prop} (h : Logs P p q) (hPQ : ∀ c, P c → Q c) : Logs Q p q := by
  obtain ⟨l, hl, hq⟩ := h
  exact ⟨l, fun c hc => hPQ c (hl c hc), hq⟩

/-- An entry of the trace and nothing else. -/
theorem logs_call {c : Call} (hc : P c) (p : Process) : Logs P p (p.call c) :=
  ⟨[c], by simpa using hc, rfl⟩

/-- One more entry at the end. -/
theorem Logs.call (h : Logs P p q) {c : Call} (hc : P c) : Logs P p (q.call c) :=
  h.trans (logs_call hc q)

/-- An invocation through a pointer is appended, or there is none. -/
theorem logs_invoke {c : Addr → Call} (hc : ∀ fn, P (c fn)) (fn : Ptr) (p : Process) :
    Logs P p (p.invoke fn c) := by
  cases fn with
  | none => exact .refl p
  | some fn => exact logs_call (hc fn) p

/-- The entries appended to the trace from `p` to `q`. -/
def newCalls (p q : Process) : List Call :=
  q.calls.drop p.calls.length

/-- What was appended is what is new. -/
theorem newCalls_of_append {l : List Call} (h : q.calls = p.calls ++ l) : newCalls p q = l := by
  rw [newCalls, h, List.drop_left]

/-! ### Flushing memory -/

/-- `mfcb` only flushes memory. -/
theorem logs_memFlush (p : Process) : Logs Call.IsFlush p p.memFlush := by
  rw [memFlush]
  split
  · exact logs_call trivial p
  · exact logs_call trivial p

/-- `appcore_flush_memory` records itself first, and changes nothing but the trace. -/
theorem logs_call_appcoreFlushMemory (p : Process) :
    Logs Call.IsFlush (p.call .appcoreFlushMemory) p.appcoreFlushMemory.2 := by
  rw [appcoreFlushMemory]
  dsimp only
  split
  · exact .refl _
  · split
    · exact logs_call trivial _
    · refine Logs.call ?_ trivial
      split
      · exact .refl _
      · exact logs_memFlush _
      · exact logs_call trivial _

/-- `appcore_flush_memory` only flushes memory. -/
theorem logs_appcoreFlushMemory (p : Process) :
    Logs Call.IsFlush p p.appcoreFlushMemory.2 :=
  (logs_call trivial p).trans (logs_call_appcoreFlushMemory p)

/-- The flush on low memory, or nothing. -/
theorem logs_lowMemoryPostCb (p : Process) : Logs Call.IsFlush p p.lowMemoryPostCb.2 := by
  rw [lowMemoryPostCb]
  split
  · exact logs_appcoreFlushMemory p
  · exact logs_call trivial p

/-! ### `__do_app` -/

/-- Where `__do_app` leaves a process, by event. Which state it leaves it in is for the
life cycle to say, which states it armed a timer in is said here. -/
inductive Does (a : Answers) (p : Process) : AppEvent → Process → Prop
  | memFlush : Does a p .memFlush p.memFlush
  | lowmemPost : Does a p .lowmemPost p.lowMemoryPostCb.2
  /-- The flush timer is cancelled first. -/
  | move {e : AppEvent} {s : AppState} {q : Process} : e ≠ .memFlush → e ≠ .lowmemPost →
      Logs Call.IsApp { p.timerDel with priv.state := s } q → Does a p e q
  /-- A pause that is to flush memory after a while. -/
  | arm {q r : Process} : p.priv.state = .running → p.resourceReclaiming = true →
      Logs Call.IsApp { p.timerDel with priv.state := .paused } q →
      Logs Call.IsApp (q.timerAdd a) r → Does a p .pause r
  /-- A pause of an application that is paused keeps the timer. -/
  | again {q : Process} : p.priv.state = .paused → Logs Call.IsApp p q → Does a p .pause q

/-- **What `__appcore_timer_del` does.** -/
theorem timerDel_eq (p : Process) :
    p.timerDel = { p with
      priv.mftimer := none
      timers := p.priv.mftimer.elim p.timers p.timers.erase
      calls := p.calls ++ (p.priv.mftimer.map Call.ecoreTimerDel).toList } := by
  rw [timerDel]
  cases h : p.priv.mftimer with
  | none =>
      obtain ⟨_, _, _, _, _, ⟨_, _, _, _, _, mftimer, _, _⟩⟩ := p
      obtain rfl : mftimer = none := h
      simp
  | some h => rfl

/-- The handle that `ecore_timer_add` returns: a fresh one, or NULL. -/
def timerHandle (a : Answers) (p : Process) : Option ℕ :=
  if a.timer = true then some p.nextTimer else none

/-- **What `__appcore_timer_add` does.** -/
theorem timerAdd_eq (a : Answers) (p : Process) :
    p.timerAdd a = { p with
      priv.mftimer := p.timerHandle a
      timers := p.timers ++ (p.timerHandle a).toList
      nextTimer := p.nextTimer + (p.timerHandle a).toList.length
      calls := p.calls ++ [.ecoreTimerAdd (p.timerHandle a)] } := by
  rw [timerAdd, timerHandle]
  split
  · rfl
  · simp [Process.call]

/-- Without a change of the state. -/
theorem Does.stay {a : Answers} {e : AppEvent} (hflush : e ≠ .memFlush)
    (hlow : e ≠ .lowmemPost) (h : Logs Call.IsApp p.timerDel q) : Does a p e q :=
  .move (s := p.timerDel.priv.state) hflush hlow h

/-- What `AE_RESET` does. -/
theorem does_doReset (ops : AppcoreOps) (a : Answers) (b : Ptr) (p : Process) :
    Does a p .reset (p.timerDel.doReset ops b) := by
  obtain ⟨l, hl, hq⟩ : Logs Call.IsApp p.timerDel
      (p.timerDel.invoke ops.reset (.reset · b ops.data)) :=
    logs_invoke (fun _ => trivial) _ _
  rw [doReset, hq]
  exact .move (by simp) (by simp) ⟨l, hl, rfl⟩

/-- What `AE_RESUME` does, in the paused state or in another. -/
theorem does_doResume (ops : AppcoreOps) (a : Answers) (p : Process) :
    Does a p .resume (p.timerDel.doResume ops) := by
  obtain ⟨l, hl, hq⟩ : Logs Call.IsApp p.timerDel
      (p.timerDel.invoke ops.resume (.resume · ops.data)) :=
    logs_invoke (fun _ => trivial) _ _
  rw [doResume, hq]
  split
  · exact .move (s := .running) (by simp) (by simp)
      (Logs.call (c := .sysmanInformForegrd) ⟨l, hl, rfl⟩ trivial)
  · exact .stay (by simp) (by simp) (logs_call trivial _)

/-- What `AE_PAUSE` does, in the running state or in another. -/
theorem does_doPause (ops : AppcoreOps) (a : Answers) (p : Process) :
    Does a p .pause (p.timerDel.doPause ops a) := by
  have hstate : p.timerDel.priv.state = p.priv.state := by rw [timerDel_eq]
  have hflag : p.timerDel.resourceReclaiming = p.resourceReclaiming := by rw [timerDel_eq]
  obtain ⟨l, hl, hq⟩ : Logs Call.IsApp p.timerDel
      (p.timerDel.invoke ops.pause (.pause · ops.data)) :=
    logs_invoke (fun _ => trivial) _ _
  rw [doPause, hstate]
  by_cases hrun : p.priv.state = .running
  · rw [if_pos hrun, hq]
    by_cases harm : 0 ≤ (if ops.pause = none then -1 else a.ret) ∧
        p.timerDel.resourceReclaiming = true
    · dsimp only
      rw [if_pos harm]
      exact .arm hrun (hflag.symm.trans harm.2) ⟨l, hl, rfl⟩ (logs_call trivial _)
    · dsimp only
      rw [if_neg harm]
      exact .move (s := .paused) (by simp) (by simp)
        (Logs.call (c := .sysmanInformBackgrd) ⟨l, hl, rfl⟩ trivial)
  · rw [if_neg hrun]
    exact .stay (by simp) (by simp) (logs_call trivial _)

/-- What the rest of `__do_app` does with the other events. -/
theorem does_doAppTail (e : AppEvent) (b : Ptr) (a : Answers) (p : Process)
    (hflush : e ≠ .memFlush) (hlow : e ≠ .lowmemPost) : Does a p e (p.doAppTail e b a) := by
  have hops : p.timerDel.priv.ops = p.priv.ops := by rw [timerDel_eq]
  rw [doAppTail]
  by_cases hagain : p.priv.state = .paused ∧ e = .pause
  · rw [if_pos hagain]
    obtain ⟨hpaused, rfl⟩ := hagain
    dsimp only
    rw [if_neg (by simp)]
    cases p.priv.ops with
    | none => exact .again hpaused (.refl p)
    | some ops =>
        dsimp only
        rw [doPause, if_neg (by simp [hpaused])]
        exact .again hpaused (logs_call trivial p)
  · rw [if_neg hagain]
    dsimp only
    by_cases hterm : e = .terminate
    · rw [if_pos hterm]
      exact .move hflush hlow (logs_call trivial _)
    · rw [if_neg hterm, hops]
      cases p.priv.ops with
      | none => exact .stay hflush hlow (.refl _)
      | some ops =>
          cases e with
          | memFlush => exact absurd rfl hflush
          | lowmemPost => exact absurd rfl hlow
          | terminate => exact absurd rfl hterm
          | unknown => exact .stay hflush hlow (.refl _)
          | create => exact .stay hflush hlow (.refl _)
          | pause => exact does_doPause ops a p
          | reset => exact does_doReset ops a b p
          | resume => exact does_doResume ops a p

/-- **What `__do_app` can do.** -/
theorem does_doApp (e : AppEvent) (b : Ptr) (a : Answers) (p : Process) :
    Does a p e (p.doApp e b a) := by
  rw [doApp]
  by_cases hflush : e = .memFlush
  · rw [if_pos hflush, hflush]
    exact .memFlush
  · rw [if_neg hflush]
    by_cases hlow : e = .lowmemPost
    · rw [if_pos hlow, hlow]
      dsimp only
      rw [if_pos (lowMemoryPostCb_fst p)]
      exact .lowmemPost
    · rw [if_neg hlow]
      exact does_doAppTail e b a p hflush hlow

/-- The entries that `__do_app` appends: without an event of memory those of callbacks and
timers only. -/
def AppCalls (e : AppEvent) (l : List Call) : Prop :=
  e ≠ .memFlush → e ≠ .lowmemPost → ∀ c ∈ l, c.IsApp ∨ c.IsTimer

/-- Deleting the timer appends an entry of the timer, if there is a timer. -/
theorem isTimer_timerDel (p : Process) :
    ∀ c ∈ (p.priv.mftimer.map Call.ecoreTimerDel).toList, c.IsTimer := by
  cases p.priv.mftimer <;> simp [Call.IsTimer]

/-- **Frame**: `__do_app` writes the state and the timers, and appends to the trace. -/
theorem does_frame {a : Answers} {e : AppEvent} (h : Does a p e q) :
    ∃ state mftimer timers nextTimer l,
      q = { p with
        priv.state := state
        priv.mftimer := mftimer
        timers := timers
        nextTimer := nextTimer
        calls := p.calls ++ l } ∧ AppCalls e l := by
  have hdel {s : AppState} {q : Process}
      (h : Logs Call.IsApp { p.timerDel with priv.state := s } q) :
      ∃ l, (∀ c ∈ l, c.IsApp ∨ c.IsTimer) ∧ q = { p with
        priv.state := s
        priv.mftimer := none
        timers := p.priv.mftimer.elim p.timers p.timers.erase
        calls := p.calls ++ l } := by
    obtain ⟨l, hl, rfl⟩ := h
    rw [timerDel_eq, List.append_assoc]
    refine ⟨_, fun c hc => ?_, rfl⟩
    rcases List.mem_append.mp hc with hc | hc
    · exact .inr (isTimer_timerDel p c hc)
    · exact .inl (hl c hc)
  cases h with
  | memFlush =>
      obtain ⟨l, -, hq⟩ := logs_memFlush p
      exact ⟨_, _, _, _, l, hq, fun h => absurd rfl h⟩
  | lowmemPost =>
      obtain ⟨l, -, hq⟩ := logs_lowMemoryPostCb p
      exact ⟨_, _, _, _, l, hq, fun _ h => absurd rfl h⟩
  | move _ _ h =>
      obtain ⟨l, hl, hq⟩ := hdel h
      exact ⟨_, _, _, _, l, hq, fun _ _ => hl⟩
  | arm _ _ h h' =>
      obtain ⟨l, hl, rfl⟩ := hdel h
      obtain ⟨l', hl', rfl⟩ := h'
      rw [timerAdd_eq, List.append_assoc, List.append_assoc]
      refine ⟨_, _, _, _, _, rfl, fun _ _ c hc => ?_⟩
      simp only [List.mem_append, List.mem_singleton] at hc
      rcases hc with (hc | hc) | hc
      · exact hl c hc
      · rw [hc]
        exact .inr trivial
      · exact .inl (hl' c hc)
  | again _ h =>
      obtain ⟨l, hl, hq⟩ := h
      exact ⟨_, _, _, _, l, hq, fun _ _ c hc => .inl (hl c hc)⟩

/-! ### Steps of the loop -/

/-- Where a step of the main loop leaves a process. -/
inductive Stepped (a : Answers) (p : Process) : Event → Process → Prop
  /-- Window events at most change the windows, -/
  | windows {e : Event} {wins : List WinNode} :
      e.appEvent = none → (∀ h, e ≠ .timer h) → (∀ c, e ≠ .api c) →
      Stepped a p e { p with gWinnodeList := wins }
  /-- or the application leaves the foreground or comes back to it. -/
  | switch {e : Event} {ev : AppEvent} {wins : List WinNode} {active : Bool} {q : Process} :
      e.IsSwitch → ev = .pause ∨ ev = .resume →
      Does a { p with gWinnodeList := wins, bActive := active } ev q → Stepped a p e q
  | app {e : Event} {ev : AppEvent} {q : Process} :
      e.appEvent = some ev → Does a p ev q → Stepped a p e q
  | timer (h : ℕ) : Stepped a p (.timer h) (p.timerExpired h)
  | api (c : ApiCall) : Stepped a p (.api c) (p.runApi c)

/-- What a show event does. -/
theorem stepped_showCb (win : BitVec 32) (ret : ℤ) (a : Answers) (p : Process) :
    Stepped a p (.show win ret) (p.showCb win ret a) := by
  have hwins (wins : List WinNode) :
      Stepped a p (.show win ret) { p with gWinnodeList := wins } :=
    .windows rfl (by simp) (by simp)
  rw [showCb]
  split
  · exact hwins p.gWinnodeList
  · split
    · exact hwins _
    · exact hwins _

/-- What a hide event does. -/
theorem stepped_hideCb (win : BitVec 32) (a : Answers) (p : Process) :
    Stepped a p (.hide win) (p.hideCb win a) := by
  have hwins (wins : List WinNode) : Stepped a p (.hide win) { p with gWinnodeList := wins } :=
    .windows rfl (by simp) (by simp)
  rw [hideCb]
  split
  · dsimp only
    split
    · exact .switch trivial (.inl rfl) (does_doApp .pause none a _)
    · exact hwins _
  · exact hwins p.gWinnodeList

/-- What a visibility-change event does. -/
theorem stepped_visibilityCb (win : BitVec 32) (o : Bool) (a : Answers) (p : Process) :
    Stepped a p (.visibilityChange win o) (p.visibilityCb win o a) := by
  rw [visibilityCb]
  dsimp only
  split
  · exact .switch trivial (.inr rfl) (does_doApp .resume none a _)
  · split
    · exact .switch trivial (.inl rfl) (does_doApp .pause none a _)
    · exact .windows rfl (by simp) (by simp)

/-- **What a step can do.** -/
theorem stepped_step (p : Process) (x : Event × Answers) : Stepped x.2 p x.1 (p.step x) := by
  obtain ⟨e, a⟩ := x
  cases e with
  | «show» win ret => exact stepped_showCb win ret a p
  | hide win => exact stepped_hideCb win a p
  | visibilityChange win o => exact stepped_visibilityCb win o a p
  | reset b => exact .app rfl (does_doApp .reset b a p)
  | terminate => exact .app rfl (does_doApp .terminate none a p)
  | lowmemPost => exact .app rfl (does_doApp .lowmemPost none a p)
  | memFlush => exact .app rfl (does_doApp .memFlush none a p)
  | timer h => exact .timer h
  | api c => exact .api c

/-- **What the expiry of a timer does**: a live one flushes memory and is gone. -/
theorem timerExpired_of_mem {h : ℕ} (hlive : h ∈ p.timers) :
    ∃ l, (∀ c ∈ l, Call.IsFlush c) ∧ p.appcoreFlushMemory.2.calls = p.calls ++ l ∧
      p.timerExpired h = { p with
        priv.mftimer := none
        timers := p.timers.erase h
        calls := p.calls ++ (l ++ [.ecoreTimerExpired h]) } := by
  obtain ⟨l, hl, hq⟩ := logs_appcoreFlushMemory p
  refine ⟨l, hl, by rw [hq], ?_⟩
  rw [timerExpired, if_pos hlive, memoryFlushCb, hq, ← List.append_assoc]
  rfl

/-- A timer that is not live does not expire. -/
theorem timerExpired_of_notMem {h : ℕ} (hlive : h ∉ p.timers) : p.timerExpired h = p := by
  rw [timerExpired, if_neg hlive]

/-- From `p` to `q` nothing happened to what the EFL module holds, but that entries with `P`
were appended to the trace. -/
def Outside (P : Call → Prop) (p q : Process) : Prop :=
  ∃ core vconf aul i18n rotation resourceReclaiming,
    Logs P
      { p with
        core := core
        vconf := vconf
        aul := aul
        i18n := i18n
        rotation := rotation
        resourceReclaiming := resourceReclaiming } q

/-- A process that stands still leaves it alone. -/
theorem Outside.refl (p : Process) : Outside P p p :=
  ⟨_, _, _, _, _, _, .refl p⟩

/-- What happens first and what happens then. -/
theorem Outside.trans (h : Outside P p q) (k : Outside P q r) : Outside P p r := by
  obtain ⟨_, _, _, _, _, _, l, hl, rfl⟩ := h
  obtain ⟨core, vconf, aul, i18n, rotation, flag, k⟩ := k
  refine ⟨core, vconf, aul, i18n, rotation, flag, Logs.trans ?_ k⟩
  exact ⟨l, hl, rfl⟩

/-- Entries of one kind are entries of a wider kind. -/
theorem Outside.mono {Q : Call → Prop} (h : Outside P p q) (hPQ : ∀ c, P c → Q c) :
    Outside Q p q := by
  obtain ⟨_, _, _, _, _, _, h⟩ := h
  exact ⟨_, _, _, _, _, _, h.mono hPQ⟩

/-- Appending entries leaves what the EFL module holds alone. -/
theorem Logs.outside (h : Logs P p q) : Outside P p q :=
  ⟨_, _, _, _, _, _, h⟩

/-- An entry leaves what the EFL module holds alone. -/
theorem outside_call {c : Call} (hc : P c) (p : Process) : Outside P p (p.call c) :=
  (logs_call hc p).outside

/-- The entries that it appends. -/
theorem Outside.newCalls (h : Outside P p q) :
    ∃ l, (∀ c ∈ l, P c) ∧ q.calls = p.calls ++ l := by
  obtain ⟨_, _, _, _, _, _, l, hl, rfl⟩ := h
  exact ⟨l, hl, rfl⟩

/-- **Frame of API calls**: they do not touch what the EFL module holds. -/
theorem outside_runApi (c : ApiCall) (p : Process) :
    Outside Call.IsFlush p (p.runApi c) := by
  cases c with
  | init name ops a =>
      rw [runApi, appcoreInit_eq]
      dsimp only
      split_ifs <;> exact ⟨_, _, _, _, _, _, .refl _⟩
  | exit =>
      rw [runApi, appcoreExit_eq]
      split <;> exact ⟨_, _, _, _, _, _, .refl _⟩
  | setEventCallback event cb data =>
      rw [runApi, setEventCallback]
      split <;> exact ⟨_, _, _, _, _, _, .refl _⟩
  | setI18n domainname a => exact ⟨_, _, _, _, _, _, .refl _⟩
  | setSystemResourceReclaiming enable => exact ⟨_, _, _, _, _, _, .refl _⟩
  | flushMemory => exact (logs_appcoreFlushMemory p).outside
  | rotation c a ρ => exact ⟨_, _, _, _, _, _, .refl _⟩

/-- **Frame of steps**: an event that is no API call writes the state, the timers, the
windows and `b_active`, and appends to the trace. -/
theorem step_frame {x : Event × Answers} (hx : ∀ c, x.1 ≠ .api c) (p : Process) :
    ∃ state mftimer timers nextTimer wins active l,
      p.step x = { p with
        priv.state := state
        priv.mftimer := mftimer
        timers := timers
        nextTimer := nextTimer
        gWinnodeList := wins
        bActive := active
        calls := p.calls ++ l } := by
  obtain ⟨e, a⟩ := x
  have h : Stepped a p e (p.step (e, a)) := stepped_step p (e, a)
  generalize p.step (e, a) = q at h
  cases h with
  | windows => exact ⟨_, _, _, _, _, _, [], by rw [List.append_nil]⟩
  | switch _ _ h =>
      obtain ⟨_, _, _, _, _, rfl, -⟩ := does_frame h
      exact ⟨_, _, _, _, _, _, _, rfl⟩
  | app _ h =>
      obtain ⟨_, _, _, _, _, rfl, -⟩ := does_frame h
      exact ⟨_, _, _, _, _, _, _, rfl⟩
  | timer h =>
      by_cases hlive : h ∈ p.timers
      · obtain ⟨_, _, -, heq⟩ := timerExpired_of_mem hlive
        exact ⟨_, _, _, _, _, _, _, heq⟩
      · rw [timerExpired_of_notMem hlive]
        exact ⟨_, _, _, _, _, _, [], by rw [List.append_nil]⟩
  | api c => exact absurd rfl (hx c)

end Process

/-! ### The other modules -/

/-- The part of a process that the EFL module does not own. -/
structure Platform where
  core : Appcore
  vconf : Finset VconfKey
  aul : Bool
  i18n : I18n
  rotation : Rotation
  resourceReclaiming : Bool

/-- The call initialises the library. -/
def ApiCall.IsInit : ApiCall → Prop
  | .init .. => True
  | _ => False

/-- The call sets a text domain through the API. -/
def ApiCall.IsSetI18n : ApiCall → Prop
  | .setI18n .. => True
  | _ => False

/-- The API call does not touch what the i18n module holds. -/
def ApiCall.KeepsI18n : ApiCall → Prop
  | .init .. => False
  | .setI18n .. => False
  | _ => True

namespace Process

/-- What the other modules hold. -/
def platform (p : Process) : Platform :=
  ⟨p.core, p.vconf, p.aul, p.i18n, p.rotation, p.resourceReclaiming⟩

/-- **Frame, one step**: an event that is no API call leaves the other modules alone. -/
theorem platform_step (p : Process) {x : Event × Answers} (hx : ∀ c, x.1 ≠ .api c) :
    (p.step x).platform = p.platform := by
  obtain ⟨_, _, _, _, _, _, _, hq⟩ := step_frame hx p
  rw [hq]
  rfl

/-- **Frame of runs.** -/
theorem platform_run (p : Process) {es : List (Event × Answers)}
    (hes : ∀ x ∈ es, ∀ c, x.1 ≠ .api c) : (Machine.run step p es).platform = p.platform :=
  Machine.AtEach.run_invariant (I := fun q : Process => q.platform = p.platform)
    (fun q _ hq hx => (platform_step q hx).trans hq) rfl (Machine.atEach_of_forall hes)

/-- Of the API calls only `appcore_init` and `appcore_set_i18n` change the locale. -/
theorem i18n_runApi {c : ApiCall} (hc : c.KeepsI18n) (p : Process) :
    (p.runApi c).i18n = p.i18n := by
  cases c with
  | init name ops a => exact hc.elim
  | exit =>
      rw [runApi, appcoreExit_eq]
      split <;> rfl
  | setEventCallback event cb data =>
      rw [runApi, setEventCallback]
      split <;> rfl
  | setI18n domainname a => exact hc.elim
  | setSystemResourceReclaiming enable => rfl
  | flushMemory =>
      obtain ⟨l, -, heq⟩ := logs_appcoreFlushMemory p
      rw [runApi, heq]
  | rotation c a ρ => rfl

/-- Of the API calls only `appcore_set_i18n` writes the sticky flag. -/
theorem set_runApi {c : ApiCall} (hc : ¬ c.IsSetI18n) (p : Process) :
    (p.runApi c).i18n.set = p.i18n.set := by
  by_cases hkeeps : c.KeepsI18n
  · rw [i18n_runApi hkeeps]
  · cases c with
    | init name ops a =>
        rw [runApi, appcoreInit_eq]
        dsimp only
        split_ifs <;> simp
    | setI18n domainname a => exact absurd trivial hc
    | _ => exact absurd trivial hkeeps

/-- Of the API calls only `appcore_init` puts an idle core into use. -/
theorem core_idle_runApi {c : ApiCall} (hc : ¬ c.IsInit) {p : Process}
    (hstate : p.core.state = 0) : (p.runApi c).core.state = 0 := by
  cases c with
  | init name ops a => exact absurd trivial hc
  | exit =>
      rw [runApi, appcoreExit_eq]
      split
      · rfl
      · exact hstate
  | setEventCallback event cb data =>
      rw [runApi, setEventCallback]
      split
      · exact hstate
      · exact hstate
      · exact hstate
  | setI18n domainname a => exact hstate
  | setSystemResourceReclaiming enable => exact hstate
  | flushMemory =>
      obtain ⟨l, -, heq⟩ := logs_appcoreFlushMemory p
      rw [runApi, heq]
      exact hstate
  | rotation c a ρ => exact hstate

end Process

end AppCore
