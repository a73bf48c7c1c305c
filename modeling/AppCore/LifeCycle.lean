import AppCore.Efl

/-!
# The Life Cycle of an Application

What the application sees of the EFL module is its life cycle: which mode it is in,
whether it is in the foreground, which of its windows are visible, and the callbacks and
system notifications this leads to. `Life` is that part of a process on its own, with a
step function that knows nothing of timers, memory flushing, the core module or the
rotation module. `life_step` shows that the process refines it, and every result on
callbacks, notifications and visibility is proved over `Life` and carried back.

## Main results

* `Life.step_spec`: **what one step can do**, as the relation `Life.Step`; the invariants
  of the life cycle are case analyses over it.
* `Process.life_step`, `Process.life_run`: the life cycle of the process is a run of the
  abstract one.
-/

set_option autoImplicit false

namespace AppCore

/-- The entries of the trace that belong to the life cycle: the five callbacks and the
two notifications of the system. -/
def Call.isLife : Call → Bool
  | .create .. => true
  | .terminate .. => true
  | .pause .. => true
  | .resume .. => true
  | .reset .. => true
  | .sysmanInformBackgrd => true
  | .sysmanInformForegrd => true
  | _ => false

/-- The event `AE_RESET`. -/
def Event.IsReset (e : Event) : Prop :=
  ∃ b, e = .reset b

/-- The life cycle of an application. -/
structure Life where
  state : AppState
  ops : Option AppcoreOps
  bActive : Bool
  wins : List WinNode
  trace : List Call

namespace Life

/-- Append an entry to the trace. -/
def emit (c : Call) (l : Life) : Life :=
  { l with trace := l.trace ++ [c] }

/-- Invoke a callback unless it is NULL. -/
def invoke (fn : Ptr) (c : Addr → Call) (l : Life) : Life :=
  match fn with
  | some fn => l.emit (c fn)
  | none => l

/-- A launch or relaunch: the application runs, whatever it did before. -/
def reset (b : Ptr) (l : Life) : Life :=
  match l.ops with
  | none => l
  | some ops => { l.invoke ops.reset (.reset · b ops.data) with state := .running }

/-- The request to quit. -/
def terminate (l : Life) : Life :=
  { l with state := .dying }

/-- A change between foreground and background: an application in the mode `old` is told
by a callback and changes to the mode `new`, and the system is told in any case. -/
def switch (old new : AppState) (fn : AppcoreOps → Ptr) (c : Addr → Ptr → Call)
    (note : Call) (l : Life) : Life :=
  match l.ops with
  | none => l
  | some ops =>
      let l : Life :=
        if l.state = old then
          { l.invoke (fn ops) (c · ops.data) with state := new }
        else l
      l.emit note

/-- To the background: a running application is paused. -/
abbrev background (l : Life) : Life :=
  l.switch .running .paused AppcoreOps.pause Call.pause .sysmanInformBackgrd

/-- To the foreground: a paused application is resumed. -/
abbrev foreground (l : Life) : Life :=
  l.switch .paused .running AppcoreOps.resume Call.resume .sysmanInformForegrd

/-- A window shows. -/
def showWin (win : BitVec 32) (ret : ℤ) (calloc : Bool) (l : Life) : Life :=
  if ret ≠ 1 then l
  else if existWin win l.wins = false then { l with wins := (addWin win calloc l.wins).2 }
  else { l with wins := (updateWin win false calloc l.wins).2 }

/-- A known window hides: without a visible window left, to the background. -/
def hide (win : BitVec 32) (l : Life) : Life :=
  if existWin win l.wins = true then
    let l : Life := { l with wins := (deleteWin win l.wins).2 }
    if checkVisible l.wins = false ∧ l.bActive = true then
      { l with bActive := false }.background
    else l
  else l

/-- The visibility of a window changes: the application follows its windows. -/
def visibilityChange (win : BitVec 32) (fullyObscured calloc : Bool) (l : Life) : Life :=
  let l : Life := { l with wins := (updateWin win fullyObscured calloc l.wins).2 }
  if checkVisible l.wins = true ∧ l.bActive = false then
    { l with bActive := true }.foreground
  else if checkVisible l.wins = false ∧ l.bActive = true then
    { l with bActive := false }.background
  else l

/-- One step of the life cycle; memory, timers and API calls do not matter to it. -/
def step (l : Life) (x : Event × Answers) : Life :=
  match x.1 with
  | .show win ret => l.showWin win ret x.2.calloc
  | .hide win => l.hide win
  | .visibilityChange win fullyObscured =>
      l.visibilityChange win fullyObscured x.2.calloc
  | .reset b => l.reset b
  | .terminate => l.terminate
  | _ => l

/-! ### What the moves change -/

/-- The callback runs in the state it was called in. -/
@[simp] theorem invoke_state (fn : Ptr) (c : Addr → Call) (l : Life) :
    (l.invoke fn c).state = l.state := by
  cases fn <;> rfl

/-- An invocation leaves the table alone. -/
@[simp] theorem invoke_ops (fn : Ptr) (c : Addr → Call) (l : Life) :
    (l.invoke fn c).ops = l.ops := by
  cases fn <;> rfl

/-- An invocation leaves `b_active` alone. -/
@[simp] theorem invoke_bActive (fn : Ptr) (c : Addr → Call) (l : Life) :
    (l.invoke fn c).bActive = l.bActive := by
  cases fn <;> rfl

/-- An invocation leaves the window list alone. -/
@[simp] theorem invoke_wins (fn : Ptr) (c : Addr → Call) (l : Life) :
    (l.invoke fn c).wins = l.wins := by
  cases fn <;> rfl

/-- A callback appends at most the entry of its invocation to the trace. -/
theorem invoke_trace (fn : Ptr) (c : Addr → Call) (l : Life) :
    (l.invoke fn c).trace = l.trace ++ (fn.map c).toList := by
  cases fn with
  | none => exact (List.append_nil _).symm
  | some fn => rfl

section Reset

variable (b : Ptr) (l : Life)

/-- A reset leaves the table alone. -/
@[simp] theorem reset_ops : (l.reset b).ops = l.ops := by
  rw [reset]
  split <;> simp

/-- A reset leaves `b_active` alone. -/
@[simp] theorem reset_bActive : (l.reset b).bActive = l.bActive := by
  rw [reset]
  split <;> simp

/-- A reset leaves the window list alone. -/
@[simp] theorem reset_wins : (l.reset b).wins = l.wins := by
  rw [reset]
  split <;> simp

variable {b l}

/-- A handled reset leaves the application running, from any state. -/
theorem reset_state {ops : AppcoreOps} (hops : l.ops = some ops) :
    (l.reset b).state = .running := by
  simp only [reset, hops]

/-- Without a table `__do_app` does nothing. -/
theorem reset_state_of_ops_none (hops : l.ops = none) : (l.reset b).state = l.state := by
  simp only [reset, hops]

/-- A reset invokes the callback with the bundle, if there is one. -/
theorem reset_trace {ops : AppcoreOps} (hops : l.ops = some ops) :
    (l.reset b).trace = l.trace ++ (ops.reset.map (.reset · b ops.data)).toList := by
  simp only [reset, hops, invoke_trace]

end Reset

section Switch

variable {old new : AppState} {fn : AppcoreOps → Ptr} {c : Addr → Ptr → Call} {note : Call}
variable {l : Life}

/-- A switch leaves the table alone. -/
@[simp] theorem switch_ops : (l.switch old new fn c note).ops = l.ops := by
  rw [switch]
  split
  · rfl
  · dsimp only
    split <;> simp [emit]

/-- A switch leaves `b_active` alone. -/
@[simp] theorem switch_bActive : (l.switch old new fn c note).bActive = l.bActive := by
  rw [switch]
  split
  · rfl
  · dsimp only
    split <;> simp [emit]

/-- A switch leaves the window list alone. -/
@[simp] theorem switch_wins : (l.switch old new fn c note).wins = l.wins := by
  rw [switch]
  split
  · rfl
  · dsimp only
    split <;> simp [emit]

/-- Without a table `__do_app` does nothing. -/
theorem switch_state_of_ops_none (hops : l.ops = none) :
    (l.switch old new fn c note).state = l.state := by
  simp only [switch, hops]

/-- A switch changes the state if it is the old one. -/
theorem switch_state {ops : AppcoreOps} (hops : l.ops = some ops) :
    (l.switch old new fn c note).state = if l.state = old then new else l.state := by
  simp only [switch, hops]
  split <;> rfl

/-- With callbacks, a switch leaves the mode it is for. -/
theorem switch_state_ne (hops : l.ops ≠ none) (hne : new ≠ old) :
    (l.switch old new fn c note).state ≠ old := by
  obtain ⟨ops, hops⟩ := Option.ne_none_iff_exists'.mp hops
  rw [switch_state hops]
  split
  · exact hne
  · assumption

/-- A switch invokes its callback in the old state only, but the system is told in any state. -/
theorem switch_trace {ops : AppcoreOps} (hops : l.ops = some ops) :
    (l.switch old new fn c note).trace =
      l.trace ++
        ((if l.state = old then ((fn ops).map (c · ops.data)).toList else []) ++ [note]) := by
  simp only [switch, hops]
  split
  · simp [emit, invoke_trace]
  · simp [emit]

end Switch

/-! ### What one step can do -/

/-- A **checkpoint**: an event after which the module looks whether a window is visible,
that is a visibility change, or the hiding of a known window. -/
def Checkpoint (wins : List WinNode) : Event → Prop
  | .visibilityChange _ _ => True
  | .hide win => existWin win wins = true
  | _ => False

/-- The steps of the life cycle: the three moves that change the state, with the list the
windows are left in, and the events that at most change the windows. -/
inductive Step (l : Life) : Event → Life → Prop
  | reset (b : Ptr) : Step l (.reset b) (l.reset b)
  | terminate : Step l .terminate l.terminate
  | background {e : Event} {wins : List WinNode} (he : Checkpoint l.wins e)
      (hvisible : checkVisible wins = false) (hactive : l.bActive = true) :
      Step l e { l with wins := wins, bActive := false }.background
  | foreground {win : BitVec 32} {o : Bool} {wins : List WinNode}
      (hvisible : checkVisible wins = true) (hactive : l.bActive = false) :
      Step l (.visibilityChange win o) { l with wins := wins, bActive := true }.foreground
  | windows {e : Event} {wins : List WinNode} (hreset : ∀ b, e ≠ .reset b)
      (hterminate : e ≠ .terminate)
      (hbackground : Checkpoint l.wins e → checkVisible wins = false → l.bActive = false)
      (hforeground : (∃ win o, e = .visibilityChange win o) → checkVisible wins = true →
        l.bActive = true) :
      Step l e { l with wins := wins }

/-- An event that concerns neither the windows nor the state leaves everything alone. -/
theorem step_idle {l : Life} {e : Event} (hreset : ∀ b, e ≠ .reset b)
    (hterminate : e ≠ .terminate) (hcheck : ¬ Checkpoint l.wins e)
    (hvis : ∀ win o, e ≠ .visibilityChange win o) : Step l e l :=
  .windows hreset hterminate (fun h => absurd h hcheck)
    (fun ⟨win, o, h⟩ => absurd h (hvis win o))

/-- A show event changes the window list and nothing else. -/
theorem step_showWin (l : Life) (win : BitVec 32) (ret : ℤ) (calloc : Bool) :
    ∃ wins, l.showWin win ret calloc = { l with wins := wins } := by
  rw [showWin]
  split
  · exact ⟨l.wins, rfl⟩
  · split
    · exact ⟨_, rfl⟩
    · exact ⟨_, rfl⟩

/-- **What one step can do.** -/
theorem step_spec (l : Life) (x : Event × Answers) : Step l x.1 (l.step x) := by
  obtain ⟨e, a⟩ := x
  cases e with
  | «show» win ret =>
      obtain ⟨wins, h⟩ := l.step_showWin win ret a.calloc
      simp only [step, h]
      exact .windows (by simp) (by simp) (fun h => absurd h (by simp [Checkpoint])) (by simp)
  | hide win =>
      simp only [step, hide]
      split
      · rename_i hexist
        split
        · rename_i h
          exact .background hexist h.1 h.2
        · rename_i h
          refine .windows (by simp) (by simp) (fun _ hv => ?_) (by simp)
          simpa [hv] using h
      · rename_i hexist
        exact step_idle (by simp) (by simp) hexist (by simp)
  | visibilityChange win o =>
      simp only [step, visibilityChange]
      split
      · rename_i h
        exact .foreground h.1 h.2
      · rename_i hfore
        split
        · rename_i h
          exact .background trivial h.1 h.2
        · rename_i hback
          refine .windows (by simp) (by simp) (fun _ hv => ?_) (fun _ hv => ?_)
          · simpa [hv] using hback
          · simpa [hv] using hfore
  | reset b => exact .reset b
  | terminate => exact .terminate
  | lowmemPost => exact step_idle (by simp) (by simp) (by simp [Checkpoint]) (by simp)
  | memFlush => exact step_idle (by simp) (by simp) (by simp [Checkpoint]) (by simp)
  | timer h => exact step_idle (by simp) (by simp) (by simp [Checkpoint]) (by simp)
  | api c => exact step_idle (by simp) (by simp) (by simp [Checkpoint]) (by simp)

end Life

namespace Process

/-- The life cycle of a process. -/
def life (p : Process) : Life :=
  ⟨p.priv.state, p.priv.ops, p.bActive, p.gWinnodeList, p.calls.filter Call.isLife⟩

/-- The state is that of `priv`. -/
theorem life_state (p : Process) : p.life.state = p.priv.state := rfl

/-- The table is that of `priv`. -/
theorem life_ops (p : Process) : p.life.ops = p.priv.ops := rfl

/-- The windows are those of `g_winnode_list`. -/
theorem life_wins (p : Process) : p.life.wins = p.gWinnodeList := rfl

/-! ### Refinement -/

/-- An entry of the life cycle is appended to its trace. -/
theorem life_call_of_isLife {c : Call} (hc : c.isLife = true) (p : Process) :
    (p.call c).life = p.life.emit c := by
  simp [life, call, Life.emit, List.filter_append, hc]

/-- Another entry leaves the life cycle alone. -/
theorem life_call_of_not_isLife {c : Call} (hc : c.isLife = false) (p : Process) :
    (p.call c).life = p.life := by
  simp [life, call, List.filter_append, hc]

/-- An invocation of a callback of the table is one of the life cycle. -/
theorem life_invoke {c : Addr → Call} (hc : ∀ fn, (c fn).isLife = true) (fn : Ptr)
    (p : Process) : (p.invoke fn c).life = p.life.invoke fn c := by
  cases fn with
  | none => rfl
  | some fn => exact life_call_of_isLife (hc fn) p

/-- Flushing memory leaves the life cycle alone. -/
@[simp] theorem life_memFlush (p : Process) : p.memFlush.life = p.life := by
  rw [memFlush]
  split <;> exact life_call_of_not_isLife rfl p

/-- `appcore_flush_memory` leaves the life cycle alone. -/
@[simp] theorem life_appcoreFlushMemory (p : Process) :
    p.appcoreFlushMemory.2.life = p.life := by
  have hcall : (p.call .appcoreFlushMemory).life = p.life := life_call_of_not_isLife rfl p
  rw [appcoreFlushMemory, ← hcall]
  generalize p.call .appcoreFlushMemory = q
  dsimp only
  split
  · rfl
  · split
    · exact life_call_of_not_isLife rfl q
    · rw [life_call_of_not_isLife rfl]
      split
      · rfl
      · exact life_memFlush q
      · exact life_call_of_not_isLife rfl q

/-- Low memory leaves the life cycle alone. -/
@[simp] theorem life_lowMemoryPostCb (p : Process) : p.lowMemoryPostCb.2.life = p.life := by
  rw [lowMemoryPostCb]
  split
  · exact life_appcoreFlushMemory p
  · exact life_call_of_not_isLife rfl p

/-- Arming the timer leaves the life cycle alone. -/
@[simp] theorem life_timerAdd (a : Answers) (p : Process) : (p.timerAdd a).life = p.life := by
  rw [timerAdd]
  split
  · exact life_call_of_not_isLife rfl p
  · exact life_call_of_not_isLife rfl p

/-- Cancelling the timer leaves the life cycle alone. -/
@[simp] theorem life_timerDel (p : Process) : p.timerDel.life = p.life := by
  rw [timerDel]
  split
  · exact life_call_of_not_isLife rfl p
  · rfl

/-- The expiry of a timer leaves the life cycle alone. -/
@[simp] theorem life_timerExpired (h : ℕ) (p : Process) : (p.timerExpired h).life = p.life := by
  rw [timerExpired]
  split
  · exact (life_call_of_not_isLife rfl _).trans (life_appcoreFlushMemory p)
  · rfl

/-! ### The branches of `__do_app` -/

/-- `AE_RESET` resets the life cycle. -/
theorem life_doReset {ops : AppcoreOps} {p : Process} (hops : p.priv.ops = some ops)
    (b : Ptr) : (p.doReset ops b).life = p.life.reset b := by
  have hinvoke : (p.invoke ops.reset (.reset · b ops.data)).life =
      p.life.invoke ops.reset (.reset · b ops.data) := life_invoke (fun _ => rfl) _ p
  simp only [Life.reset, life_ops, hops, ← hinvoke]
  rfl

/-- Whether a timer is added on the way does not matter to the life cycle. -/
theorem life_ite_timerAdd (c : Prop) [Decidable c] (a : Answers) (p : Process) :
    (if c then p.timerAdd a else p).life = p.life := by
  split
  · exact life_timerAdd a p
  · rfl

/-- `AE_PAUSE` puts it into the background. -/
theorem life_doPause {ops : AppcoreOps} {p : Process} (hops : p.priv.ops = some ops)
    (a : Answers) : (p.doPause ops a).life = p.life.background := by
  have hinvoke : (p.invoke ops.pause (.pause · ops.data)).life =
      p.life.invoke ops.pause (.pause · ops.data) := life_invoke (fun _ => rfl) _ p
  rw [doPause, life_call_of_isLife rfl]
  simp only [Life.switch, life_ops, hops]
  congr 1
  by_cases h : p.priv.state = .running
  · have hlife : p.life.state = .running := h
    rw [if_pos h, if_pos hlife, ← hinvoke]
    exact life_ite_timerAdd _ a _
  · have hlife : p.life.state ≠ .running := h
    rw [if_neg h, if_neg hlife]

/-- `AE_RESUME` brings it to the foreground. -/
theorem life_doResume {ops : AppcoreOps} {p : Process} (hops : p.priv.ops = some ops) :
    (p.doResume ops).life = p.life.foreground := by
  have hinvoke : (p.invoke ops.resume (.resume · ops.data)).life =
      p.life.invoke ops.resume (.resume · ops.data) := life_invoke (fun _ => rfl) _ p
  rw [doResume, life_call_of_isLife rfl]
  simp only [Life.switch, life_ops, hops]
  congr 1
  by_cases h : p.priv.state = .paused
  · have hlife : p.life.state = .paused := h
    rw [if_pos h, if_pos hlife, ← hinvoke]
    rfl
  · have hlife : p.life.state ≠ .paused := h
    rw [if_neg h, if_neg hlife]

/-- Whether the timer is deleted first does not matter to the life cycle. -/
theorem life_ite_timerDel (c : Prop) [Decidable c] (p : Process) :
    (if c then p else p.timerDel).life = p.life := by
  split
  · rfl
  · exact life_timerDel p

/-- The life-cycle step that the part of `__do_app` after its early returns makes. -/
def lifeTail (event : AppEvent) (b : Ptr) (l : Life) : Life :=
  match event with
  | .terminate => l.terminate
  | .reset => l.reset b
  | .pause => l.background
  | .resume => l.foreground
  | _ => l

/-- The rest of `__do_app`, by event. -/
theorem life_doAppTail (event : AppEvent) (b : Ptr) (a : Answers) (p : Process) :
    (p.doAppTail event b a).life = lifeTail event b p.life := by
  have hq := life_ite_timerDel (p.priv.state = .paused ∧ event = .pause) p
  rw [doAppTail, ← hq]
  generalize (if p.priv.state = .paused ∧ event = .pause then p else p.timerDel) = q
  dsimp only
  by_cases he : event = .terminate
  · rw [if_pos he, life_call_of_not_isLife rfl, he]
    rfl
  · rw [if_neg he]
    cases hops : q.priv.ops with
    | none =>
        cases event <;> simp [lifeTail, Life.reset, Life.switch, life_ops, hops] at he ⊢
    | some ops =>
        cases event with
        | terminate => exact absurd rfl he
        | reset => exact life_doReset hops b
        | pause => exact life_doPause hops a
        | resume => exact life_doResume hops
        | unknown => rfl
        | create => rfl
        | lowmemPost => rfl
        | memFlush => rfl

/-- `__appcore_low_memory_post_cb` returns zero, so `AE_LOWMEM_POST` ends there. -/
theorem lowMemoryPostCb_fst (p : Process) : p.lowMemoryPostCb.1 = 0 := by
  rw [lowMemoryPostCb]
  split <;> rfl

/-- `__do_app` makes one step of the life cycle, memory events none. -/
theorem life_doApp (event : AppEvent) (b : Ptr) (a : Answers) (p : Process) :
    (p.doApp event b a).life = lifeTail event b p.life := by
  rw [doApp]
  by_cases hmem : event = .memFlush
  · rw [if_pos hmem, hmem]
    exact life_memFlush p
  · rw [if_neg hmem]
    by_cases hlow : event = .lowmemPost
    · rw [if_pos hlow, hlow]
      simp only [lowMemoryPostCb_fst, if_true]
      exact life_lowMemoryPostCb p
    · rw [if_neg hlow]
      exact life_doAppTail event b a p

/-! ### The handlers and the loop -/

/-- A show event acts on the life cycle as on the process. -/
theorem life_showCb (win : BitVec 32) (ret : ℤ) (a : Answers) (p : Process) :
    (p.showCb win ret a).life = p.life.showWin win ret a.calloc := by
  rw [showCb, Life.showWin]
  by_cases hret : ret ≠ 1
  · rw [if_pos hret, if_pos hret]
  · rw [if_neg hret, if_neg hret]
    rw [life_wins]
    split <;> rfl

/-- A hide event acts on the life cycle as on the process. -/
theorem life_hideCb (win : BitVec 32) (a : Answers) (p : Process) :
    (p.hideCb win a).life = p.life.hide win := by
  have hwins : p.life.wins = p.gWinnodeList := rfl
  have hactive : p.life.bActive = p.bActive := rfl
  simp only [hideCb, Life.hide, hwins, hactive]
  split
  · split
    · exact life_doApp .pause none a _
    · rfl
  · rfl

/-- A visibility change acts on the life cycle as on the process. -/
theorem life_visibilityCb (win : BitVec 32) (o : Bool) (a : Answers) (p : Process) :
    (p.visibilityCb win o a).life = p.life.visibilityChange win o a.calloc := by
  have hwins : p.life.wins = p.gWinnodeList := rfl
  have hactive : p.life.bActive = p.bActive := rfl
  simp only [visibilityCb, Life.visibilityChange, hwins, hactive]
  split
  · exact life_doApp .resume none a _
  · split
    · exact life_doApp .pause none a _
    · rfl

/-- `appcore_init` takes no part in the life cycle. -/
theorem life_appcoreInit (name : Option String) (ops : Option UiOps) (a : InitAnswers)
    (p : Process) : (p.appcoreInit name ops a).2.life = p.life := by
  rw [appcoreInit_eq]
  dsimp only
  split_ifs <;> rfl

/-- `appcore_exit` leaves the life cycle alone. -/
theorem life_appcoreExit (p : Process) : p.appcoreExit.life = p.life := by
  rw [appcoreExit_eq]
  split <;> rfl

/-- `appcore_set_event_callback` leaves the life cycle alone. -/
theorem life_setEventCallback (event : ℤ) (cb data : Ptr) (p : Process) :
    (p.setEventCallback event cb data).2.life = p.life := by
  rw [setEventCallback]
  split <;> rfl

/-- An API call takes no part in the life cycle. -/
theorem life_runApi (c : ApiCall) (p : Process) : (p.runApi c).life = p.life := by
  cases c with
  | init name ops a => exact life_appcoreInit name ops a p
  | exit => exact life_appcoreExit p
  | setEventCallback event cb data => exact life_setEventCallback event cb data p
  | setI18n domainname a => rfl
  | setSystemResourceReclaiming enable => rfl
  | flushMemory => exact life_appcoreFlushMemory p
  | rotation c a ρ => rfl

/-- **Refinement, one step**: the life cycle of the process after an event is the
abstract one after the same event. -/
theorem life_step (p : Process) (x : Event × Answers) : (p.step x).life = p.life.step x := by
  obtain ⟨e, a⟩ := x
  cases e with
  | «show» win ret => exact life_showCb win ret a p
  | hide win => exact life_hideCb win a p
  | visibilityChange win o => exact life_visibilityCb win o a p
  | reset b => exact life_doApp .reset b a p
  | terminate => exact life_doApp .terminate none a p
  | lowmemPost => exact life_doApp .lowmemPost none a p
  | memFlush => exact life_doApp .memFlush none a p
  | timer h => exact life_timerExpired h p
  | api c => exact life_runApi c p

/-- **Refinement of runs.** -/
theorem life_run (p : Process) (es : List (Event × Answers)) :
    (Machine.run step p es).life = Machine.run Life.step p.life es :=
  Machine.run_map life_step p es

end Process

end AppCore
