import AppCore.Session

/-!
# A Second Call of `appcore_efl_main`

Two runs are compared: a call in a process in which an earlier call has returned, and the
same call in a fresh process. What the earlier call leaves behind is `b_active` and the
window list, which `__unset_data` does not reset, the text domain, which is meant to stay,
and the core, if the callback `terminate` has initialised it anew: it runs after
`appcore_exit`. A call in a process without such leftovers behaves like the first, and any
leftover is told by some call.

## Main results

* `likeFirst_iff`: **which processes without a call behave like fresh ones**.
* `second_call_like_first_iff`: the same for what a first call leaves.
* `untouched_iff`: with succeeding allocations, what a first call leaves is what its
  events do not touch.
-/

set_option autoImplicit false

namespace AppCore

namespace Life

/-! ### The trace so far does not matter -/

/-- The same life cycle with an earlier trace before its own. -/
def after (base : List Call) (l : Life) : Life :=
  { l with trace := base ++ l.trace }

variable (base : List Call) (l : Life)

/-- An entry comes after both traces. -/
theorem after_emit (c : Call) : (l.after base).emit c = (l.emit c).after base := by
  simp [after, emit, List.append_assoc]

/-- An invocation does not look at the trace. -/
theorem after_invoke (fn : Ptr) (c : Addr → Call) :
    (l.after base).invoke fn c = (l.invoke fn c).after base := by
  cases fn with
  | none => rfl
  | some fn => exact after_emit base l (c fn)

/-- A reset does not look at the trace. -/
theorem after_reset (b : Ptr) : (l.after base).reset b = (l.reset b).after base := by
  cases hops : l.ops with
  | none => simp [reset, after, hops]
  | some ops =>
      have hafter : (l.after base).ops = some ops := hops
      simp only [reset, hops, hafter, after_invoke]
      rfl

/-- A switch does not look at the trace. -/
theorem after_switch (old new : AppState) (fn : AppcoreOps → Ptr) (c : Addr → Ptr → Call)
    (note : Call) :
    (l.after base).switch old new fn c note = (l.switch old new fn c note).after base := by
  cases hops : l.ops with
  | none => simp [switch, after, hops]
  | some ops =>
      have hafter : (l.after base).ops = some ops := hops
      have hstate : (l.after base).state = l.state := rfl
      simp only [switch, hops, hafter, hstate, after_invoke, ← after_emit]
      split <;> rfl

/-- A step adds to the trace what it adds to any other. -/
theorem after_step (x : Event × Answers) :
    (l.after base).step x = (l.step x).after base := by
  obtain ⟨e, a⟩ := x
  have hwins : (l.after base).wins = l.wins := rfl
  have hactive : (l.after base).bActive = l.bActive := rfl
  cases e with
  | «show» win ret =>
      simp only [step, showWin, hwins]
      split
      · rfl
      · split <;> rfl
  | hide win =>
      simp only [step, hide, hwins, hactive]
      split
      · split
        · exact after_switch base
            { l with wins := (deleteWin win l.wins).2, bActive := false } _ _ _ _ _
        · rfl
      · rfl
  | visibilityChange win o =>
      simp only [step, visibilityChange, hwins, hactive]
      split
      · exact after_switch base
          { l with wins := (updateWin win o a.calloc l.wins).2, bActive := true } _ _ _ _ _
      · split
        · exact after_switch base
            { l with wins := (updateWin win o a.calloc l.wins).2, bActive := false } _ _ _ _ _
        · rfl
  | reset b => exact after_reset base l b
  | terminate => rfl
  | lowmemPost => rfl
  | memFlush => rfl
  | timer h => rfl
  | api c => rfl

/-- A run adds to the trace what it adds to any other. -/
theorem after_run (es : List (Event × Answers)) :
    Machine.run step (l.after base) es = (Machine.run step l es).after base :=
  (Machine.run_map (f := after base) (fun l x => (after_step base l x).symm) l es).symm

end Life

namespace Process

/-! ### What a call adds to the trace -/

/-- What a call that enters the loop adds to the trace of the life cycle, when it finds
`b_active` and the window list like this. -/
def callTrace (m : MainCall) (ops : AppcoreOps) (bActive : Bool) (wins : List WinNode) :
    List Call :=
  (Machine.run Life.step ⟨.created, some ops, bActive, wins, createCalls ops⟩ m.events).trace ++
    terminateCalls ops

/-- A call that enters the loop adds what `b_active` and the window list make of it. -/
theorem trace_of_starts {m : MainCall} {p : Process} {ops : AppcoreOps} (h : Starts m p)
    (hops : m.ops = some ops) :
    (p.appcoreEflMain m).2.life.trace =
      p.life.trace ++ callTrace m ops p.bActive p.gWinnodeList := by
  have hentry : entryLife ops p =
      Life.after p.life.trace
        ⟨.created, some ops, p.bActive, p.gWinnodeList, createCalls ops⟩ := rfl
  rw [(life_appcoreEflMain h hops).2, loopLife, hentry, Life.after_run, callTrace]
  exact List.append_assoc _ _ _

/-- A call that does not enter the loop adds at most the entry of `create`. -/
theorem trace_of_not_starts {m : MainCall} {p : Process} (h : ¬ Starts m p) :
    (Admits m p ∧ ∃ ops, m.ops = some ops ∧
        (p.appcoreEflMain m).2.life.trace = p.life.trace ++ createCalls ops) ∨
      (¬ Admits m p ∧ (p.appcoreEflMain m).2.life.trace = p.life.trace) := by
  rw [appcoreEflMain_of_not_starts h]
  by_cases hadmits : Admits m p
  · obtain ⟨ops, hops⟩ := Option.ne_none_iff_exists'.mp hadmits.ops_ne_none
    have hcreate : CreateFails m := not_not.mp fun hc => h ⟨hadmits, hc⟩
    refine Or.inl ⟨hadmits, ops, hops, ?_⟩
    rw [(startUp_of_createFails hadmits hcreate hops).2]
  · exact Or.inr ⟨hadmits, (startUp_of_not_admits hadmits).2.1⟩

/-- No call is under way: the module can be started. -/
structure Idle (p : Process) : Prop where
  name : p.priv.name = none
  core : p.core.state = 0

/-- Idle processes that agree on the sticky flag admit the same calls. -/
theorem admits_congr {p q : Process} (hp : p.Idle) (hq : q.Idle)
    (hset : p.i18n.set = q.i18n.set) (m : MainCall) : Admits m p ↔ Admits m q := by
  have hfst := I18n.setI18n_fst m.name m.start.init.i18n hset
  constructor
  · rintro ⟨-, h₁, h₂, h₃, h₄, h₅, h₆, -, h₇, h₈, h₉⟩
    exact ⟨hq.name, h₁, h₂, h₃, h₄, h₅, h₆, hq.core, hfst ▸ h₇, h₈, h₉⟩
  · rintro ⟨-, h₁, h₂, h₃, h₄, h₅, h₆, -, h₇, h₈, h₉⟩
    exact ⟨hp.name, h₁, h₂, h₃, h₄, h₅, h₆, hp.core, hfst ▸ h₇, h₈, h₉⟩

/-- A fresh process is idle. -/
theorem idle_fresh (env : EnvVar → Option String) (locale : LcCategory → String)
    (rotateLock : Bool) : (Process.fresh env locale rotateLock).Idle :=
  ⟨rfl, rfl⟩

/-! ### Like a first call -/

/-- Every call in the process invokes the same callbacks and makes the same foreground and
background notifications as the same call in a fresh process. -/
def LikeFirst (p : Process) : Prop :=
  ∀ (env : EnvVar → Option String) (locale : LcCategory → String) (rotateLock : Bool)
    (m : MainCall),
    (p.appcoreEflMain m).2.life.trace =
      p.life.trace ++ ((Process.fresh env locale rotateLock).appcoreEflMain m).2.life.trace

/-- **Without leftovers** an idle process behaves like a fresh one. -/
theorem likeFirst_of_clean {p : Process} (hidle : p.Idle) (hset : p.i18n.set = false)
    (hactive : p.bActive = true) (hwins : p.gWinnodeList = []) : p.LikeFirst := by
  intro env locale rotateLock m
  have hadmits := admits_congr hidle (idle_fresh env locale rotateLock) hset m
  by_cases h : Starts m p
  · have hfresh : Starts m (Process.fresh env locale rotateLock) := ⟨hadmits.mp h.1, h.2⟩
    obtain ⟨ops, hops⟩ := Option.ne_none_iff_exists'.mp h.1.ops_ne_none
    rw [trace_of_starts h hops, trace_of_starts hfresh hops, hactive, hwins]
    rfl
  · have hfresh : ¬ Starts m (Process.fresh env locale rotateLock) :=
      fun hf => h ⟨hadmits.mpr hf.1, hf.2⟩
    rcases trace_of_not_starts h with ⟨ha, ops, hops, htrace⟩ | ⟨ha, htrace⟩
    · rcases trace_of_not_starts hfresh with ⟨-, ops', hops', htrace'⟩ | ⟨hna, -⟩
      · obtain rfl : ops = ops' := Option.some.inj (hops.symm.trans hops')
        rw [htrace, htrace']
        rfl
      · exact absurd (hadmits.mp ha) hna
    · rcases trace_of_not_starts hfresh with ⟨ha', -⟩ | ⟨-, htrace'⟩
      · exact absurd (hadmits.mpr ha') ha
      · rw [htrace, htrace']
        exact (List.append_nil _).symm

/-! ### Leftovers tell -/

/-- No callbacks at all: what is left to see are the notifications to the system. -/
def noOps : AppcoreOps :=
  ⟨none, none, none, none, none, none⟩

/-- A process that behaves like a fresh one gives the notifications of a fresh one, for
each single event. -/
theorem single_event_of_likeFirst {p : Process} (hidle : p.Idle) (h : p.LikeFirst)
    (x : Event × Answers) :
    (Life.step ⟨.created, some noOps, p.bActive, p.gWinnodeList, []⟩ x).trace =
      (Life.step ⟨.created, some noOps, true, [], []⟩ x).trace := by
  have hlike : (p.appcoreEflMain (goodCall noOps [x])).2.life.trace =
      p.life.trace ++ (plain.appcoreEflMain (goodCall noOps [x])).2.life.trace := h _ _ _ _
  rw [trace_of_starts (starts_goodCall hidle.name hidle.core noOps [x]) rfl,
    trace_of_starts (starts_plain noOps [x]) rfl] at hlike
  have htrace := List.append_cancel_left hlike
  simpa [callTrace, goodCall, createCalls, terminateCalls, noOps, plain, Process.fresh, life]
    using htrace

/-- In a fresh process a visibility change of any window is news: it is not known, so no
window is visible. -/
theorem single_event_fresh (win : BitVec 32) (o : Bool) :
    (Life.step ⟨.created, some noOps, true, [], []⟩
      (.visibilityChange win o, goodAnswers)).trace = [.sysmanInformBackgrd] := by
  simp [Life.step, Life.visibilityChange, updateWin_eq, Life.switch, Life.emit]

/-- A process left inactive does not go to the background again. -/
theorem bActive_of_likeFirst {p : Process} (hidle : p.Idle) (h : p.LikeFirst) :
    p.bActive = true := by
  by_contra hactive
  have hfalse : p.bActive = false := by simpa using hactive
  have hsingle := single_event_of_likeFirst hidle h (.visibilityChange 0 true, goodAnswers)
  rw [single_event_fresh, hfalse] at hsingle
  simp only [Life.step, Life.visibilityChange] at hsingle
  split at hsingle
  · simp [Life.switch, Life.emit] at hsingle
  · simp at hsingle

/-- A process left with a window takes a visibility change of it for one of its own. -/
theorem gWinnodeList_of_likeFirst {p : Process} (hidle : p.Idle) (h : p.LikeFirst) :
    p.gWinnodeList = [] := by
  have hactive := bActive_of_likeFirst hidle h
  cases hwins : p.gWinnodeList with
  | nil => rfl
  | cons e rest =>
      have hsingle :=
        single_event_of_likeFirst hidle h (.visibilityChange e.win false, goodAnswers)
      have hexist : existWin e.win (e :: rest) = true := by simp [existWin_iff]
      have hvisible : checkVisible (updateWin e.win false true (e :: rest)).2 = true := by
        rw [updateWin_eq, if_pos hexist]
        simp [checkVisible_iff]
      rw [single_event_fresh, hactive, hwins] at hsingle
      simp [Life.step, Life.visibilityChange, goodAnswers, hvisible] at hsingle

/-- A process with a sticky text domain starts where a fresh one fails to set one. -/
theorem set_of_likeFirst {p : Process} (hidle : p.Idle) (h : p.LikeFirst) :
    p.i18n.set = false := by
  by_contra hset
  have htrue : p.i18n.set = true := by simpa using hset
  let m : MainCall := { goodCall fullOps [] with
    start.init.i18n := ⟨none, none, none, none, true, true, true, true, false, true⟩ }
  have hstarts : Starts m p := by
    obtain ⟨ha, hc⟩ := starts_goodCall hidle.name hidle.core fullOps []
    refine ⟨⟨ha.idle, ha.name_ne_none, ha.name_ne_empty, ha.ops_ne_none, ha.strdup,
      ha.argc_ne_none, ha.argv_ne_none, ha.core_idle, ?_, ha.aulLaunchInit_ok,
      ha.aulLaunchArgvHandler_ok⟩, hc⟩
    rw [I18n.setI18n, if_pos htrue]
    exact Int.zero_ne_negSucc 0
  have hfresh : ¬ Starts m plain := by
    rintro ⟨ha, -⟩
    exact ha.i18n_ok (by decide)
  have hlike : (p.appcoreEflMain m).2.life.trace =
      p.life.trace ++ (plain.appcoreEflMain m).2.life.trace := h _ _ _ _
  rw [trace_of_starts hstarts rfl] at hlike
  rcases trace_of_not_starts hfresh with ⟨ha, -⟩ | ⟨-, htrace⟩
  · exact ha.i18n_ok (by decide)
  · have hcall := List.append_cancel_left hlike
    rw [htrace] at hcall
    simp [callTrace, m, goodCall, createCalls, terminateCalls, fullOps, plain, Process.fresh,
      life] at hcall

/-- A process with a core in use refuses the call that a fresh one takes. -/
theorem core_of_likeFirst {p : Process} (h : p.LikeFirst) : p.core.state = 0 := by
  by_contra hstate
  have hnot : ¬ Admits (goodCall fullOps []) p := fun ha => hstate ha.core_idle
  have hlike : (p.appcoreEflMain (goodCall fullOps [])).2.life.trace =
      p.life.trace ++ (plain.appcoreEflMain (goodCall fullOps [])).2.life.trace := h _ _ _ _
  rw [trace_of_starts (starts_plain fullOps []) rfl] at hlike
  rcases trace_of_not_starts (fun hs : Starts (goodCall fullOps []) p => hnot hs.1)
    with ⟨ha, -⟩ | ⟨-, htrace⟩
  · exact hnot ha
  · rw [htrace] at hlike
    have hcall := List.append_cancel_left ((List.append_nil _).trans hlike)
    simp [callTrace, goodCall, createCalls, fullOps, plain, Process.fresh, life] at hcall

/-- **Which processes without a call behave like fresh ones**: those in which the core is
not in use, `b_active` is 1, the window list empty and no text domain was set through the
API. -/
theorem likeFirst_iff {p : Process} (hname : p.priv.name = none) :
    p.LikeFirst ↔
      p.core.state = 0 ∧ p.bActive = true ∧ p.gWinnodeList = [] ∧ p.i18n.set = false := by
  constructor
  · intro h
    have hidle : p.Idle := ⟨hname, core_of_likeFirst h⟩
    exact ⟨hidle.core, bActive_of_likeFirst hidle h, gWinnodeList_of_likeFirst hidle h,
      set_of_likeFirst hidle h⟩
  · rintro ⟨hcore, hactive, hwins, hset⟩
    exact likeFirst_of_clean ⟨hname, hcore⟩ hset hactive hwins

end Process

/-- The events that leave something in `b_active` or the window list: a visibility change,
and the showing of a top-level window. -/
def Event.TouchesWindows : Event → Prop
  | .show _ ret => ret = 1
  | .visibilityChange _ _ => True
  | _ => False

namespace Life

/-! ### What events leave behind -/

/-- Nothing is left behind. -/
def Clean (l : Life) : Prop :=
  l.bActive = true ∧ l.wins = []

/-- Other events leave nothing behind either. -/
theorem clean_step {l : Life} (h : l.Clean) {x : Event × Answers}
    (hx : ¬ x.1.TouchesWindows) : (l.step x).Clean := by
  obtain ⟨hactive, hwins⟩ := h
  obtain ⟨e, a⟩ := x
  cases e with
  | «show» win ret =>
      have hret : ret ≠ 1 := hx
      simp only [step, showWin, if_pos hret]
      exact ⟨hactive, hwins⟩
  | hide win => simp [step, hide, hwins, Clean, hactive]
  | visibilityChange win o => exact absurd trivial hx
  | reset b => exact ⟨(reset_bActive b l).trans hactive, (reset_wins b l).trans hwins⟩
  | terminate => exact ⟨hactive, hwins⟩
  | lowmemPost => exact ⟨hactive, hwins⟩
  | memFlush => exact ⟨hactive, hwins⟩
  | timer h => exact ⟨hactive, hwins⟩
  | api c => exact ⟨hactive, hwins⟩

/-- A visible window is in the list. -/
theorem ne_nil_of_checkVisible {wins : List WinNode} (h : checkVisible wins = true) :
    wins ≠ [] := by
  rintro rfl
  exact absurd h (by decide)

/-- After a visibility change something is left behind: a visible window, or an inactive
application. -/
theorem not_clean_visibilityChange (l : Life) (win : BitVec 32) (o : Bool) (a : Answers) :
    ¬ (l.step (.visibilityChange win o, a)).Clean := by
  have hstep := l.step_spec (.visibilityChange win o, a)
  generalize l.step (.visibilityChange win o, a) = l' at hstep
  rintro ⟨hactive, hwins⟩
  cases hstep with
  | background he hvisible hold =>
      have hfalse : false = true := switch_bActive.symm.trans hactive
      exact absurd hfalse (by decide)
  | foreground hvisible hold =>
      rw [switch_wins] at hwins
      exact ne_nil_of_checkVisible hvisible hwins
  | @windows _ wins hreset hterminate hback hfore =>
      have hnil : wins = [] := hwins
      have hnot : l.bActive = false := hback trivial (by rw [hnil]; rfl)
      have hfalse : false = true := hnot.symm.trans hactive
      exact absurd hfalse (by decide)

/-- A window that shows and can be stored is left behind. -/
theorem not_clean_showWin (l : Life) (win : BitVec 32) {a : Answers} (ha : a.calloc = true) :
    ¬ (l.step (.show win 1, a)).Clean := by
  rintro ⟨-, hwins⟩
  simp only [step, showWin, ne_eq, not_true_eq_false, if_false, ha, addWin_eq,
    updateWin_eq] at hwins
  cases hexist : existWin win l.wins <;> simp [hexist] at hwins

/-- Each of these events leaves something behind, if its window can be listed. -/
theorem not_clean_of_touches (l : Life) {x : Event × Answers} (hx : x.1.TouchesWindows)
    (ha : x.2.calloc = true) : ¬ (l.step x).Clean := by
  obtain ⟨e, a⟩ := x
  cases e with
  | «show» win ret =>
      obtain rfl : ret = 1 := hx
      exact not_clean_showWin l win ha
  | visibilityChange win o => exact not_clean_visibilityChange l win o a
  | hide win => exact absurd hx id
  | reset b => exact absurd hx id
  | terminate => exact absurd hx id
  | lowmemPost => exact absurd hx id
  | memFlush => exact absurd hx id
  | timer h => exact absurd hx id
  | api c => exact absurd hx id

/-- What is left behind stays, as long as allocations succeed. -/
theorem not_clean_step {l : Life} (h : ¬ l.Clean) {x : Event × Answers}
    (ha : x.2.calloc = true) : ¬ (l.step x).Clean := by
  obtain ⟨e, a⟩ := x
  cases e with
  | «show» win ret =>
      by_cases hret : ret = 1
      · rw [hret]
        exact not_clean_showWin l win ha
      · simpa only [step, showWin, ne_eq, hret, not_false_eq_true, if_true] using h
  | hide win =>
      rintro ⟨hactive, hwins⟩
      simp only [step, hide] at hactive hwins
      split at hactive
      · rename_i hexist
        rw [if_pos hexist] at hwins
        split at hactive
        · have hfalse : false = true := switch_bActive.symm.trans hactive
          exact absurd hfalse (by decide)
        · rename_i hback
          rw [if_neg hback] at hwins
          have hnil : (deleteWin win l.wins).2 = [] := hwins
          exact hback ⟨by rw [hnil]; rfl, hactive⟩
      · rename_i hexist
        rw [if_neg hexist] at hwins
        exact h ⟨hactive, hwins⟩
  | visibilityChange win o => exact not_clean_visibilityChange l win o a
  | reset b =>
      rintro ⟨hactive, hwins⟩
      exact h ⟨(reset_bActive b l).symm.trans hactive, (reset_wins b l).symm.trans hwins⟩
  | terminate => exact h
  | lowmemPost => exact h
  | memFlush => exact h
  | timer h' => exact h
  | api c => exact h

/-- **With succeeding allocations a run leaves nothing behind** exactly when none of its
events touches the windows. -/
theorem untouched_iff {l : Life} (hl : l.Clean) {es : List (Event × Answers)}
    (halloc : ∀ x ∈ es, x.2.calloc = true) :
    (Machine.run step l es).Clean ↔ ∀ x ∈ es, ¬ x.1.TouchesWindows := by
  have hdirty : ∀ (es : List (Event × Answers)) (l : Life), ¬ l.Clean →
      (∀ x ∈ es, x.2.calloc = true) → ¬ (Machine.run step l es).Clean := by
    intro es l hl halloc
    exact Machine.AtEach.run_invariant (I := fun t : Life => ¬ t.Clean)
      (fun t x ht hx => not_clean_step ht hx) hl (Machine.atEach_of_forall halloc)
  induction es generalizing l with
  | nil => exact iff_of_true hl (by simp)
  | cons x es ih =>
      have hx : x.2.calloc = true := halloc x (by simp)
      have hes : ∀ y ∈ es, y.2.calloc = true := fun y hy => halloc y (by simp [hy])
      rw [Machine.run_cons, List.forall_mem_cons]
      by_cases htouch : x.1.TouchesWindows
      · have hstep := not_clean_of_touches l htouch hx
        exact iff_of_false (hdirty es _ hstep hes) fun h => h.1 htouch
      · have hrest := ih (clean_step hl htouch) hes
        exact ⟨fun h => ⟨htouch, hrest.mp h⟩, fun h => hrest.mpr h.2⟩

end Life

namespace Process

/-! ### What a first call leaves -/

/-- A call that entered the loop ends with its `leave`. -/
theorem appcoreEflMain_of_starts {m : MainCall} {p : Process} (h : Starts m p) :
    p.appcoreEflMain m =
      (0, (Machine.run step (p.startUp m).2 m.events).leave m.after m.terminateApi) := by
  rw [appcoreEflMain, (startUp_fst m p).mpr h]
  rfl

/-- A call that has returned from the loop leaves `b_active` and the window list as the
loop left them. -/
theorem leftovers {m : MainCall} {p : Process} (h : Starts m p) :
    let q := Machine.run step (p.startUp m).2 m.events
    let r := (p.appcoreEflMain m).2
    r.priv.name = none ∧ r.bActive = q.bActive ∧ r.gWinnodeList = q.gWinnodeList := by
  obtain ⟨ops, hops⟩ := Option.ne_none_iff_exists'.mp h.1.ops_ne_none
  have hloop := life_loop h hops m.events
  have hcall := (life_appcoreEflMain h hops).2
  rw [loopLife, ← hloop] at hcall
  refine ⟨?_, congrArg Life.bActive hcall, congrArg Life.wins hcall⟩
  rw [appcoreEflMain_of_starts h]
  rfl

/-- What the callback `terminate` keeps of the process that `appcore_exit` leaves, the end
of the call keeps, if it is about the other modules. -/
theorem platform_leave {I : Platform → Prop} {a : Rotation.Answers} {cs : List ApiCall}
    {p : Process} (hexit : I (p.exitLoop a).platform)
    (hcs : ∀ c ∈ cs, ∀ q : Process, I q.platform → I (q.runApi c).platform) :
    I (p.leave a cs).platform := by
  have htear (q : Process) : q.tearDown.platform = q.platform := by
    rw [tearDown_eq]
    rfl
  rw [leave, htear, runTerminate]
  split
  · exact hexit
  · split
    · exact hexit
    · exact foldl_runApi (I := fun q => I q.platform) hcs hexit

/-- The callbacks of a call do not set a text domain, and `terminate` does not initialise
the library anew. -/
structure Discreet (m : MainCall) : Prop where
  create : ∀ c ∈ m.start.createApi, ¬ c.IsSetI18n
  loop : ∀ x ∈ m.events, ∀ c, x.1 = .api c → ¬ c.IsSetI18n
  terminate : ∀ c ∈ m.terminateApi, ¬ c.IsSetI18n ∧ ¬ c.IsInit

/-- `appcore_exit` at the end of the loop leaves the core idle and keeps the flag. -/
theorem exitLoop_platform (a : Rotation.Answers) (p : Process) :
    (p.exitLoop a).platform.core.state = 0 ∧
      (p.exitLoop a).platform.i18n.set = p.i18n.set := by
  have hexit : (p.exitLoop a).platform =
      ({ p with rotation := p.rotation.runApi id .unset a } : Process).appcoreExit.platform := rfl
  rw [hexit, appcoreExit_eq]
  split
  · exact ⟨rfl, rfl⟩
  · rename_i hstate
    exact ⟨not_not.mp hstate, rfl⟩

/-- A discreet call leaves the core idle. -/
theorem core_appcoreEflMain {m : MainCall} {p : Process} (h : Starts m p) (hm : Discreet m) :
    (p.appcoreEflMain m).2.core.state = 0 := by
  rw [appcoreEflMain_of_starts h]
  exact platform_leave (I := fun f => f.core.state = 0) (exitLoop_platform _ _).1
    fun c hc q hq => core_idle_runApi (hm.terminate c hc).2 hq

/-- The start-up does not write the sticky flag, unless `create` does. -/
theorem set_startUp {m : MainCall} {p : Process} (h : Starts m p)
    (hapi : ∀ c ∈ m.start.createApi, ¬ c.IsSetI18n) :
    (p.startUp m).2.i18n.set = p.i18n.set := by
  obtain ⟨hadmits, hcreate⟩ := h
  have hvalid : Valid m :=
    ⟨hadmits.name_ne_none, hadmits.name_ne_empty, hadmits.ops_ne_none, hadmits.strdup⟩
  have hargs : ¬ (m.argc = none ∨ m.argv = none) :=
    not_or.mpr ⟨hadmits.argc_ne_none, hadmits.argv_ne_none⟩
  have hinit : (p.initCall m).1 ≠ -1 := (appcoreInit_dataSet_fst m p).mpr
    ⟨hadmits.core_idle, hadmits.i18n_ok, hadmits.aulLaunchInit_ok,
      hadmits.aulLaunchArgvHandler_ok⟩
  have hset : (p.initCall m).2.i18n.set = p.i18n.set :=
    set_runApi (c := .init m.name (some eflOps) m.start.init) id _
  rw [startUp_eq hadmits.idle, if_neg (not_not.mpr hvalid), if_neg hargs]
  dsimp only
  rw [if_neg hinit, if_neg hcreate]
  change ((p.initCall m).2.createCall m).i18n.set = p.i18n.set
  rw [createCall]
  split
  · exact hset
  · split
    · exact hset
    · exact foldl_runApi (I := fun q => q.i18n.set = p.i18n.set)
        (fun c hc q hq => (set_runApi (hapi c hc) q).trans hq) hset

/-- A discreet call does not write the sticky flag. -/
theorem set_appcoreEflMain {m : MainCall} {p : Process} (h : Starts m p) (hm : Discreet m) :
    (p.appcoreEflMain m).2.i18n.set = p.i18n.set := by
  have hloop : (Machine.run step (p.startUp m).2 m.events).i18n.set = p.i18n.set := by
    refine Machine.AtEach.run_invariant (I := fun q : Process => q.i18n.set = p.i18n.set)
      (fun q x hq hx => ?_) (set_startUp h hm.create) (Machine.atEach_of_forall hm.loop)
    obtain ⟨e, a⟩ := x
    by_cases hapi : ∃ c, e = .api c
    · obtain ⟨c, rfl⟩ := hapi
      exact (set_runApi (hx c rfl) q).trans hq
    · have hframe := platform_step q (x := (e, a)) fun c hc => hapi ⟨c, hc⟩
      exact (congrArg (fun f => f.i18n.set) hframe).trans hq
  rw [appcoreEflMain_of_starts h]
  refine platform_leave (I := fun f => f.i18n.set = p.i18n.set) ?_ ?_
  · exact (exitLoop_platform _ _).2.trans hloop
  · exact fun c hc q hq => (set_runApi (hm.terminate c hc).1 q).trans hq

/-- **When a second call is like a first.** Whatever process a call that entered the loop
was made in, every later call behaves as in a fresh process exactly when the loop ended
with `b_active` 1 and an empty window list, and the call left the core not in use and no
text domain set through the API. For a first call whose callbacks set no text domain and
whose `terminate` does not initialise the library anew, and whose allocations succeed, this
is the case exactly when its loop handled no visibility change and no showing of a top-level
window. -/
theorem second_call_like_first_iff {m : MainCall} {p : Process} (h : Starts m p) :
    let q := Machine.run step (p.startUp m).2 m.events
    let r := (p.appcoreEflMain m).2
    (r.LikeFirst ↔
        q.bActive = true ∧ q.gWinnodeList = [] ∧ r.core.state = 0 ∧ r.i18n.set = false) ∧
      (p.bActive = true → p.gWinnodeList = [] → p.i18n.set = false → Discreet m →
        (∀ x ∈ m.events, x.2.calloc = true) →
        (r.LikeFirst ↔ ∀ x ∈ m.events, ¬ x.1.TouchesWindows)) := by
  obtain ⟨hname, hactive, hwins⟩ := leftovers h
  have hiff := likeFirst_iff hname
  rw [hactive, hwins] at hiff
  refine ⟨by rw [hiff]; tauto, fun hpactive hpwins hpset hm halloc => ?_⟩
  obtain ⟨ops, hops⟩ := Option.ne_none_iff_exists'.mp h.1.ops_ne_none
  have hclean : (entryLife ops p).Clean := ⟨hpactive, hpwins⟩
  have huntouched := Life.untouched_iff hclean halloc
  rw [← life_loop h hops m.events] at huntouched
  rw [hiff, ← huntouched, and_iff_right (core_appcoreEflMain h hm), set_appcoreEflMain h hm,
    hpset]
  exact ⟨fun ⟨hb, hw, _⟩ => ⟨hb, hw⟩, fun ⟨hb, hw⟩ => ⟨hb, hw, rfl⟩⟩

/-- A call that is launched and terminated, without a window event. -/
def windowless : MainCall :=
  goodCall fullOps [(.reset none, goodAnswers), (.terminate, goodAnswers)]

/-- The same call with a `terminate` that initialises the library anew. -/
def windowlessAnew : MainCall :=
  { windowless with terminateApi := [.init (some "app") (some ⟨none, some (.other 6)⟩) goodInit] }

/-- A call without a window event leaves nothing, unless its `terminate` initialises the
library anew. -/
theorem second_call_like_first_plain :
    (plain.appcoreEflMain windowless).2.LikeFirst ∧
      ¬ (plain.appcoreEflMain windowlessAnew).2.LikeFirst := by
  have hstarts : Starts windowless plain := starts_plain _ _
  constructor
  · refine ((second_call_like_first_iff hstarts).2 rfl rfl rfl ?_ ?_).mpr ?_
    · exact ⟨by simp [windowless, goodCall], by simp [windowless, goodCall],
        by simp [windowless, goodCall]⟩
    · simp [windowless, goodCall, goodAnswers]
    · simp [windowless, goodCall, Event.TouchesWindows]
  · have hanew : Starts windowlessAnew plain := ⟨{ hstarts.1 with }, hstarts.2⟩
    have hcore : (plain.appcoreEflMain windowlessAnew).2.core.state = 1 := by decide
    intro hlike
    obtain ⟨-, -, hidle, -⟩ := (second_call_like_first_iff hanew).1.mp hlike
    rw [hcore] at hidle
    exact absurd hidle (by decide)

/-- A call in which the application shows a window, is launched and hides the window. -/
def showAndHide : MainCall :=
  goodCall fullOps [(.show 1 1, goodAnswers), (.reset none, goodAnswers),
    (.hide 1, goodAnswers)]

/-- **The second call differs**: made again, the same call hides the same window without
the application being paused and without a notification, for `b_active` is still 0. -/
theorem second_call_differs_showAndHide :
    let p := (plain.appcoreEflMain showAndHide).2
    (plain.appcoreEflMain showAndHide).1 = 0 ∧
      p.life.trace = [.create 1 none, .reset 5 none none, .pause 3 none,
        .sysmanInformBackgrd, .terminate 2 none] ∧
      (p.appcoreEflMain showAndHide).2.life.trace =
        p.life.trace ++ [.create 1 none, .reset 5 none none, .terminate 2 none] ∧
      ¬ p.LikeFirst := by
  intro p
  have hstarts : Starts showAndHide plain := starts_plain _ _
  obtain ⟨hname, hactive, hwins⟩ := leftovers hstarts
  have hdiscreet : Discreet showAndHide :=
    ⟨by simp [showAndHide, goodCall], by simp [showAndHide, goodCall],
      by simp [showAndHide, goodCall]⟩
  have hidle : p.Idle := ⟨hname, core_appcoreEflMain hstarts hdiscreet⟩
  have hloop := life_loop hstarts rfl showAndHide.events
  have hend : (Machine.run Life.step (entryLife fullOps plain) showAndHide.events).bActive =
      false ∧ (Machine.run Life.step (entryLife fullOps plain) showAndHide.events).wins = [] := by
    decide
  rw [← hloop] at hend
  have hpactive : p.bActive = false := hactive.trans hend.1
  have hpwins : p.gWinnodeList = [] := hwins.trans hend.2
  have hsecond : Starts showAndHide p := starts_goodCall hidle.name hidle.core _ _
  refine ⟨(life_appcoreEflMain hstarts rfl).1, ?_, ?_, fun hlike => ?_⟩
  · have hfirst : p.life.trace = plain.life.trace ++ callTrace showAndHide fullOps true [] :=
      trace_of_starts hstarts rfl
    rw [hfirst]
    decide
  · rw [trace_of_starts hsecond rfl, hpactive, hpwins]
    congr 1
  · rw [bActive_of_likeFirst hidle hlike] at hpactive
    exact absurd hpactive (by decide)

end Process

end AppCore
