import AppCore.Session
import Mathlib.Data.List.Chain

/-!
# What the System Is Told

Each time the application leaves the foreground or comes back to it, `__do_app` tells the
system by `sysman_inform_backgrd` or `sysman_inform_foregrd`. Both X handlers that dispatch
these events change `b_active` at the same time, so the notifications alternate and the
last of them says what `b_active` says. In a first call `b_active` starts at 1.

## Main results

* `Life.told_step`: every step of the life cycle keeps the invariant `Told`.
* `notifications_mirror`: **the notifications mirror visibility**, in a first call.
-/

set_option autoImplicit false

namespace AppCore

/-- The two notifications of the system. -/
def Call.isNote : Call → Bool
  | .sysmanInformBackgrd => true
  | .sysmanInformForegrd => true
  | _ => false

/-- The notifications in a trace. -/
def notes (cs : List Call) : List Call :=
  cs.filter Call.isNote

/-- The notifications of one trace after another. -/
theorem notes_append (cs ds : List Call) : notes (cs ++ ds) = notes cs ++ notes ds :=
  List.filter_append cs ds

/-- A trace without notifications. -/
theorem notes_of_forall {cs : List Call} (h : ∀ c ∈ cs, c.isNote = false) : notes cs = [] :=
  List.filter_eq_nil_iff.mpr fun c hc => by simp [h c hc]

/-- The notifications alternate, beginning with the background. -/
def Alternate (cs : List Call) : Prop :=
  cs.head? ≠ some .sysmanInformForegrd ∧ cs.IsChain (· ≠ ·)

/-- The last notification puts the application into the foreground, or there was none. -/
def InForeground (cs : List Call) : Prop :=
  cs.getLast? ≠ some .sysmanInformBackgrd

/-- The next notification is the other one, and the first is the background. -/
theorem alternate_snoc {cs : List Call} {c : Call} (h : Alternate cs)
    (hlast : cs.getLast? ≠ some c) (hhead : cs = [] → c ≠ .sysmanInformForegrd) :
    Alternate (cs ++ [c]) := by
  refine ⟨?_, h.2.append (List.isChain_singleton c) fun x hx y hy => ?_⟩
  · cases cs with
    | nil => simpa using hhead rfl
    | cons d cs => exact h.1
  · obtain rfl : c = y := by simpa using hy
    rintro rfl
    exact hlast hx

namespace Life

/-- **What the system was told**: the notifications alternate, and the last of them says
what `b_active` says. -/
structure Told (l : Life) : Prop where
  alternate : Alternate (notes l.trace)
  active : InForeground (notes l.trace) ↔ l.bActive = true

/-- Steps without a notification that leave `b_active` alone do not matter. -/
theorem Told.congr {l l' : Life} (h : l.Told) (htrace : notes l'.trace = notes l.trace)
    (hactive : l'.bActive = l.bActive) : l'.Told :=
  ⟨by rw [htrace]; exact h.alternate, by rw [htrace, hactive]; exact h.active⟩

/-- A callback is no notification. -/
theorem notes_callback {fn : Ptr} {c : Addr → Call} (hc : ∀ fn, (c fn).isNote = false) :
    notes (fn.map c).toList = [] := by
  cases fn with
  | none => rfl
  | some fn => simp [notes, hc]

/-- Going to the background is told, whatever the state. -/
theorem notes_background {l : Life} (hops : l.ops ≠ none) :
    notes l.background.trace = notes l.trace ++ [.sysmanInformBackgrd] := by
  obtain ⟨ops, hops⟩ := Option.ne_none_iff_exists'.mp hops
  rw [switch_trace hops, notes_append, notes_append]
  split
  · rw [notes_callback fun _ => rfl]
    rfl
  · rfl

/-- Coming to the foreground is told, whatever the state. -/
theorem notes_foreground {l : Life} (hops : l.ops ≠ none) :
    notes l.foreground.trace = notes l.trace ++ [.sysmanInformForegrd] := by
  obtain ⟨ops, hops⟩ := Option.ne_none_iff_exists'.mp hops
  rw [switch_trace hops, notes_append, notes_append]
  split
  · rw [notes_callback fun _ => rfl]
    rfl
  · rfl

/-- A reset tells the system nothing. -/
theorem notes_reset (b : Ptr) (l : Life) : notes (l.reset b).trace = notes l.trace := by
  cases hops : l.ops with
  | none => rw [reset, hops]
  | some ops => rw [reset_trace hops, notes_append, notes_callback fun _ => rfl, List.append_nil]

/-- The way to the background is told while the application is active. -/
theorem Told.background {l : Life} (h : l.Told) (hops : l.ops ≠ none)
    (hactive : l.bActive = true) (wins : List WinNode) :
    ({ l with wins := wins, bActive := false } : Life).background.Told := by
  have htrace : notes ({ l with wins := wins, bActive := false } : Life).background.trace =
      notes l.trace ++ [.sysmanInformBackgrd] := notes_background hops
  refine ⟨?_, ?_⟩
  · rw [htrace]
    exact alternate_snoc h.alternate (h.active.mpr hactive) (by simp)
  · rw [htrace, switch_bActive]
    simp [InForeground]

/-- The way to the foreground is told while the application is not active. -/
theorem Told.foreground {l : Life} (h : l.Told) (hops : l.ops ≠ none)
    (hactive : l.bActive = false) (wins : List WinNode) :
    ({ l with wins := wins, bActive := true } : Life).foreground.Told := by
  have htrace : notes ({ l with wins := wins, bActive := true } : Life).foreground.trace =
      notes l.trace ++ [.sysmanInformForegrd] := notes_foreground hops
  have hlast : (notes l.trace).getLast? = some .sysmanInformBackgrd := by
    by_contra hne
    exact absurd (h.active.mp hne) (by simp [hactive])
  refine ⟨?_, ?_⟩
  · rw [htrace]
    refine alternate_snoc h.alternate (by simp [hlast]) fun hnil => ?_
    simp [hnil] at hlast
  · rw [htrace, switch_bActive]
    simp [InForeground]

/-- **One step** keeps what the system was told in line with `b_active`. -/
theorem told_step {l : Life} (h : l.Told) (hops : l.ops ≠ none) (x : Event × Answers) :
    (l.step x).Told := by
  have hstep := l.step_spec x
  generalize x.1 = e at hstep
  generalize l.step x = l' at hstep
  cases hstep with
  | reset b => exact h.congr (notes_reset b l) (reset_bActive b l)
  | terminate => exact h.congr rfl rfl
  | background he hvisible hactive => exact h.background hops hactive _
  | foreground hvisible hactive => exact h.foreground hops hactive _
  | windows => exact h.congr rfl rfl

/-- A run keeps the invariant. -/
theorem told_run {l : Life} (h : l.Told) (hops : l.ops ≠ none) (es : List (Event × Answers)) :
    (Machine.run step l es).Told :=
  (Machine.run_invariant (I := fun l => l.Told ∧ l.ops ≠ none) step
    (fun l x hl => ⟨told_step hl.1 hl.2 x, by rw [Process.ops_step]; exact hl.2⟩)
    ⟨h, hops⟩ es).1

/-- After a visibility change `b_active` says whether a window is visible. -/
theorem bActive_visibilityChange (l : Life) (win : BitVec 32) (o : Bool) (a : Answers) :
    (l.step (.visibilityChange win o, a)).bActive =
      checkVisible (l.step (.visibilityChange win o, a)).wins := by
  have hstep : Step l (.visibilityChange win o) (l.step (.visibilityChange win o, a)) :=
    l.step_spec (.visibilityChange win o, a)
  generalize l.step (.visibilityChange win o, a) = l' at hstep
  cases hstep with
  | background he hvisible hactive => rw [switch_bActive, switch_wins, hvisible]
  | foreground hvisible hactive => rw [switch_bActive, switch_wins, hvisible]
  | windows hreset hterminate hbackground hforeground =>
      rename_i wins
      change l.bActive = checkVisible wins
      cases hvisible : checkVisible wins with
      | false => exact hbackground trivial hvisible
      | true => exact hforeground ⟨win, o, rfl⟩ hvisible

end Life

namespace Process

/-- The notifications are entries of the life cycle. -/
theorem notes_life (p : Process) : notes p.life.trace = notes p.calls := by
  rw [notes, notes, life, List.filter_filter]
  refine List.filter_congr fun c _ => ?_
  cases c <;> rfl

/-! ### Before the first call -/

/-- A process in which `appcore_efl_main` has not been called yet. -/
def Unstarted (p : Process) : Prop :=
  ∃ env locale rotateLock as, (∀ x ∈ as, ∀ m, x ≠ Action.enter m) ∧
    p = Machine.run act (.fresh env locale rotateLock) as

/-- What the first call finds. -/
structure Untold (p : Process) : Prop where
  name : p.priv.name = none
  ops : p.priv.ops = none
  bActive : p.bActive = true
  notes : notes p.calls = []

/-- The entries that others append are no notifications. -/
theorem notes_outside {l : List Call} (hl : ∀ c ∈ l, c.IsOutside) : AppCore.notes l = [] := by
  refine notes_of_forall fun c hc => ?_
  have hout := hl c hc
  cases c <;> first | rfl | exact absurd trivial hout.1

/-- Without a call under way `__do_app` has nobody to tell. -/
theorem Untold.doApp {p : Process} (h : Untold p) {event : AppEvent}
    (hevent : event = .reset ∨ event = .terminate) (b : Ptr) (a : Answers) :
    Untold (p.doApp event b a) := by
  have hlife : (p.doApp event b a).life.trace = p.life.trace := by
    rw [life_doApp]
    rcases hevent with rfl | rfl
    · simp only [lifeTail, Life.reset, life_ops, h.ops]
    · rfl
  have hnotes : AppCore.notes (p.doApp event b a).calls = [] := by
    rw [← notes_life, hlife, notes_life, h.notes]
  obtain ⟨_, _, _, _, _, heq, -⟩ := does_frame (does_doApp event b a p)
  rw [heq] at hnotes ⊢
  exact ⟨h.name, h.ops, h.bActive, hnotes⟩

/-- Without a call of `appcore_efl_main` there is no notification. -/
theorem untold_act {p : Process} (h : Untold p) {x : Action} (hx : ∀ m, x ≠ .enter m) :
    Untold (p.act x) := by
  have hact := acted_act p x
  generalize p.act x = q at hact
  cases hact with
  | enter m => exact absurd rfl (hx m)
  | leave a cs hname => exact absurd h.name hname
  | loop hname => exact absurd h.name hname
  | request _ hevent => exact h.doApp hevent _ _
  | outside hout =>
      obtain ⟨_, _, _, _, _, _, l, hl, rfl⟩ := hout
      refine ⟨h.name, h.ops, h.bActive, ?_⟩
      rw [notes_append, notes_outside hl, h.notes]
      rfl

/-- Before the first call the system has been told nothing, and `b_active` is 1. -/
theorem Unstarted.untold {p : Process} (h : Unstarted p) : Untold p := by
  obtain ⟨env, locale, rotateLock, as, has, rfl⟩ := h
  exact Machine.AtEach.run_invariant (I := Untold) (G := fun _ x => ∀ m, x ≠ .enter m)
    (fun _ _ hq hx => untold_act hq hx) ⟨rfl, rfl, rfl, rfl⟩ (Machine.atEach_of_forall has)

/-! ### The first call -/

/-- At the entry of the loop of a first call nothing was told, and `b_active` is 1. -/
theorem told_entryLife {p : Process} (h : Untold p) (ops : AppcoreOps) :
    (entryLife ops p).Told := by
  have hnotes : AppCore.notes (entryLife ops p).trace = [] := by
    rw [entryLife, notes_append, notes_life, h.notes, createCalls,
      Life.notes_callback fun _ => rfl]
    rfl
  refine ⟨?_, ?_⟩
  · rw [hnotes]
    exact ⟨by simp, List.isChain_nil⟩
  · rw [hnotes]
    exact iff_of_true (by simp [InForeground]) h.bActive

/-- The invariant holds all along the loop of a first call. -/
theorem told_loop {p : Process} {ops : AppcoreOps} (hfirst : Unstarted p)
    (es : List (Event × Answers)) :
    (Machine.run Life.step (entryLife ops p) es).Told :=
  Life.told_run (told_entryLife hfirst.untold ops) (by simp [entryLife]) es

/-- The end of a call tells the system nothing. -/
theorem told_appcoreEflMain {m : MainCall} {p : Process} (hfirst : Unstarted p)
    (h : Starts m p) : (p.appcoreEflMain m).2.life.Told := by
  obtain ⟨ops, hops⟩ := Option.ne_none_iff_exists'.mp h.1.ops_ne_none
  have htold : (loopLife m ops p).Told := told_loop hfirst m.events
  rw [(life_appcoreEflMain h hops).2]
  refine htold.congr ?_ rfl
  rw [notes_append, terminateCalls, Life.notes_callback fun _ => rfl, List.append_nil]

/-- **The notifications mirror visibility.** At every point of the loop of a first call, and
after the call, the notifications made so far alternate, beginning with the background; the
last of them is for the foreground, or there is none, exactly while `b_active` is 1; and
after a visibility change, exactly when some window is not obscured. -/
theorem notifications_mirror {m : MainCall} {p : Process} (hfirst : Unstarted p)
    (h : Starts m p) (es : List (Event × Answers)) :
    let q := Machine.run step (p.startUp m).2 es
    let after := (p.appcoreEflMain m).2
    Alternate (AppCore.notes q.calls) ∧
      (InForeground (AppCore.notes q.calls) ↔ q.bActive = true) ∧
      (∀ win o a, let r := q.step (.visibilityChange win o, a)
        InForeground (AppCore.notes r.calls) ↔
          ∃ e ∈ r.gWinnodeList, e.bfobscured = false) ∧
      Alternate (AppCore.notes after.calls) ∧
      (InForeground (AppCore.notes after.calls) ↔ after.bActive = true) := by
  obtain ⟨ops, hops⟩ := Option.ne_none_iff_exists'.mp h.1.ops_ne_none
  intro q after
  have htold : q.life.Told := by
    rw [life_loop h hops]
    exact told_loop hfirst es
  have hqops : q.life.ops ≠ none := by
    rw [life_loop h hops, ops_run]
    simp [entryLife]
  have halternate := htold.alternate
  have hactive := htold.active
  have hend : after.life.Told := told_appcoreEflMain hfirst h
  have halternate' := hend.alternate
  have hactive' := hend.active
  rw [notes_life] at halternate hactive halternate' hactive'
  refine ⟨halternate, hactive, fun win o a => ?_, halternate', hactive'⟩
  intro r
  have hr : r.life = q.life.step (.visibilityChange win o, a) := life_step q _
  have hstep := (Life.told_step htold hqops (.visibilityChange win o, a)).active
  rw [Life.bActive_visibilityChange, ← hr, notes_life, life_wins, checkVisible_iff] at hstep
  exact hstep

/-- A window of a first call shows and is covered. -/
def coveredOnce : List (Event × Answers) :=
  [(.show 1 1, goodAnswers), (.visibilityChange 1 true, goodAnswers)]

/-- The cover is told once, and the end of the call tells nothing more. -/
theorem notifications_mirror_coveredOnce :
    let q := Machine.run step (plain.startUp (goodCall fullOps [])).2 coveredOnce
    let after := (plain.appcoreEflMain (goodCall fullOps [])).2
    AppCore.notes q.calls = [.sysmanInformBackgrd] ∧ Alternate (AppCore.notes q.calls) ∧
      (InForeground (AppCore.notes q.calls) ↔ q.bActive = true) ∧
      (∀ win o a, let r := q.step (.visibilityChange win o, a)
        InForeground (AppCore.notes r.calls) ↔
          ∃ e ∈ r.gWinnodeList, e.bfobscured = false) ∧
      Alternate (AppCore.notes after.calls) ∧
      (InForeground (AppCore.notes after.calls) ↔ after.bActive = true) :=
  ⟨by decide, notifications_mirror ⟨_, _, _, [], by simp, rfl⟩ (starts_plain fullOps []) _⟩

end Process

end AppCore
