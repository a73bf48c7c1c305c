import AppCore.MainCall

/-!
# Windows and the Foreground

The application is to be paused when its windows are covered or gone, and resumed when
one of them shows again. Three pieces of state take part: the window list, `b_active` and
`ui->state`. A resume is never lost, for a paused application is never active. A pause
can be: `AE_RESET` makes the application run without looking at `b_active`, and as long
as `b_active` stays 0 no window event pauses it.

## Main results

* `not_active_of_paused`: **the coupling invariant**, paused implies not active, and with
  it that a visible window resumes a paused application.
* `Life.running_inactive_iff`: an application runs while `b_active` is 0 exactly when
  `b_active` has been 0 ever since a reset.
* `noLostPause_iff`: **when a pause is lost**, for every run of the loop.
-/

set_option autoImplicit false

namespace AppCore

namespace Life

/-! ### A resume is never lost -/

/-- A paused application is not active; it has callbacks, for without them it is never
paused. -/
def Coupled (l : Life) : Prop :=
  l.state = .paused → l.bActive = false ∧ l.ops ≠ none

/-- Without callbacks no step pauses the application. -/
theorem step_state_of_ops_none {l : Life} (hops : l.ops = none) (x : Event × Answers) :
    (l.step x).state = l.state ∨ (l.step x).state = .dying := by
  have hstep := l.step_spec x
  generalize x.1 = e at hstep
  generalize l.step x = l' at hstep
  cases hstep with
  | reset b => exact Or.inl (reset_state_of_ops_none hops)
  | terminate => exact Or.inr rfl
  | background he hvisible hactive =>
      exact Or.inl (switch_state_of_ops_none hops)
  | foreground hvisible hactive =>
      exact Or.inl (switch_state_of_ops_none hops)
  | windows => exact Or.inl rfl

/-- With callbacks, only the way to the background pauses. -/
theorem coupled_step_of_ops {l : Life} (hops : l.ops ≠ none) (x : Event × Answers)
    (h : l.Coupled) : (l.step x).Coupled := by
  have hstep := l.step_spec x
  generalize x.1 = e at hstep
  generalize l.step x = l' at hstep
  cases hstep with
  | reset b =>
      intro hp
      obtain ⟨ops, hops⟩ := Option.ne_none_iff_exists'.mp hops
      rw [reset_state hops] at hp
      exact absurd hp (by decide)
  | terminate => rintro ⟨⟩
  | background he hvisible hactive =>
      intro _
      exact ⟨switch_bActive, by simpa using hops⟩
  | foreground hvisible hactive =>
      intro hp
      exact absurd hp (switch_state_ne hops (by decide))
  | windows => exact h

/-- Every step keeps the state and `b_active` coupled. -/
theorem coupled_step (l : Life) (x : Event × Answers) (h : l.Coupled) :
    (l.step x).Coupled := by
  by_cases hops : l.ops = none
  · intro hp
    rcases step_state_of_ops_none hops x with hsame | hdying
    · rw [hsame] at hp
      exact absurd hops (h hp).2
    · rw [hdying] at hp
      exact absurd hp (by decide)
  · exact coupled_step_of_ops hops x h

/-- After a visibility change that leaves a window visible, the application is active. -/
theorem bActive_of_visible (l : Life) (win : BitVec 32) (o : Bool) (a : Answers)
    (hvisible : checkVisible (l.step (.visibilityChange win o, a)).wins = true) :
    (l.step (.visibilityChange win o, a)).bActive = true := by
  have hstep := l.step_spec (.visibilityChange win o, a)
  generalize l.step (.visibilityChange win o, a) = l' at hstep hvisible
  cases hstep with
  | background he hnot hactive =>
      rw [switch_wins] at hvisible
      exact absurd hvisible (by simp [hnot])
  | foreground hvis hactive => exact switch_bActive
  | windows hreset hterminate hback hfore => exact hfore ⟨win, o, rfl⟩ hvisible

/-! ### When a pause is lost -/

/-- **An application runs while it is not active** exactly when it has not been active
ever since some reset: the reset started it, and no window event has touched it. -/
theorem running_inactive_iff {l : Life} {ops : AppcoreOps} (hstate : l.state = .created)
    (hops : l.ops = some ops) {es : List (Event × Answers)}
    (hterminate : ∀ x ∈ es, x.1 ≠ .terminate) :
    (Machine.run step l es).state = .running ∧ (Machine.run step l es).bActive = false ↔
      Machine.Since step (fun t => t.bActive = false) (fun _ x => x.1.IsReset) l es := by
  induction es using List.reverseRecOn with
  | nil =>
      refine iff_of_false ?_ Machine.not_since_nil
      rintro ⟨hrun, -⟩
      rw [Machine.run_nil, hstate] at hrun
      exact absurd hrun (by decide)
  | append_singleton es x ih =>
      have ih := ih fun y hy => hterminate y (by simp [hy])
      have hx : x.1 ≠ .terminate := hterminate x (by simp)
      have hlops : (Machine.run step l es).ops = some ops :=
        (Process.ops_run l es).trans hops
      rw [Machine.run_snoc, Machine.since_snoc, ← ih]
      generalize Machine.run step l es = t at hlops
      obtain ⟨e, a⟩ := x
      have hstep := t.step_spec (e, a)
      generalize t.step (e, a) = t' at hstep
      have hne : t.ops ≠ none := by simp [hlops]
      cases hstep with
      | reset b =>
          rw [reset_state hlops]
          simp [Event.IsReset]
      | terminate => exact absurd rfl hx
      | background he hvisible hactive =>
          refine iff_of_false ?_ ?_
          · rintro ⟨hrun, -⟩
            exact absurd hrun (switch_state_ne hne (by decide))
          · rintro ⟨-, ⟨b, rfl⟩ | ⟨-, hinactive⟩⟩
            · exact absurd he (by simp [Checkpoint])
            · rw [hactive] at hinactive
              exact absurd hinactive (by decide)
      | foreground hvisible hactive => simp
      | windows hreset hterm hback hfore =>
          have hnot : ¬ e.IsReset := by
            rintro ⟨b, hb⟩
            exact hreset b hb
          simp [hnot]

/-- **What is left of a checkpoint** without a visible window: the application runs after
it exactly when it ran before it without being active. -/
theorem running_after_checkpoint_iff {l : Life} (hops : l.ops ≠ none)
    (x : Event × Answers) (he : Checkpoint l.wins x.1)
    (hnot : checkVisible (l.step x).wins = false) :
    (l.step x).state = .running ↔ l.state = .running ∧ l.bActive = false := by
  have hstep := l.step_spec x
  generalize x.1 = e at hstep he
  generalize l.step x = l' at hstep hnot
  cases hstep with
  | reset b => exact absurd he (by simp [Checkpoint])
  | terminate => exact absurd he (by simp [Checkpoint])
  | background _ hvisible hactive =>
      refine iff_of_false (switch_state_ne hops (by decide)) ?_
      rintro ⟨-, hinactive⟩
      rw [hactive] at hinactive
      exact absurd hinactive (by decide)
  | foreground hvisible hactive =>
      rw [switch_wins] at hnot
      exact absurd hnot (by simp [hvisible])
  | windows hreset hterm hback hfore =>
      exact ⟨fun hrun => ⟨hrun, hback he hnot⟩, fun h => h.1⟩

end Life

namespace Process

/-! ### The process -/

/-- **No lost resume.** From the state `created`, with any windows and any `b_active`: a
paused application is never active, and after a visibility change that leaves a window
visible the application is active and not paused. -/
theorem not_active_of_paused {p : Process} (hp : p.priv.state = .created)
    (es : List (Event × Answers)) :
    let q := Machine.run step p es
    (q.priv.state = .paused → q.bActive = false) ∧
      ∀ (win : BitVec 32) (o : Bool) (a : Answers),
        let r := q.step (.visibilityChange win o, a)
        checkVisible r.gWinnodeList = true → r.bActive = true ∧ r.priv.state ≠ .paused := by
  have hcoupled : ∀ es, (Machine.run step p es).life.Coupled := by
    intro es
    rw [life_run]
    refine Machine.run_invariant Life.step Life.coupled_step ?_ es
    intro hpaused
    rw [life_state, hp] at hpaused
    exact absurd hpaused (by decide)
  intro q
  refine ⟨fun hpaused => (hcoupled es hpaused).1, ?_⟩
  intro win o a r hvisible
  have hlife : r.life = q.life.step (.visibilityChange win o, a) := life_step q _
  have hactive : r.bActive = true := by
    have := Life.bActive_of_visible q.life win o a
    rw [← hlife] at this
    exact this hvisible
  refine ⟨hactive, fun hpaused => ?_⟩
  have hr : r.life.Coupled := by
    have := hcoupled (es ++ [(.visibilityChange win o, a)])
    rwa [Machine.run_snoc] at this
  rw [show r.bActive = false from (hr hpaused).1] at hactive
  exact absurd hactive (by decide)

/-- A window shows, the application is launched, and the window is covered: the
application is paused, and uncovering the window makes it active again. -/
theorem not_active_of_paused_covered :
    let q := Machine.run step { plain with priv.state := .created, priv.ops := some fullOps }
      [(.show 1 1, goodAnswers), (.reset none, goodAnswers),
       (.visibilityChange 1 true, goodAnswers)]
    let r := q.step (.visibilityChange 1 false, goodAnswers)
    (q.priv.state = .paused ∧ q.bActive = false) ∧ r.bActive = true ∧ r.priv.state ≠ .paused := by
  have h := not_active_of_paused
    (p := { plain with priv.state := .created, priv.ops := some fullOps }) rfl
    [(.show 1 1, goodAnswers), (.reset none, goodAnswers),
     (.visibilityChange 1 true, goodAnswers)]
  exact ⟨⟨by decide, h.1 (by decide)⟩, h.2 1 false goodAnswers (by decide)⟩

/-- No pause is lost in a run: at each checkpoint that leaves no window visible, the
application does not run any more. -/
def NoLostPause (p : Process) (es : List (Event × Answers)) : Prop :=
  ∀ pre x post, es = pre ++ x :: post →
    Life.Checkpoint (Machine.run step p pre).gWinnodeList x.1 →
    checkVisible (Machine.run step p (pre ++ [x])).gWinnodeList = false →
    (Machine.run step p (pre ++ [x])).priv.state ≠ .running

/-- Whether a pause is lost is a matter of the life cycle. -/
theorem noLostPause_iff_life (p : Process) (es : List (Event × Answers)) :
    NoLostPause p es ↔
      ∀ pre x post, es = pre ++ x :: post →
        Life.Checkpoint (Machine.run Life.step p.life pre).wins x.1 →
        checkVisible (Machine.run Life.step p.life (pre ++ [x])).wins = false →
        (Machine.run Life.step p.life (pre ++ [x])).state ≠ .running := by
  simp only [← life_run]
  rfl

/-- `b_active` has been 0 ever since some `AE_RESET` of the run was handled. -/
def ResetWhileInactive (p : Process) (es : List (Event × Answers)) : Prop :=
  Machine.Since step (fun q => q.bActive = false) (fun _ x => x.1.IsReset) p es

/-- An application that was created runs after a checkpoint without a visible window exactly
when the condition held before the checkpoint. -/
theorem running_checkpoint_iff {s : Process} {ops : AppcoreOps}
    (hstate : s.life.state = .created) (hops : s.life.ops = some ops)
    {pre : List (Event × Answers)} (hpre : ∀ y ∈ pre, y.1 ≠ .terminate) {x : Event × Answers}
    (hcheck : Life.Checkpoint (Machine.run step s pre).gWinnodeList x.1)
    (hnot : checkVisible (Machine.run step s (pre ++ [x])).gWinnodeList = false) :
    (Machine.run step s (pre ++ [x])).priv.state = .running ↔ ResetWhileInactive s pre := by
  have hlife : (Machine.run step s (pre ++ [x])).life =
      (Machine.run Life.step s.life pre).step x := by
    rw [life_run, Machine.run_snoc]
  have hrun := life_run s pre
  have hne : (Machine.run Life.step s.life pre).ops ≠ none := by
    simp [ops_run, hops]
  have hafter := Life.running_after_checkpoint_iff hne x
  rw [← hlife, ← hrun] at hafter
  have hsince := Life.running_inactive_iff hstate hops hpre
  rw [← Machine.since_map life_step, ← hrun] at hsince
  exact (hafter hcheck hnot).trans hsince

/-- **When a pause is lost.** In a run of the main loop without `AE_TERMINATE`, no pause
is lost exactly when no checkpoint that leaves no window visible is handled while
`b_active` has been 0 ever since an `AE_RESET`. -/
theorem noLostPause_iff {m : MainCall} {p : Process} (h : Starts m p)
    (hterminate : ∀ x ∈ m.events, x.1 ≠ .terminate) :
    NoLostPause (p.startUp m).2 m.events ↔
      ∀ pre x post, m.events = pre ++ x :: post →
        Life.Checkpoint (Machine.run step (p.startUp m).2 pre).gWinnodeList x.1 →
        checkVisible (Machine.run step (p.startUp m).2 (pre ++ [x])).gWinnodeList = false →
        ¬ ResetWhileInactive (p.startUp m).2 pre := by
  obtain ⟨ops, hops⟩ := Option.ne_none_iff_exists'.mp h.1.ops_ne_none
  have hentry := (startUp_of_starts h hops).2
  generalize (p.startUp m).2 = s at hentry
  have hstate : s.life.state = .created := by rw [hentry, entryLife]
  have hsops : s.life.ops = some ops := by rw [hentry, entryLife]
  have hbefore : ∀ {pre x post}, m.events = pre ++ x :: post → ∀ y ∈ pre, y.1 ≠ .terminate := by
    intro pre x post hsplit y hy
    exact hterminate y (by simp [hsplit, hy])
  constructor
  · intro hno pre x post hsplit hcheck hnot hreset
    have hrun := running_checkpoint_iff hstate hsops (hbefore hsplit) hcheck hnot
    exact hno pre x post hsplit hcheck hnot (hrun.mpr hreset)
  · intro hno pre x post hsplit hcheck hnot hrun
    have hreset := running_checkpoint_iff hstate hsops (hbefore hsplit) hcheck hnot
    exact hno pre x post hsplit hcheck hnot (hreset.mp hrun)

/-- A relaunch while the only window is covered: launched with the window in front, then
covered, then launched again. -/
def relaunchCovered : List (Event × Answers) :=
  [(.show 1 1, goodAnswers), (.reset none, goodAnswers),
   (.visibilityChange 1 true, goodAnswers), (.reset none, goodAnswers)]

/-- The condition, for the call that hides the window after such a relaunch. -/
theorem noLostPause_iff_relaunchCovered :
    let s := (plain.startUp (goodCall fullOps (relaunchCovered ++ [(.hide 1, goodAnswers)]))).2
    NoLostPause s (relaunchCovered ++ [(.hide 1, goodAnswers)]) ↔
      ∀ pre x post, relaunchCovered ++ [(.hide 1, goodAnswers)] = pre ++ x :: post →
        Life.Checkpoint (Machine.run step s pre).gWinnodeList x.1 →
        checkVisible (Machine.run step s (pre ++ [x])).gWinnodeList = false →
        ¬ ResetWhileInactive s pre :=
  noLostPause_iff (starts_plain fullOps (relaunchCovered ++ [(.hide 1, goodAnswers)]))
    (by simp [goodCall, relaunchCovered])

/-- **A lost pause.** After the relaunch the application runs with `b_active` 0, so that
the hiding of its only window does not pause it. -/
theorem lostPause_relaunchCovered :
    let m := goodCall fullOps (relaunchCovered ++ [(.hide 1, goodAnswers)])
    Starts m plain ∧ (∀ x ∈ m.events, x.1 ≠ .terminate) ∧ (∃ x ∈ m.events, x.1.IsReset) ∧
      (∀ x ∈ m.events, x.2.calloc = true) ∧
      ¬ NoLostPause (plain.startUp m).2 m.events := by
  intro m
  have hstarts : Starts m plain := starts_plain _ _
  refine ⟨hstarts, ?_, ?_, ?_, fun hno => ?_⟩
  · simp [m, goodCall, relaunchCovered]
  · exact ⟨(.reset none, goodAnswers), by simp [m, goodCall, relaunchCovered], none, rfl⟩
  · simp [m, goodCall, relaunchCovered, goodAnswers]
  · rw [noLostPause_iff_life, (startUp_of_starts hstarts rfl).2] at hno
    have hknown : Life.Checkpoint
        (Machine.run Life.step (entryLife fullOps plain) relaunchCovered).wins (.hide 1) :=
      show existWin 1 _ = true by decide
    have hnot : checkVisible (Machine.run Life.step (entryLife fullOps plain)
        (relaunchCovered ++ [(.hide 1, goodAnswers)])).wins = false := by
      decide
    have hrun : (Machine.run Life.step (entryLife fullOps plain)
        (relaunchCovered ++ [(.hide 1, goodAnswers)])).state = .running := by
      decide
    exact hno relaunchCovered (.hide 1, goodAnswers) [] rfl hknown hnot hrun

end Process

end AppCore
