import AppCore.Delivery
import AppCore.Lib.Trace

/-!
# The State, Read Off the History

`ui->state` is written in four places, under guards that read it and `b_active`. Here it is
given in closed form: after any sequence of actions of a call it is determined by the last
command the application got, `AE_RESET` or `AE_TERMINATE`, by `b_active`, and by whether
`b_active` has been 0 ever since some reset.

## Main results

* `Life.settled_run`: the closed form over a run of the loop.
* `state_session`: **the state of a call in a session**, state by state.
-/

set_option autoImplicit false

namespace AppCore

/-- What an application can be told to do. -/
inductive Command
  | reset
  | terminate
  deriving DecidableEq, Repr

/-- The command that an event carries. -/
def Event.command : Event → Option Command
  | .reset _ => some .reset
  | .terminate => some .terminate
  | _ => none

/-- The last command among the events. -/
def lastCommand (es : List (Event × Answers)) : Option Command :=
  Trace.latest (fun x => x.1.command.map some) none es

/-- Only a reset and a terminate are commands. -/
theorem Event.command_eq_none {e : Event} (hreset : ∀ b, e ≠ .reset b)
    (hterminate : e ≠ .terminate) : e.command = none := by
  cases e with
  | reset b => exact absurd rfl (hreset b)
  | terminate => exact absurd rfl hterminate
  | _ => rfl

/-- The last command after one more event. -/
theorem lastCommand_snoc (es : List (Event × Answers)) (x : Event × Answers) :
    lastCommand (es ++ [x]) = (x.1.command.map some).getD (lastCommand es) :=
  Trace.latest_snoc

/-- An event that is no command does not change the last one. -/
theorem lastCommand_snoc_of_none {x : Event × Answers} (hx : x.1.command = none)
    (es : List (Event × Answers)) : lastCommand (es ++ [x]) = lastCommand es := by
  rw [lastCommand_snoc, hx]
  rfl

namespace Life

/-- `b_active` has been 0 ever since some reset: the application was started in the
background. -/
def HeldBack : Life → List (Event × Answers) → Prop :=
  Machine.Since step (fun l => l.bActive = false) (fun _ x => x.1.IsReset)

/-- The state that goes with the last command. -/
def Settled (last : Option Command) (held : Prop) (l : Life) : Prop :=
  match last with
  | none => l.state = .created
  | some .terminate => l.state = .dying
  | some .reset =>
      l.state = .running ∧ (l.bActive = true ∨ held) ∨
        l.state = .paused ∧ l.bActive = false ∧ ¬ held

variable {last : Option Command} {held : Prop} {l : Life}

/-- Going to the background pauses a running application. -/
theorem background_state {ops : AppcoreOps} (hops : l.ops = some ops) :
    l.background.state = if l.state = .running then .paused else l.state :=
  switch_state hops

/-- Coming to the foreground resumes a paused one. -/
theorem foreground_state {ops : AppcoreOps} (hops : l.ops = some ops) :
    l.foreground.state = if l.state = .paused then .running else l.state :=
  switch_state hops

/-- An active application that goes to the background is paused if it was reset. -/
theorem Settled.background (h : l.Settled last held) {ops : AppcoreOps}
    (hops : l.ops = some ops) (hactive : l.bActive = true) (wins : List WinNode) :
    ({ l with wins := wins, bActive := false } : Life).background.Settled last False := by
  have hstate := background_state (l := { l with wins := wins, bActive := false }) hops
  have hinactive : ({ l with wins := wins, bActive := false } : Life).background.bActive =
      false := switch_bActive
  rcases last with _ | ⟨_ | _⟩
  · exact hstate.trans (if_neg (by simp [show l.state = .created from h])) |>.trans h
  · rcases h with ⟨hrun, -⟩ | ⟨-, hnot, -⟩
    · exact .inr ⟨hstate.trans (if_pos hrun), hinactive, not_false⟩
    · rw [hactive] at hnot
      cases hnot
  · exact hstate.trans (if_neg (by simp [show l.state = .dying from h])) |>.trans h

/-- An application that comes to the foreground runs if it was reset. -/
theorem Settled.foreground (h : l.Settled last held) {ops : AppcoreOps}
    (hops : l.ops = some ops) (wins : List WinNode) :
    ({ l with wins := wins, bActive := true } : Life).foreground.Settled last False := by
  have hstate := foreground_state (l := { l with wins := wins, bActive := true }) hops
  have hactive : ({ l with wins := wins, bActive := true } : Life).foreground.bActive = true :=
    switch_bActive
  rcases last with _ | ⟨_ | _⟩
  · exact hstate.trans (if_neg (by simp [show l.state = .created from h])) |>.trans h
  · rcases h with ⟨hrun, -⟩ | ⟨hpaused, -, -⟩
    · exact .inl ⟨hstate.trans (if_neg (by simp [hrun])) |>.trans hrun, .inl hactive⟩
    · exact .inl ⟨hstate.trans (if_pos hpaused), .inl hactive⟩
  · exact hstate.trans (if_neg (by simp [show l.state = .dying from h])) |>.trans h

/-- Steps that leave the state and `b_active` alone, and what is held back while inactive. -/
theorem Settled.congr {held' : Prop} {l' : Life} (h : l.Settled last held)
    (hstate : l'.state = l.state) (hactive : l'.bActive = l.bActive)
    (hheld : l.bActive = false → (held' ↔ held)) : l'.Settled last held' := by
  rcases last with _ | ⟨_ | _⟩
  · exact hstate.trans h
  · rcases h with ⟨hrun, hwhy⟩ | ⟨hpaused, hnot, hnheld⟩
    · refine .inl ⟨hstate.trans hrun, ?_⟩
      cases hb : l.bActive with
      | true => exact .inl (hactive.trans hb)
      | false =>
          rw [hb] at hwhy
          exact .inr ((hheld hb).mpr (by simpa using hwhy))
    · exact .inr ⟨hstate.trans hpaused, hactive.trans hnot, fun h => hnheld ((hheld hnot).mp h)⟩
  · exact hstate.trans h

/-- **The closed form.** From the state `created` the state is determined by the last
command, `b_active`, and whether the application was held back. -/
theorem settled_run {ops : AppcoreOps} (hstate : l.state = .created) (hops : l.ops = some ops)
    (es : List (Event × Answers)) :
    (Machine.run step l es).Settled (lastCommand es) (l.HeldBack es) := by
  induction es using List.reverseRecOn with
  | nil => exact hstate
  | append_singleton es x ih =>
      have hlops : (Machine.run step l es).ops = some ops := (Process.ops_run l es).trans hops
      have hheld : l.HeldBack (es ++ [x]) ↔ ((Machine.run step l es).step x).bActive = false ∧
          (x.1.IsReset ∨ l.HeldBack es) := Machine.since_snoc
      have hnow : l.HeldBack es → (Machine.run step l es).bActive = false :=
        fun h => Machine.Since.now h
      rw [Machine.run_snoc]
      generalize Machine.run step l es = t at ih hlops hheld hnow ⊢
      obtain ⟨e, a⟩ := x
      have hstep := t.step_spec (e, a)
      generalize t.step (e, a) = t' at hstep hheld ⊢
      cases hstep with
      | reset b =>
          have hlast : lastCommand (es ++ [(.reset b, a)]) = some .reset := lastCommand_snoc es _
          rw [hlast]
          refine .inl ⟨reset_state hlops, ?_⟩
          cases hactive : (t.reset b).bActive with
          | true => exact .inl rfl
          | false => exact .inr (hheld.mpr ⟨hactive, .inl ⟨b, rfl⟩⟩)
      | terminate =>
          have hlast : lastCommand (es ++ [(.terminate, a)]) = some .terminate :=
            lastCommand_snoc es _
          rw [hlast]
          exact rfl
      | @background _ wins he hvisible hactive =>
          have hnone : e.command = none := by
            cases e with
            | reset b => exact he.elim
            | terminate => exact he.elim
            | _ => rfl
          have hreset : ¬ e.IsReset := by
            rintro ⟨b, rfl⟩
            exact he
          rw [lastCommand_snoc_of_none hnone]
          refine (ih.background hlops hactive wins).congr rfl rfl fun _ => ?_
          refine iff_of_false (fun h => ?_) not_false
          rcases (hheld.mp h).2 with h | h
          · exact hreset h
          · rw [hnow h] at hactive
            cases hactive
      | @foreground win o wins hvisible hactive =>
          rw [lastCommand_snoc_of_none rfl]
          have hactive' : ({ t with wins := wins, bActive := true } : Life).foreground.bActive =
              true := switch_bActive
          refine (ih.foreground hlops wins).congr rfl rfl fun h => ?_
          rw [hactive'] at h
          cases h
      | windows hreset hterminate hback hfore =>
          have hnot : ¬ e.IsReset := fun ⟨b, hb⟩ => hreset b hb
          rw [lastCommand_snoc_of_none (Event.command_eq_none hreset hterminate)]
          refine ih.congr rfl rfl fun hfalse => ?_
          rw [hheld]
          exact ⟨fun h => h.2.resolve_left hnot, fun h => ⟨hfalse, .inr h⟩⟩

/-- The closed form, state by state. -/
theorem Settled.iffs (h : l.Settled last held) :
    (l.state = .created ↔ last = none) ∧
      (l.state = .running ↔ last = some .reset ∧ (l.bActive = true ∨ held)) ∧
      (l.state = .paused ↔ last = some .reset ∧ l.bActive = false ∧ ¬ held) ∧
      (l.state = .dying ↔ last = some .terminate) := by
  rcases last with _ | ⟨_ | _⟩
  · simp [show l.state = .created from h]
  · rcases h with ⟨hrun, hwhy⟩ | ⟨hpaused, hnot, hnheld⟩
    · refine ⟨by simp [hrun], iff_of_true hrun ⟨rfl, hwhy⟩, ?_, by simp [hrun]⟩
      refine iff_of_false (by simp [hrun]) ?_
      rintro ⟨-, hnot, hnheld⟩
      exact hwhy.elim (by simp [hnot]) hnheld
    · refine ⟨by simp [hpaused], ?_, iff_of_true hpaused ⟨rfl, hnot, hnheld⟩, by simp [hpaused]⟩
      refine iff_of_false (by simp [hpaused]) ?_
      rintro ⟨-, hactive | h⟩
      · rw [hnot] at hactive
        cases hactive
      · exact hnheld h
  · simp [show l.state = .dying from h]

end Life

namespace Process

/-- **The state of a call, read off its history.** From the entry of the loop on, whatever
happens until the call ends, `ui->state` is determined by the events that were handed to
the application: it is `created` before the first command and `dying` after
`AE_TERMINATE`, and after `AE_RESET` the application is paused if `b_active` is 0 and has
not been so ever since some reset, and otherwise runs. -/
theorem state_session {m : MainCall} {p : Process} {ops : AppcoreOps} (h : Starts m p)
    (hops : m.ops = some ops) (hlegal : ∀ c ∈ m.start.createApi, c.Legal) {as : List Action}
    (has : ∀ x ∈ as, x.isLeave = false ∧ x.Legal) :
    let q := Machine.run act (p.startUp m).2 as
    let es := handed (linksUp m) as
    let held := (entryLife ops p).HeldBack es
    (q.priv.state = .created ↔ lastCommand es = none) ∧
      (q.priv.state = .running ↔ lastCommand es = some .reset ∧ (q.bActive = true ∨ held)) ∧
      (q.priv.state = .paused ↔ lastCommand es = some .reset ∧ q.bActive = false ∧ ¬ held) ∧
      (q.priv.state = .dying ↔ lastCommand es = some .terminate) := by
  intro q es held
  have hlife : q.life = Machine.run Life.step (entryLife ops p) es :=
    life_session h hops hlegal has
  have hsettled : q.life.Settled (lastCommand es) held := by
    rw [hlife]
    exact Life.settled_run rfl rfl es
  exact hsettled.iffs

/-- A launch, a cover, and a second launch while the windows are covered. -/
def relaunchedBehind : List Action :=
  [.handle (.show 1 1, goodAnswers), .aul .start none goodAnswers,
   .handle (.visibilityChange 1 true, goodAnswers), .aul .start none goodAnswers]

/-- The second launch finds the windows covered, and the application runs behind them. -/
theorem state_session_relaunchedBehind :
    (Machine.run act (plain.startUp (goodCall fullOps [])).2 relaunchedBehind).priv.state =
        .running ∧
      (entryLife fullOps plain).HeldBack (handed true relaunchedBehind) := by
  have hlegal : ∀ x ∈ relaunchedBehind, x.isLeave = false ∧ x.Legal := by
    simp [relaunchedBehind, Action.isLeave, Action.Legal, Action.apiCalls, ApiCall.Legal]
  obtain ⟨-, hrunning, -, -⟩ :=
    state_session (starts_plain fullOps []) rfl (by simp [goodCall]) hlegal
  have hstate : (Machine.run act (plain.startUp (goodCall fullOps [])).2
      relaunchedBehind).priv.state = .running := rfl
  refine ⟨hstate, ?_⟩
  rcases (hrunning.mp hstate).2 with hactive | hheld
  · cases hactive
  · exact hheld

end Process

end AppCore
