import AppCore.MainCall

/-!
# The Callbacks of a Call

The order in which one call of `appcore_efl_main` invokes the callbacks of the
application. An automaton with the phases of a life cycle reads the callbacks; the mode
of the application simulates it, so the automaton never dies, and what a life sequence of
callbacks looks like is read off the automaton alone.

`AE_TERMINATE` puts the application into the state `dying`. The branches of `__do_app`
for a pause and a resume look at the state and do nothing then, the branch for a reset
does not, and brings a dying application back to life.

## Main results

* `Callbacks.middle_of_alive`: what the automaton accepts obeys the grammar.
* `Life.simulates_step`: **simulation**, the mode of the application follows the automaton.
* `callback_grammar`: **the grammar** of the callbacks of a call, by how far its start-up gets.
* `dying_final_iff`: after `AE_TERMINATE` a call is over exactly when no `AE_RESET` is
  handled any more.
-/

set_option autoImplicit false

namespace AppCore

/-- The callbacks of `struct appcore_ops`. -/
inductive OpsCallback
  | create
  | terminate
  | pause
  | resume
  | reset
  deriving DecidableEq, Repr

/-- The callback that a trace entry records, if it records one. -/
def Call.opsCallback : Call → Option OpsCallback
  | .create .. => some .create
  | .terminate .. => some .terminate
  | .pause .. => some .pause
  | .resume .. => some .resume
  | .reset .. => some .reset
  | _ => none

/-- All five callbacks are there. -/
structure AppcoreOps.Full (ops : AppcoreOps) : Prop where
  create : ops.create ≠ none
  terminate : ops.terminate ≠ none
  pause : ops.pause ≠ none
  resume : ops.resume ≠ none
  reset : ops.reset ≠ none

namespace Callbacks

/-! ### The automaton -/

/-- The phases of a life cycle as its callbacks show it; `dead` is the trap. -/
inductive Phase
  | idle
  | running
  | paused
  | dead
  deriving DecidableEq, Repr

/-- The next phase, between `create` and `terminate`. -/
def next : Phase → OpsCallback → Phase
  | .idle, .reset => .running
  | .running, .reset => .running
  | .running, .pause => .paused
  | .paused, .reset => .running
  | .paused, .resume => .running
  | _, _ => .dead

/-- What may stand between `create` and `terminate`. -/
structure Middle (mid : List OpsCallback) : Prop where
  no_create : .create ∉ mid
  no_terminate : .terminate ∉ mid
  /-- No pause and no resume comes before the first reset. -/
  reset_first : ∀ pre c post, mid = pre ++ c :: post → c = .pause ∨ c = .resume →
    .reset ∈ pre
  /-- Between two pauses there is a resume or a reset. -/
  between_pauses : ∀ pre between post, mid = pre ++ .pause :: between ++ .pause :: post →
    .resume ∈ between ∨ .reset ∈ between
  /-- A resume follows a pause, with no resume and no reset between the two. -/
  resume_after_pause : ∀ pre post, mid = pre ++ .resume :: post →
    ∃ before between, pre = before ++ .pause :: between ∧ .resume ∉ between ∧
      .reset ∉ between

/-- A word that has left the grammar does not come back to it. -/
theorem run_dead (l : List OpsCallback) : Machine.run next .dead l = .dead := by
  induction l with
  | nil => rfl
  | cons c l ih => cases c <;> exact ih

/-- A part of a sequence the automaton reads without dying keeps it alive. -/
theorem alive_left {s : Phase} {l m : List OpsCallback}
    (h : Machine.run next s (l ++ m) ≠ .dead) : Machine.run next s l ≠ .dead := by
  intro hdead
  rw [Machine.run_append, hdead, run_dead] at h
  exact h rfl

/-- The phase before an entry that does not kill the automaton is one that admits it. -/
theorem alive_at {s : Phase} {pre post : List OpsCallback} {c : OpsCallback}
    (h : Machine.run next s (pre ++ c :: post) ≠ .dead) :
    next (Machine.run next s pre) c ≠ .dead := by
  have hpre : Machine.run next s (pre ++ [c]) ≠ .dead := by
    refine alive_left (m := post) ?_
    rwa [List.append_assoc, List.singleton_append]
  rwa [Machine.run_snoc] at hpre

/-- Entries that each leave a phase alone or kill leave it alone or kill together. -/
theorem run_eq_or_dead {s : Phase} {l : List OpsCallback}
    (h : ∀ c ∈ l, next s c = s ∨ next s c = .dead) :
    Machine.run next s l = s ∨ Machine.run next s l = .dead := by
  induction l with
  | nil => exact Or.inl rfl
  | cons c l ih =>
      rw [Machine.run_cons]
      rcases h c (by simp) with hc | hc
      · rw [hc]
        exact ih fun d hd => h d (by simp [hd])
      · rw [hc, run_dead]
        exact Or.inr rfl

/-- Before the first reset the automaton is idle or dead. -/
theorem idle_or_dead {l : List OpsCallback} (h : .reset ∉ l) :
    Machine.run next .idle l = .idle ∨ Machine.run next .idle l = .dead := by
  refine run_eq_or_dead fun c hc => ?_
  cases c with
  | reset => exact absurd hc h
  | create => exact Or.inr rfl
  | terminate => exact Or.inr rfl
  | pause => exact Or.inr rfl
  | resume => exact Or.inr rfl

/-- After a pause the automaton stays paused, or dies, until a resume or a reset. -/
theorem paused_or_dead {l : List OpsCallback} (hresume : .resume ∉ l) (hreset : .reset ∉ l) :
    Machine.run next .paused l = .paused ∨ Machine.run next .paused l = .dead := by
  refine run_eq_or_dead fun c hc => ?_
  cases c with
  | resume => exact absurd hc hresume
  | reset => exact absurd hc hreset
  | create => exact Or.inr rfl
  | terminate => exact Or.inr rfl
  | pause => exact Or.inr rfl

/-- A paused automaton was paused by a pause, with no resume and no reset after it. -/
theorem pause_of_paused {l : List OpsCallback}
    (h : Machine.run next .idle l = .paused) :
    ∃ before between, l = before ++ .pause :: between ∧ .resume ∉ between ∧
      .reset ∉ between := by
  have hidle : ¬ Phase.idle = Phase.paused := by decide
  obtain ⟨before, c, between, hsplit, ⟨hbefore, henter⟩, hstay⟩ :=
    Machine.since_of_entered (φ := fun s => s = Phase.paused) hidle h
  have hc : c = .pause := by
    generalize Machine.run next .idle before = s at hbefore henter
    revert hbefore henter
    cases s <;> cases c <;> decide
  -- a resume or a reset in between would leave the phase
  have hnot : ∀ d, next .paused d ≠ .paused → d ∉ between := by
    intro d hd hmem
    obtain ⟨k, k', rfl⟩ := List.append_of_mem hmem
    have hk := hstay k (List.prefix_append k _)
    have hkd := hstay (k ++ [d]) ⟨k', by simp⟩
    have happ : before ++ c :: (k ++ [d]) = (before ++ c :: k) ++ [d] := by simp
    rw [happ, Machine.run_snoc, hk] at hkd
    exact hd hkd
  exact ⟨before, between, by rw [hsplit, hc], hnot .resume (by decide),
    hnot .reset (by decide)⟩

/-- **What the automaton accepts obeys the grammar.** -/
theorem middle_of_alive {mid : List OpsCallback}
    (h : Machine.run next .idle mid ≠ .dead) : Middle mid := by
  have hnever : ∀ c, (∀ s, next s c = .dead) → c ∉ mid := by
    intro c hc hmem
    obtain ⟨pre, post, rfl⟩ := List.append_of_mem hmem
    exact alive_at h (hc _)
  refine ⟨hnever .create ?_, hnever .terminate ?_, ?_, ?_, ?_⟩
  · intro s
    cases s <;> rfl
  · intro s
    cases s <;> rfl
  · rintro pre c post rfl hc
    by_contra hreset
    have hat := alive_at h
    rcases idle_or_dead hreset with hpre | hpre <;> rw [hpre] at hat <;>
      rcases hc with rfl | rfl <;> exact hat rfl
  · rintro pre between post rfl
    by_contra hcon
    obtain ⟨hresume, hreset⟩ := not_or.mp hcon
    have hat := alive_at h
    have hfirst : next (Machine.run next .idle pre) .pause ≠ .dead :=
      alive_at (alive_left h)
    have hpaused : next (Machine.run next .idle pre) .pause = .paused := by
      generalize Machine.run next .idle pre = s at hfirst
      revert hfirst
      cases s <;> decide
    rw [Machine.run_append, Machine.run_cons, hpaused] at hat
    rcases paused_or_dead hresume hreset with hb | hb <;> rw [hb] at hat <;> exact hat rfl
  · rintro pre post rfl
    have hat := alive_at h
    have hpaused : Machine.run next .idle pre = .paused := by
      generalize Machine.run next .idle pre = s at hat
      revert hat
      cases s <;> decide
    exact pause_of_paused hpaused

/-! ### Simulation -/

/-- The phases that go with a mode of the application. A dying application may have come
from any of them. -/
def Follows : AppState → Phase → Prop
  | .none, _ => False
  | .created, s => s = .idle
  | .running, s => s = .running
  | .paused, s => s = .paused
  | .dying, s => s ≠ .dead

/-- A state that the automaton follows is not the dead one. -/
theorem Follows.alive {t : AppState} {s : Phase} (h : Follows t s) : s ≠ .dead := by
  rintro rfl
  revert h
  cases t <;> simp [Follows]

/-- A reset is admitted in every phase. -/
theorem Follows.reset {t : AppState} {s : Phase} (h : Follows t s) :
    next s .reset = .running := by
  have halive := h.alive
  revert halive
  cases s <;> simp [next]

end Callbacks

open Callbacks

namespace Life

/-- The callbacks in the trace. -/
def callbacks (l : Life) : List OpsCallback :=
  l.trace.filterMap Call.opsCallback

/-- The callbacks that one reset invokes. -/
theorem callbacks_reset {l : Life} {ops : AppcoreOps} (hops : l.ops = some ops)
    (hreset : ops.reset ≠ none) (b : Ptr) :
    (l.reset b).callbacks = l.callbacks ++ [.reset] := by
  obtain ⟨fn, hfn⟩ := Option.ne_none_iff_exists'.mp hreset
  simp [callbacks, reset_trace hops, hfn, Call.opsCallback]

/-- The callbacks that a move to the background invokes. -/
theorem callbacks_background {l : Life} {ops : AppcoreOps} (hops : l.ops = some ops)
    (hpause : ops.pause ≠ none) :
    l.background.callbacks =
      l.callbacks ++ if l.state = .running then [.pause] else [] := by
  obtain ⟨fn, hfn⟩ := Option.ne_none_iff_exists'.mp hpause
  rw [callbacks, background, switch_trace hops]
  split <;> simp [callbacks, hfn, Call.opsCallback]

/-- The callbacks that a move to the foreground invokes. -/
theorem callbacks_foreground {l : Life} {ops : AppcoreOps} (hops : l.ops = some ops)
    (hresume : ops.resume ≠ none) :
    l.foreground.callbacks =
      l.callbacks ++ if l.state = .paused then [.resume] else [] := by
  obtain ⟨fn, hfn⟩ := Option.ne_none_iff_exists'.mp hresume
  rw [callbacks, foreground, switch_trace hops]
  split <;> simp [callbacks, hfn, Call.opsCallback]

/-- The life cycle goes on from `base` as the automaton allows. -/
def Simulates (ops : AppcoreOps) (base : List OpsCallback) (l : Life) : Prop :=
  l.ops = some ops ∧
    ∃ mid, l.callbacks = base ++ mid ∧ Follows l.state (Machine.run next .idle mid)

/-- A reset is a step of the automaton. -/
theorem Simulates.reset {ops : AppcoreOps} {base : List OpsCallback} {l : Life}
    (hfull : ops.Full) (h : l.Simulates ops base) (b : Ptr) :
    (l.reset b).Simulates ops base := by
  obtain ⟨hops, mid, hmid, hfollows⟩ := h
  refine ⟨(reset_ops b l).trans hops, mid ++ [.reset], ?_, ?_⟩
  · rw [callbacks_reset hops hfull.reset, hmid, List.append_assoc]
  · rw [reset_state hops, Machine.run_snoc, hfollows.reset]
    rfl

/-- Going to the background is a step of the automaton, or none. -/
theorem Simulates.background {ops : AppcoreOps} {base : List OpsCallback} {l : Life}
    (hfull : ops.Full) (h : l.Simulates ops base) : l.background.Simulates ops base := by
  obtain ⟨hops, mid, hmid, hfollows⟩ := h
  refine ⟨switch_ops.trans hops, mid ++ (if l.state = .running then [.pause] else []), ?_, ?_⟩
  · rw [callbacks_background hops hfull.pause, ← List.append_assoc, ← hmid]
  · rw [switch_state hops]
    by_cases hrun : l.state = .running
    · rw [hrun] at hfollows
      rw [if_pos hrun, if_pos hrun, Machine.run_snoc, hfollows]
      rfl
    · rw [if_neg hrun, if_neg hrun, List.append_nil]
      exact hfollows

/-- Coming to the foreground is a step of the automaton, or none. -/
theorem Simulates.foreground {ops : AppcoreOps} {base : List OpsCallback} {l : Life}
    (hfull : ops.Full) (h : l.Simulates ops base) : l.foreground.Simulates ops base := by
  obtain ⟨hops, mid, hmid, hfollows⟩ := h
  refine ⟨switch_ops.trans hops, mid ++ (if l.state = .paused then [.resume] else []), ?_, ?_⟩
  · rw [callbacks_foreground hops hfull.resume, ← List.append_assoc, ← hmid]
  · rw [switch_state hops]
    by_cases hpaused : l.state = .paused
    · rw [hpaused] at hfollows
      rw [if_pos hpaused, if_pos hpaused, Machine.run_snoc, hfollows]
      rfl
    · rw [if_neg hpaused, if_neg hpaused, List.append_nil]
      exact hfollows

/-- **Simulation, one step.** -/
theorem simulates_step {ops : AppcoreOps} (hfull : ops.Full) {base : List OpsCallback}
    (l : Life) (x : Event × Answers) (h : l.Simulates ops base) :
    (l.step x).Simulates ops base := by
  have hstep := l.step_spec x
  generalize x.1 = e at hstep
  generalize l.step x = l' at hstep
  cases hstep with
  | reset b => exact h.reset hfull b
  | terminate =>
      obtain ⟨hops, mid, hmid, hfollows⟩ := h
      exact ⟨hops, mid, hmid, hfollows.alive⟩
  | background he hvisible hactive => exact Simulates.background hfull h
  | foreground hvisible hactive => exact Simulates.foreground hfull h
  | windows => exact h

/-- **Simulation of runs**: from the state `created`, what a run invokes obeys the
grammar. -/
theorem middle_run {l : Life} {ops : AppcoreOps} (hstate : l.state = .created)
    (hops : l.ops = some ops) (hfull : ops.Full) (es : List (Event × Answers)) :
    ∃ mid, (Machine.run step l es).callbacks = l.callbacks ++ mid ∧ Middle mid := by
  have hstart : l.Simulates ops l.callbacks := by
    refine ⟨hops, [], (List.append_nil _).symm, ?_⟩
    rw [hstate]
    rfl
  obtain ⟨-, mid, hmid, hfollows⟩ :=
    Machine.run_invariant step (fun l x h => simulates_step hfull l x h) hstart es
  exact ⟨mid, hmid, middle_of_alive hfollows.alive⟩

/-! ### A dying application -/

/-- A switch for another mode invokes no callback and leaves the mode. -/
theorem switch_of_ne {old : AppState} {l : Life} (hne : l.state ≠ old) (new : AppState)
    (fn : AppcoreOps → Ptr) (c : Addr → Ptr → Call) {note : Call}
    (hnote : note.opsCallback = none) :
    (l.switch old new fn c note).state = l.state ∧
      (l.switch old new fn c note).callbacks = l.callbacks := by
  cases hops : l.ops with
  | none => simp only [switch, hops, and_self]
  | some ops =>
      refine ⟨by rw [switch_state hops, if_neg hne], ?_⟩
      rw [callbacks, switch_trace hops, if_neg hne]
      simp [callbacks, hnote]

/-- Nothing but a reset gets a dying application to do anything. -/
theorem dying_step {l : Life} (hdying : l.state = .dying) (x : Event × Answers)
    (hx : ¬ x.1.IsReset) :
    (l.step x).state = .dying ∧ (l.step x).callbacks = l.callbacks := by
  have hne : ∀ s, s ≠ AppState.dying → l.state ≠ s := by
    rintro s hs rfl
    exact hs hdying
  have hstep := l.step_spec x
  generalize x.1 = e at hstep hx
  generalize l.step x = l' at hstep
  cases hstep with
  | reset b => exact absurd ⟨b, rfl⟩ hx
  | terminate => exact ⟨rfl, rfl⟩
  | @background _ wins he hvisible hactive =>
      have hold : ({ l with wins := wins, bActive := false } : Life).state ≠ .running :=
        hne .running (by decide)
      obtain ⟨hstate, hcallbacks⟩ := switch_of_ne hold .paused AppcoreOps.pause Call.pause
        (show Call.sysmanInformBackgrd.opsCallback = none from rfl)
      exact ⟨hstate.trans hdying, hcallbacks⟩
  | @foreground _ _ wins hvisible hactive =>
      have hold : ({ l with wins := wins, bActive := true } : Life).state ≠ .paused :=
        hne .paused (by decide)
      obtain ⟨hstate, hcallbacks⟩ := switch_of_ne hold .running AppcoreOps.resume Call.resume
        (show Call.sysmanInformForegrd.opsCallback = none from rfl)
      exact ⟨hstate.trans hdying, hcallbacks⟩
  | windows => exact ⟨hdying, rfl⟩

/-- Without a reset a dying application stays so, and is silent. -/
theorem dying_run {l : Life} (hdying : l.state = .dying) {es : List (Event × Answers)}
    (hes : ∀ x ∈ es, ¬ x.1.IsReset) :
    (Machine.run step l es).state = .dying ∧
      (Machine.run step l es).callbacks = l.callbacks := by
  refine Machine.AtEach.run_invariant
    (I := fun t : Life => t.state = .dying ∧ t.callbacks = l.callbacks)
    (fun t x ht hx => ?_) ⟨hdying, rfl⟩ (Machine.atEach_of_forall hes)
  obtain ⟨hstate, hcallbacks⟩ := dying_step ht.1 x hx
  exact ⟨hstate, hcallbacks.trans ht.2⟩

end Life

namespace Process

/-- The callbacks a process has invoked. -/
def callbacks (p : Process) : List OpsCallback :=
  p.calls.filterMap Call.opsCallback

/-- The callbacks are part of the life cycle. -/
theorem callbacks_eq (p : Process) : p.callbacks = p.life.callbacks := by
  rw [callbacks, Life.callbacks, life, List.filterMap_filter]
  refine List.filterMap_congr fun c _ => ?_
  cases c <;> rfl

/-- The callbacks of a call that enters the loop. -/
theorem callbacks_appcoreEflMain {m : MainCall} {p : Process} {ops : AppcoreOps}
    (h : Starts m p) (hops : m.ops = some ops) (hfull : ops.Full) :
    ∃ mid, (p.appcoreEflMain m).2.callbacks = p.callbacks ++ (.create :: mid ++ [.terminate]) ∧
      Middle mid := by
  obtain ⟨mid, hmid, hmiddle⟩ :=
    Life.middle_run (l := entryLife ops p) rfl rfl hfull m.events
  refine ⟨mid, ?_, hmiddle⟩
  obtain ⟨fn, hfn⟩ := Option.ne_none_iff_exists'.mp hfull.create
  obtain ⟨fn', hfn'⟩ := Option.ne_none_iff_exists'.mp hfull.terminate
  have hentry : (entryLife ops p).callbacks = p.callbacks ++ [.create] := by
    simp [Life.callbacks, entryLife, createCalls, hfn, Call.opsCallback, callbacks_eq]
  have hloop : (loopLife m ops p).callbacks = p.callbacks ++ [.create] ++ mid := by
    rw [loopLife, hmid, hentry]
  rw [callbacks_eq, (life_appcoreEflMain h hops).2, Life.callbacks, List.filterMap_append]
  change (loopLife m ops p).callbacks ++ _ = _
  rw [hloop]
  simp [terminateCalls, hfn', Call.opsCallback]

/-- The callbacks of a call that fails before `create`: there are none. -/
theorem callbacks_of_not_admits {m : MainCall} {p : Process} (h : ¬ Admits m p) :
    (p.appcoreEflMain m).2.callbacks = p.callbacks := by
  rw [appcoreEflMain_of_not_starts fun hstarts => h hstarts.1, callbacks_eq, Life.callbacks,
    (startUp_of_not_admits h).2.1, callbacks_eq, Life.callbacks]

/-- The callbacks of a call that `create` gives up: there is `create` alone. -/
theorem callbacks_of_createFails {m : MainCall} {p : Process} {ops : AppcoreOps}
    (h : Admits m p) (hcreate : CreateFails m) (hops : m.ops = some ops) (hfull : ops.Full) :
    (p.appcoreEflMain m).2.callbacks = p.callbacks ++ [.create] := by
  obtain ⟨fn, hfn⟩ := Option.ne_none_iff_exists'.mp hfull.create
  rw [appcoreEflMain_of_not_starts fun hstarts => hstarts.2 hcreate, callbacks_eq,
    (startUp_of_createFails h hcreate hops).2]
  simp [Life.callbacks, createCalls, hfn, Call.opsCallback, callbacks_eq]

/-- With a full table `create` gives a call up exactly when it returns -1. -/
theorem createFails_iff {m : MainCall} {ops : AppcoreOps} (hops : m.ops = some ops)
    (hfull : ops.Full) : CreateFails m ↔ m.start.create = -1 := by
  rw [CreateFails, hops, Option.bind_some]
  exact and_iff_right hfull.create

/-- **The grammar of the callbacks of a call**, for any process, any answers of the
outside and any events. A call whose start-up fails before `create` invokes none and returns
-1; one whose `create` returns -1 invokes `create` alone and returns -1; any other invokes
`create`, then what the grammar allows, then `terminate`, and returns 0. -/
theorem callback_grammar (m : MainCall) (p : Process) {ops : AppcoreOps}
    (hops : m.ops = some ops) (hfull : ops.Full) :
    let r := p.appcoreEflMain m
    (¬ Admits m p → r.1 = -1 ∧ r.2.callbacks = p.callbacks) ∧
      (Admits m p → m.start.create = -1 →
        r.1 = -1 ∧ r.2.callbacks = p.callbacks ++ [.create]) ∧
      (Admits m p → m.start.create ≠ -1 →
        r.1 = 0 ∧ ∃ mid, r.2.callbacks = p.callbacks ++ (.create :: mid ++ [.terminate]) ∧
          Middle mid) := by
  have hcreate := createFails_iff hops hfull
  refine ⟨fun hadmits => ⟨?_, callbacks_of_not_admits hadmits⟩,
    fun hadmits hret => ⟨?_, callbacks_of_createFails hadmits (hcreate.mpr hret) hops hfull⟩,
    fun hadmits hret => ?_⟩
  · rw [appcoreEflMain_of_not_starts fun hstarts => hadmits hstarts.1]
  · rw [appcoreEflMain_of_not_starts fun hstarts => hstarts.2 (hcreate.mpr hret)]
  · have hstarts : Starts m p := ⟨hadmits, fun hfails => hret (hcreate.mp hfails)⟩
    exact ⟨(life_appcoreEflMain hstarts hops).1, callbacks_appcoreEflMain hstarts hops hfull⟩

/-- Every callback of the table is set. -/
theorem fullOps_full : fullOps.Full :=
  ⟨by decide, by decide, by decide, by decide, by decide⟩

/-- A call that is launched, covered, uncovered and terminated. -/
def coverAndUncover : MainCall :=
  goodCall fullOps
    [(.show 1 1, goodAnswers), (.reset none, goodAnswers),
     (.visibilityChange 1 true, goodAnswers), (.visibilityChange 1 false, goodAnswers),
     (.terminate, goodAnswers)]

/-- The grammar, for a call that runs to its end, one whose `create` returns -1, and one
whose name is empty. -/
theorem callback_grammar_plain :
    (∃ mid, (plain.appcoreEflMain coverAndUncover).2.callbacks =
        .create :: mid ++ [.terminate] ∧ Middle mid ∧ mid = [.reset, .pause, .resume]) ∧
      (plain.appcoreEflMain { coverAndUncover with start.create := -1 }).2.callbacks =
        [.create] ∧
      (plain.appcoreEflMain { coverAndUncover with name := some "" }).2.callbacks = [] := by
  have hadmits : Admits coverAndUncover plain := (starts_plain _ _).1
  obtain ⟨-, mid, hmid, hmiddle⟩ :=
    (callback_grammar coverAndUncover plain rfl fullOps_full).2.2 hadmits (by decide)
  refine ⟨⟨mid, hmid, hmiddle, ?_⟩, ?_, ?_⟩
  · have hcalls : (plain.appcoreEflMain coverAndUncover).2.callbacks =
        .create :: [.reset, .pause, .resume] ++ [.terminate] := by decide
    have hlist : mid ++ [.terminate] = [.reset, .pause, .resume] ++ [.terminate] :=
      (List.cons.inj (hmid.symm.trans hcalls)).2
    exact List.append_cancel_right hlist
  · have hfailing : Admits { coverAndUncover with start.create := -1 } plain := { hadmits with }
    exact ((callback_grammar _ plain rfl fullOps_full).2.1 hfailing rfl).2
  · exact ((callback_grammar _ plain rfl fullOps_full).1 fun h => h.name_ne_empty rfl).2

/-! ### Dying -/

/-- From the state `s` of a call on, `dying` is final: the state stays `dying` while the
events `post` are handled, and in the rest of the call no reset, pause or resume callback
is invoked. -/
def DyingFinal (m : MainCall) (p s : Process) (post : List (Event × Answers)) : Prop :=
  (∀ k, k <+: post → (Machine.run step s k).priv.state = .dying) ∧
    ∃ cs, (p.appcoreEflMain m).2.callbacks = s.callbacks ++ cs ∧
      ∀ c ∈ cs, c ≠ .reset ∧ c ≠ .pause ∧ c ≠ .resume

/-- **When dying is final.** Once the loop has handled `AE_TERMINATE`, the state stays
`dying` and no reset, pause or resume callback is invoked in the rest of the call exactly
when no `AE_RESET` is handled after it. -/
theorem dying_final_iff {m : MainCall} {p : Process} (h : Starts m p)
    {pre post : List (Event × Answers)} {a : Answers}
    (hevents : m.events = pre ++ (.terminate, a) :: post) :
    DyingFinal m p (Machine.run step (p.startUp m).2 (pre ++ [(.terminate, a)])) post ↔
      ∀ x ∈ post, ¬ x.1.IsReset := by
  obtain ⟨ops, hops⟩ := Option.ne_none_iff_exists'.mp h.1.ops_ne_none
  have hs := life_loop h hops (pre ++ [(.terminate, a)])
  have hloop : loopLife m ops p =
      Machine.run Life.step (Machine.run Life.step (entryLife ops p)
        (pre ++ [(.terminate, a)])) post := by
    rw [loopLife, hevents, ← Machine.run_append, List.append_assoc, List.singleton_append]
  rw [← hs] at hloop
  have hdying : (Machine.run step (p.startUp m).2 (pre ++ [(.terminate, a)])).life.state =
      .dying := by
    rw [hs, Machine.run_snoc]
    rfl
  have hsops : (Machine.run step (p.startUp m).2 (pre ++ [(.terminate, a)])).life.ops =
      some ops := by
    rw [hs, ops_run]
    rfl
  generalize Machine.run step (p.startUp m).2 (pre ++ [(.terminate, a)]) = s at hloop hdying hsops
  have hstate : ∀ k, (Machine.run step s k).priv.state =
      (Machine.run Life.step s.life k).state := by
    intro k
    rw [← life_run, life_state]
  constructor
  · -- the first reset brings the application back
    rintro ⟨hstay, -⟩ x hx ⟨b, hb⟩
    obtain ⟨k, k', rfl⟩ := List.append_of_mem hx
    have hk := hstay (k ++ [x]) ⟨k', by simp⟩
    have hkops : (Machine.run Life.step s.life k).ops = some ops := by rw [ops_run, hsops]
    obtain ⟨e, a'⟩ := x
    obtain rfl : e = .reset b := hb
    rw [hstate, Machine.run_snoc, Life.step, Life.reset_state hkops] at hk
    exact absurd hk (by decide)
  · intro hpost
    refine ⟨fun k hk => ?_, terminateCalls ops |>.filterMap Call.opsCallback, ?_, ?_⟩
    · rw [hstate]
      exact (Life.dying_run hdying fun x hx => hpost x (hk.subset hx)).1
    · rw [callbacks_eq, (life_appcoreEflMain h hops).2, Life.callbacks, List.filterMap_append,
        callbacks_eq, ← (Life.dying_run hdying hpost).2, ← hloop]
      rfl
    · intro c hc
      rw [terminateCalls] at hc
      cases hfn : ops.terminate <;> simp_all [Call.opsCallback]

/-- The condition, for an application that is terminated after its launch. -/
theorem dying_final_iff_plain :
    let m := goodCall fullOps [(.reset none, goodAnswers), (.terminate, goodAnswers),
      (.visibilityChange 1 true, goodAnswers)]
    DyingFinal m plain
        (Machine.run step (plain.startUp m).2
          ([(.reset none, goodAnswers)] ++ [(.terminate, goodAnswers)]))
        [(.visibilityChange 1 true, goodAnswers)] ↔
      ∀ x ∈ [((.visibilityChange 1 true, goodAnswers) : Event × Answers)], ¬ x.1.IsReset :=
  dying_final_iff (starts_plain _ _) rfl

/-- **A dying application comes back**: a reset still in the queue when the application is
terminated runs its callback and leaves the state `running`. -/
theorem not_dying_final_plain :
    let m := goodCall fullOps [(.terminate, goodAnswers), (.reset none, goodAnswers)]
    Starts m plain ∧
      ¬ DyingFinal m plain
        (Machine.run step (plain.startUp m).2 ([] ++ [(.terminate, goodAnswers)]))
        [(.reset none, goodAnswers)] := by
  intro m
  have hstarts : Starts m plain := starts_plain _ _
  refine ⟨hstarts, ?_⟩
  rintro ⟨hstay, -⟩
  have hk := hstay [(.reset none, goodAnswers)] (List.prefix_refl _)
  have hlife := life_loop hstarts rfl
    ([] ++ [(.terminate, goodAnswers)] ++ [(.reset none, goodAnswers)])
  have hrun : (Machine.run Life.step (entryLife fullOps plain)
      ([] ++ [(.terminate, goodAnswers)] ++ [(.reset none, goodAnswers)])).state = .running := by
    decide
  rw [← hlife, Machine.run_append, life_state, hk] at hrun
  exact absurd hrun (by decide)

end Process

end AppCore
