import AppCore.Appends
import AppCore.Reclaiming
import AppCore.System

/-!
# Flushing Memory in the Background

The library flushes memory of its own accord in two places: when the flush timer expires,
without a look at the state, and when memory is low and the application is paused, whether
or not a call is under way. A timer outlives the step that armed it by far, but never the
pause that it belongs to, so that the application is in the background in both.

## Main results

* `flushes_act`: **when an action flushes memory**, other than by an API call.
* `flushed_in_background`: the application is paused then, in every run of the system.
-/

set_option autoImplicit false

namespace AppCore

/-- The entry is not that of `appcore_flush_memory`. -/
def Call.NoFlush (c : Call) : Prop :=
  c ≠ .appcoreFlushMemory

namespace Process

/-- The actions on which the library may flush memory: the expiry of a live timer, low memory
told to the loop, and a notification of low memory. -/
def Reclaims (p : Process) : Action → Prop
  | .handle (.timer h, _) => h ∈ p.timers
  | .handle (.lowmemPost, _) => True
  | .vconf n => n.name = some .sysmanLowMemory
  | _ => False

variable {p q : Process}

/-- Where no flush is appended memory is not flushed. -/
theorem not_flushes_of_appends (h : Appends Call.NoFlush p q) : ¬ Flushes p q := by
  obtain ⟨l, hl, hq⟩ := h
  exact not_flushes_of_append hq fun hmem => hl _ hmem rfl

/-- An action that does not flush memory appends no flush, whatever else it appends. -/
theorem appends_of_not_flushes {P : Call → Prop} (h : Appends P p q) (hflush : ¬ Flushes p q) :
    Appends Call.NoFlush p q := by
  obtain ⟨l, -, hq⟩ := h
  refine ⟨l, fun c hc heq => hflush ?_, hq⟩
  rw [Flushes, newCalls_of_append hq, ← heq]
  exact hc

/-- An API call other than `appcore_flush_memory` does not flush memory. -/
theorem apiAppends_noFlush {c : ApiCall} (hc : c ≠ .flushMemory) : ApiAppends Call.NoFlush c :=
  fun p => appends_of_not_flushes (outside_runApi c p).appends fun h =>
    hc ((flushes_runApi c p).mp h)

/-- `cb_app` flushes memory on a low-memory event of a paused application only. -/
theorem flushes_cbApp {event : AppEvent} {b : Ptr} {a : Answers}
    (h : Flushes p (p.cbApp event b a)) : event = .lowmemPost ∧ p.priv.state = .paused := by
  rw [cbApp] at h
  split at h
  · exact absurd h (not_flushes_of_append rfl (by simp))
  · split at h
    · exact absurd h (not_flushes_of_append rfl (by simp))
    · exact (flushes_does (does_doApp event b a p)).mp h
    · exact absurd h (not_flushes_of_append rfl (by simp))

/-- A request of the daemon does not flush memory. -/
theorem not_flushes_aulHandler (type : AulType) (b : Ptr) (a : Answers) (p : Process) :
    ¬ Flushes p (p.aulHandler type b a) := by
  have hnone : ¬ Flushes p p := not_flushes_of_calls rfl
  cases type with
  | start =>
      rw [aulHandler, appReset]
      split
      · exact hnone
      · split
        · exact hnone
        · exact fun h => absurd (flushes_cbApp h).1 (by simp)
  | resume => exact hnone
  | terminate =>
      rw [aulHandler, appTerminate]
      split
      · exact hnone
      · split
        · exact hnone
        · exact fun h => absurd (flushes_cbApp h).1 (by simp)
  | other => exact hnone

/-! ### Starts, ends and notifications -/

/-- The start of a call does not flush memory, unless `create` does. -/
theorem not_flushes_startUp {m : MainCall} (hapi : .flushMemory ∉ m.start.createApi)
    (p : Process) : ¬ Flushes p (p.startUp m).2 := by
  have hother : ∀ c ∈ m.start.createApi, ApiAppends Call.NoFlush c :=
    fun c hc => apiAppends_noFlush fun heq => hapi (heq ▸ hc)
  by_cases hgoes : p.priv.name = none ∧ ¬ BeforeElm m
  · obtain ⟨hidle, hargs⟩ := hgoes
    have hstart : Appends Call.NoFlush ((p.dataSet m).call .elmInit) (p.startUp m).2 :=
      appends_startUp hidle hargs (by simp [Call.NoFlush]) (by simp [Call.NoFlush])
        (apiAppends_noFlush (by simp)) (apiAppends_noFlush (by simp)) hother
    refine not_flushes_of_appends (Appends.trans ?_ hstart)
    exact ⟨[.elmInit], by simp [Call.NoFlush], rfl⟩
  · have hsame := startUp_of_beforeElm ((not_and_or.mp hgoes).imp_right not_not.mp)
    exact not_flushes_of_calls hsame.1

/-- The end of a call does not flush memory, unless `terminate` does. -/
theorem not_flushes_leave {cs : List ApiCall} (hapi : .flushMemory ∉ cs) (a : Rotation.Answers)
    (p : Process) : ¬ Flushes p (p.leave a cs) := by
  have hother : ∀ c ∈ cs, ApiAppends Call.NoFlush c :=
    fun c hc => apiAppends_noFlush fun heq => hapi (heq ▸ hc)
  have htimer : ∀ c : Call, c.IsTimer → c.NoFlush := by
    rintro c hc rfl
    exact hc
  obtain ⟨q, hq, hcalls⟩ := appends_leave a cs p (by simp [Call.NoFlush]) htimer
    (apiAppends_noFlush (by simp)) hother
  refine not_flushes_of_appends (hq.trans ?_)
  exact ⟨[.elmShutdown], by simp [Call.NoFlush], hcalls⟩

/-- A notification flushes memory on low memory and behind only, unless the event callback does.
-/
theorem flushes_vconfCb {n : Notification} (hapi : .flushMemory ∉ n.calls)
    (h : Flushes p (p.vconfCb n)) :
    n.name = some .sysmanLowMemory ∧ p.priv.state = .paused := by
  by_contra hnot
  refine not_flushes_of_appends (appends_vconfCb (by simp [Call.NoFlush])
    (fun c hc => apiAppends_noFlush fun heq => hapi (heq ▸ hc)) ?_) h
  intro hname q hpriv
  refine appends_of_not_flushes (appends_cbApp .lowmemPost none n.answers q) fun hflush => ?_
  have hpaused := (flushes_cbApp hflush).2
  rw [hpriv] at hpaused
  exact hnot ⟨hname, hpaused⟩

/-- **When an action flushes memory**, other than by an API call. -/
theorem flushes_act (hdisc : Disciplined p) {x : Action} (hapi : .flushMemory ∉ x.apiCalls)
    (h : Flushes p (p.act x)) : p.Reclaims x ∧ p.priv.state = .paused := by
  have hnone : ¬ Flushes p p := not_flushes_of_calls rfl
  cases x with
  | enter m => exact absurd h (not_flushes_startUp hapi p)
  | handle x =>
      rw [act] at h
      split at h
      · exact absurd h hnone
      · obtain ⟨e, a⟩ := x
        rcases (flushes_iff p (e, a)).mp h with htrigger | heq
        · cases e with
          | timer t =>
              have hlive : t ∈ p.timers := htrigger
              refine ⟨hlive, hdisc.paused fun hmf => ?_⟩
              rw [hdisc.timers, hmf] at hlive
              exact absurd hlive List.not_mem_nil
          | lowmemPost => exact ⟨trivial, htrigger⟩
          | _ => exact htrigger.elim
        · have heq : e = .api .flushMemory := heq
          subst heq
          exact absurd (List.mem_singleton.mpr rfl) hapi
  | leave a cs =>
      rw [act] at h
      split at h
      · exact absurd h hnone
      · exact absurd h (not_flushes_leave hapi a p)
  | api c =>
      have hc : c ≠ .flushMemory := fun heq => hapi (heq ▸ List.mem_singleton.mpr rfl)
      exact absurd h (not_flushes_of_appends (apiAppends_noFlush hc p))
  | vconf n =>
      rw [act] at h
      split at h
      · exact flushes_vconfCb hapi h
      · exact absurd h hnone
  | aul type b a =>
      rw [act] at h
      split at h
      · exact absurd h (not_flushes_aulHandler type b a p)
      · exact absurd h hnone

end Process

namespace System

variable {w : ℕ}

/-- **Memory is flushed in the background only.** After any run of the system, let an action
come in which the application does not itself call `appcore_flush_memory`. If memory is
flushed then, a timer has expired or memory is low, and the application is paused. -/
theorem flushed_in_background (env : EnvVar → Option String) (locale : LcCategory → String)
    (rotateLock : Bool) (pid : ℤ) (is : List (Input w)) (x : Process.Action)
    (a : ResumeAnswers) (hapi : ∀ y ∈ (Input.action x a : Input w).actions,
      .flushMemory ∉ y.apiCalls) :
    let s := Machine.run step (init (.fresh env locale rotateLock) pid) is
    Process.Flushes s.process (s.act x a).process →
      s.process.Reclaims x ∧ s.process.priv.state = .paused := by
  intro s hflush
  have hdisc : Process.Disciplined s.process := by
    refine run_process (I := Process.Disciplined) (G := fun _ => True) ?_ ?_
      (Process.disciplined_fresh env locale rotateLock) fun _ _ _ _ => trivial
    · exact fun p x _ hp => Process.disciplined_act hp x
    · exact fun p r hp => ⟨hp.timers, hp.paused, hp.idle, hp.trace, hp.deletes⟩
  by_cases hresume : ∃ b c, x = .aul .resume b c
  · obtain ⟨b, c, rfl⟩ := hresume
    refine absurd hflush (Process.not_flushes_of_appends ?_)
    rw [act]
    split
    · obtain ⟨as, has, hprocess⟩ := process_aulResume a s
      rw [hprocess]
      refine Machine.AtEach.run_invariant (I := Process.Appends Call.NoFlush s.process)
        (G := fun _ y => y ∈ a.calls.map Process.Action.api) ?_ (.refl _)
        (Machine.atEach_of_forall has)
      rintro p y hp hy
      obtain ⟨d, hd, rfl⟩ := List.mem_map.mp hy
      have hne : d ≠ .flushMemory := by
        rintro rfl
        exact hapi _ (List.mem_map.mpr ⟨_, hd, rfl⟩) (List.mem_singleton.mpr rfl)
      exact hp.trans (Process.apiAppends_noFlush hne p)
    · exact .refl _
  · have hx : ∀ b c, x ≠ .aul .resume b c := fun b c h => hresume ⟨b, c, h⟩
    rw [process_act hx] at hflush
    exact Process.flushes_act hdisc (hapi x (by simp [Input.actions_of_ne hx])) hflush

open Process (plain goodCall goodAnswers fullOps)

/-- A call whose window is covered after the launch. -/
def covered : List (Input 64) :=
  [.action (.enter (goodCall fullOps [])) noDisplay,
   .action (.aul .start none goodAnswers) noDisplay,
   .action (.handle (.visibilityChange 1 true, goodAnswers)) noDisplay]

/-- The flush timer expires in the background. -/
theorem flushed_in_background_covered :
    let s := Machine.run step (init plain 77) covered
    let x : Process.Action := .handle (.timer 1, goodAnswers)
    Process.Flushes s.process (s.act x noDisplay).process ∧
      s.process.Reclaims x ∧ s.process.priv.state = .paused := by
  intro s x
  have hflush : Process.Flushes s.process (s.act x noDisplay).process := by
    rw [Process.Flushes]
    decide
  refine ⟨hflush, ?_⟩
  exact flushed_in_background (fun _ => none) (fun _ => "C") false 77 covered x noDisplay
    (by simp [x, Input.actions, Process.Action.apiCalls]) hflush

end System

end AppCore
