import AppCore.EflSpec
import AppCore.Lib.Trace
import AppCore.MainCall

/-!
# Reclaiming Resources

`appcore_set_system_resource_reclaiming` writes a flag that `__do_app` reads in one place,
when a pause arms the flush timer. A timer that is armed flushes memory whatever the flag
says by then, and a low-memory notification does not look at the flag at all.

## Main results

* `flushes_iff`: **when a step flushes memory**.
* `silent_iff`: when disabling keeps the library from flushing memory by itself.
* `not_silent_disabledTooLate`: a timer that fires after reclaiming was disabled.
-/

set_option autoImplicit false

namespace AppCore

namespace Process

variable {p q : Process}

/-- What a call of `appcore_set_system_resource_reclaiming` passes. -/
def setting (x : Event × Answers) : Option Bool :=
  match x.1 with
  | .api (.setSystemResourceReclaiming enable) => some enable
  | _ => none

/-- The events on which the library flushes memory: the expiry of a live timer, and low
memory in the background. -/
def Triggers (p : Process) : Event → Prop
  | .timer h => h ∈ p.timers
  | .lowmemPost => p.priv.state = .paused
  | _ => False

/-! ### When a step flushes memory -/

/-- The step calls `appcore_flush_memory`. -/
def Flushes (p q : Process) : Prop :=
  .appcoreFlushMemory ∈ newCalls p q

/-- `appcore_flush_memory` flushes memory. -/
theorem flushes_appcoreFlushMemory (p : Process) : Flushes p p.appcoreFlushMemory.2 := by
  obtain ⟨l, -, hq⟩ := logs_call_appcoreFlushMemory p
  have hcalls : p.appcoreFlushMemory.2.calls = p.calls ++ (.appcoreFlushMemory :: l) := by
    rw [hq]
    exact List.append_assoc _ _ _
  rw [Flushes, newCalls_of_append hcalls]
  exact List.mem_cons_self

/-- Where no flush is appended memory is not flushed. -/
theorem not_flushes_of_append {l : List Call} (hq : q.calls = p.calls ++ l)
    (hl : .appcoreFlushMemory ∉ l) : ¬ Flushes p q := by
  rwa [Flushes, newCalls_of_append hq]

/-- Where nothing is appended memory is not flushed. -/
theorem not_flushes_of_calls (h : q.calls = p.calls) : ¬ Flushes p q :=
  not_flushes_of_append (l := []) (by rw [h, List.append_nil]) List.not_mem_nil

/-- `__do_app` itself flushes memory only on low memory in the background. -/
theorem flushes_does {a : Answers} {e : AppEvent} (h : Does a p e q) :
    Flushes p q ↔ e = .lowmemPost ∧ p.priv.state = .paused := by
  by_cases hflush : e = .memFlush
  · subst hflush
    have hnot : ¬ Flushes p p.memFlush := by
      rw [memFlush]
      split
      · exact not_flushes_of_append rfl (by simp)
      · exact not_flushes_of_append rfl (by simp)
    cases h with
    | memFlush => exact iff_of_false hnot (by simp)
    | move hne => exact absurd rfl hne
  · by_cases hlow : e = .lowmemPost
    · subst hlow
      cases h with
      | lowmemPost =>
          rw [lowMemoryPostCb]
          split
          · rename_i hpaused
            exact iff_of_true (flushes_appcoreFlushMemory p) ⟨rfl, hpaused⟩
          · rename_i hpaused
            exact iff_of_false (not_flushes_of_append rfl (by simp)) fun h => hpaused h.2
      | move _ hne => exact absurd rfl hne
    · obtain ⟨_, _, _, _, l, rfl, hl⟩ := does_frame h
      refine iff_of_false (not_flushes_of_append rfl fun hmem => ?_) fun h => hlow h.1
      simpa [Call.IsApp, Call.IsTimer] using hl hflush hlow _ hmem

/-- Of the API calls only `appcore_flush_memory` flushes memory. -/
theorem flushes_runApi (c : ApiCall) (p : Process) :
    Flushes p (p.runApi c) ↔ c = .flushMemory := by
  cases c with
  | init name ops a =>
      refine iff_of_false (not_flushes_of_calls ?_) (by simp)
      rw [runApi, appcoreInit_eq]
      dsimp only
      split_ifs <;> rfl
  | exit =>
      refine iff_of_false (not_flushes_of_calls ?_) (by simp)
      rw [runApi, appcoreExit_eq]
      split <;> rfl
  | setEventCallback event cb data =>
      refine iff_of_false (not_flushes_of_calls ?_) (by simp)
      rw [runApi, setEventCallback]
      split <;> rfl
  | setI18n domainname a => exact iff_of_false (not_flushes_of_calls rfl) (by simp)
  | setSystemResourceReclaiming enable =>
      exact iff_of_false (not_flushes_of_calls rfl) (by simp)
  | flushMemory => exact iff_of_true (flushes_appcoreFlushMemory p) rfl
  | rotation c a ρ => exact iff_of_false (not_flushes_of_calls rfl) (by simp)

/-- **When a step flushes memory**: when a trigger meets it, or the application asks for
it. -/
theorem flushes_iff (p : Process) (x : Event × Answers) :
    Flushes p (p.step x) ↔ Triggers p x.1 ∨ x.1 = .api .flushMemory := by
  obtain ⟨e, a⟩ := x
  have hstep : Stepped a p e (p.step (e, a)) := stepped_step p (e, a)
  generalize p.step (e, a) = q at hstep
  cases hstep with
  | windows happ htimer hapi =>
      refine iff_of_false (not_flushes_of_calls rfl) ?_
      rintro (htrigger | heq)
      · cases e <;> simp_all [Triggers, Event.appEvent]
      · exact hapi _ heq
  | switch hswitch hev hdoes =>
      have hnot : ¬ Flushes p q := fun hflush => by
        have hlow := ((flushes_does hdoes).mp hflush).1
        rcases hev with rfl | rfl <;> simp at hlow
      refine iff_of_false hnot ?_
      cases e <;> simp_all [Triggers, Event.IsSwitch]
  | app happ hdoes =>
      rw [flushes_does hdoes]
      cases e <;> simp only [Event.appEvent, Option.some.injEq, reduceCtorEq] at happ <;>
        subst happ <;> simp [Triggers]
  | timer t =>
      by_cases hlive : t ∈ p.timers
      · obtain ⟨l, -, hl, heq⟩ := timerExpired_of_mem hlive
        have hflush := flushes_appcoreFlushMemory p
        rw [Flushes, newCalls_of_append hl] at hflush
        rw [heq, Flushes, newCalls_of_append rfl]
        exact iff_of_true (List.mem_append_left _ hflush) (.inl hlive)
      · rw [timerExpired_of_notMem hlive]
        exact iff_of_false (not_flushes_of_calls rfl) (by simpa [Triggers] using hlive)
  | api c =>
      rw [flushes_runApi]
      simp [Triggers]

/-! ### Runs of the loop -/

/-- The flag is what the last call passed. -/
theorem resourceReclaiming_step (p : Process) (x : Event × Answers) :
    (p.step x).resourceReclaiming = (setting x).getD p.resourceReclaiming := by
  obtain ⟨e, a⟩ := x
  by_cases hapi : ∃ c, e = .api c
  · obtain ⟨c, rfl⟩ := hapi
    cases c with
    | init name ops a =>
        simp only [step, runApi, setting, appcoreInit_eq]
        split_ifs <;> rfl
    | exit =>
        simp only [step, runApi, setting, appcoreExit_eq]
        split <;> rfl
    | setEventCallback event cb data =>
        simp only [step, runApi, setting, setEventCallback]
        split <;> rfl
    | setI18n domainname a => rfl
    | setSystemResourceReclaiming enable => rfl
    | flushMemory =>
        obtain ⟨_, -, h⟩ := logs_appcoreFlushMemory p
        simp only [step, runApi, setting, h]
        rfl
    | rotation c a ρ => rfl
  · have hne : ∀ c, (e, a).1 ≠ .api c := fun c hc => hapi ⟨c, hc⟩
    obtain ⟨_, _, _, _, _, _, _, h⟩ := step_frame hne p
    have hsetting : setting (e, a) = none := by
      cases e <;> simp_all [setting]
    rw [h, hsetting]
    rfl

/-- The flag is what the last call in the loop has passed, or else what the loop has found. -/
theorem resourceReclaiming_run (p : Process) (es : List (Event × Answers)) :
    (Machine.run step p es).resourceReclaiming =
      Trace.latest setting p.resourceReclaiming es := by
  induction es generalizing p with
  | nil => rfl
  | cons x es ih => rw [Machine.run_cons, ih, resourceReclaiming_step, Trace.latest_cons]

/-- **Disabling keeps the library silent**: at each event before which the last call passed
FALSE, the library does not call `appcore_flush_memory` unless the event is the call by
the application. Without a call in the loop the flag counts as the loop finds it. -/
def Silent (p : Process) (es : List (Event × Answers)) : Prop :=
  ∀ pre x post, es = pre ++ x :: post →
    Trace.latest setting p.resourceReclaiming pre = false → x.1 ≠ .api .flushMemory →
    ¬ Flushes (Machine.run step p pre) (Machine.run step p (pre ++ [x]))

/-- At no such event a live timer expires, or memory is low while the application is
paused. -/
def NoTrigger (p : Process) (es : List (Event × Answers)) : Prop :=
  ∀ pre x post, es = pre ++ x :: post →
    Trace.latest setting p.resourceReclaiming pre = false →
    ¬ Triggers (Machine.run step p pre) x.1

/-- **When disabling keeps the library silent**, in runs of the loop from any state. -/
theorem silent_iff (p : Process) (es : List (Event × Answers)) :
    Silent p es ↔ NoTrigger p es := by
  simp only [Silent, NoTrigger, Machine.run_snoc, flushes_iff]
  refine forall_congr' fun pre => forall_congr' fun x => forall_congr' fun post =>
    imp_congr_right fun _ => imp_congr_right fun _ => ?_
  constructor
  · intro h htrigger
    refine h (fun heq => ?_) (.inl htrigger)
    rw [heq] at htrigger
    exact htrigger
  · rintro h hne (htrigger | heq)
    · exact h htrigger
    · exact hne heq

/-- An application goes to the background and disables reclaiming too late. -/
def disabledTooLate : List (Event × Answers) :=
  [(.reset none, goodAnswers), (.visibilityChange 1 true, goodAnswers),
   (.api (.setSystemResourceReclaiming false), goodAnswers), (.timer 1, goodAnswers)]

/-- The timer that the pause armed flushes memory all the same. -/
theorem not_silent_disabledTooLate :
    ¬ Silent (plain.startUp (goodCall fullOps [])).2 disabledTooLate := by
  intro h
  refine h (disabledTooLate.take 3) (.timer 1, goodAnswers) [] rfl rfl (by simp) ?_
  rw [Flushes]
  decide

end Process

end AppCore
