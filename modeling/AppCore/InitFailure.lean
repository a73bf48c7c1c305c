import AppCore.MainCall

/-!
# Failures of `appcore_init`

`appcore_init` acquires vconf notifications and the AUL handler, and undoes what it did
when a later step fails. The exit `err` undoes more and less than that: it drops all keys
of the table and zeroes all of `core`, with the event callbacks that
`appcore_set_event_callback` had stored there, and it never calls `aul_finalize`, which
`appcore_exit` does, so the AUL handler stays initialised.

## Main results

* `atomicOnFailure_iff`: **when a failing `appcore_init` leaves no trace**.
* `not_atomicOnFailure_argvHandler`: a failure that loses an event callback and leaves the
  AUL handler initialised.
-/

set_option autoImplicit false

namespace AppCore

namespace Process

/-- If `appcore_init` fails, then `core`, the followed vconf keys and the AUL handler are
as before the call. -/
def AtomicOnFailure (name : Option String) (ops : Option UiOps) (a : InitAnswers)
    (p : Process) : Prop :=
  let r := p.appcoreInit name ops a
  r.1 = -1 → r.2.core = p.core ∧ r.2.vconf = p.vconf ∧ r.2.aul = p.aul

/-- `appcore_init` fails before it acquires anything: the core is in use, there is no
callback, or the text domain cannot be set. -/
def FailsEarly (name : Option String) (ops : Option UiOps) (a : InitAnswers)
    (p : Process) : Prop :=
  p.core.state ≠ 0 ∨ ops.bind UiOps.cbApp = none ∨ (p.i18n.setI18n name a.i18n).1 = -1

/-- Nothing is there that the exit `err` would wipe: `core` is all zero, and no key of the
table is followed. -/
def NothingToWipe (p : Process) : Prop :=
  p.core = .zero ∧ Disjoint p.vconf vconfKeys

/-- Before it acquires anything `appcore_init` changes the text domain at most. -/
theorem appcoreInit_of_failsEarly {name : Option String} {ops : Option UiOps}
    {a : InitAnswers} {p : Process} (h : FailsEarly name ops a p) :
    ∃ i, p.appcoreInit name ops a = (-1, { p with i18n := i }) := by
  rw [appcoreInit_eq]
  by_cases hguard : p.core.state ≠ 0 ∨ ops.bind UiOps.cbApp = none
  · rw [if_pos hguard]
    exact ⟨p.i18n, rfl⟩
  · have hi : (p.i18n.setI18n name a.i18n).1 = -1 := by
      rcases h with hstate | hcb | hi
      · exact absurd (Or.inl hstate) hguard
      · exact absurd (Or.inr hcb) hguard
      · exact hi
    rw [if_neg hguard]
    dsimp only
    rw [if_pos hi]
    exact ⟨_, rfl⟩

/-- After that the exit `err` wipes, and what the AUL handler is depends on which call
failed. -/
theorem appcoreInit_of_not_failsEarly {name : Option String} {ops : Option UiOps}
    {a : InitAnswers} {p : Process} (h : ¬ FailsEarly name ops a p)
    (hfail : a.aulLaunchInit < 0 ∨ a.aulLaunchArgvHandler < 0) :
    ∃ i, p.appcoreInit name ops a = (-1, { p with
      i18n := i
      vconf := p.vconf \ vconfKeys
      core := .zero
      aul := if a.aulLaunchInit < 0 then p.aul else true }) := by
  obtain ⟨hstate, hcb, hi⟩ : ¬ p.core.state ≠ 0 ∧ ¬ ops.bind UiOps.cbApp = none ∧
      ¬ (p.i18n.setI18n name a.i18n).1 = -1 := by
    simpa only [FailsEarly, not_or] using h
  rw [appcoreInit_eq, if_neg (not_or.mpr ⟨hstate, hcb⟩)]
  dsimp only
  rw [if_neg hi]
  by_cases hinit : a.aulLaunchInit < 0
  · rw [if_pos hinit, if_pos hinit]
    exact ⟨_, rfl⟩
  · have hargv : a.aulLaunchArgvHandler < 0 := hfail.resolve_left hinit
    rw [if_neg hinit, if_neg hinit, if_pos hargv]
    exact ⟨_, rfl⟩

/-- **When a failing `appcore_init` leaves no trace**: it fails early, or neither AUL call
fails, or there is nothing to wipe and, if it is `aul_launch_argv_handler` that fails, the
AUL handler was initialised before. -/
theorem atomicOnFailure_iff (name : Option String) (ops : Option UiOps) (a : InitAnswers)
    (p : Process) :
    AtomicOnFailure name ops a p ↔
      FailsEarly name ops a p ∨
        (0 ≤ a.aulLaunchInit ∧ 0 ≤ a.aulLaunchArgvHandler) ∨
        (NothingToWipe p ∧ (0 ≤ a.aulLaunchInit → p.aul = true)) := by
  by_cases hearly : FailsEarly name ops a p
  · obtain ⟨i, hi⟩ := appcoreInit_of_failsEarly hearly
    refine iff_of_true (fun _ => ?_) (Or.inl hearly)
    rw [hi]
    exact ⟨rfl, rfl, rfl⟩
  · by_cases hfail : a.aulLaunchInit < 0 ∨ a.aulLaunchArgvHandler < 0
    · obtain ⟨i, hi⟩ := appcoreInit_of_not_failsEarly hearly hfail
      have hno : ¬ (0 ≤ a.aulLaunchInit ∧ 0 ≤ a.aulLaunchArgvHandler) := by omega
      simp only [AtomicOnFailure, hi, hearly, hno, false_or, forall_const]
      have hcore : Appcore.zero = p.core ↔ p.core = .zero := eq_comm
      have haul : (if a.aulLaunchInit < 0 then p.aul else true) = p.aul ↔
          (0 ≤ a.aulLaunchInit → p.aul = true) := by
        by_cases hinit : a.aulLaunchInit < 0
        · rw [if_pos hinit]
          exact iff_of_true rfl fun hok => absurd hinit (not_lt.mpr hok)
        · rw [if_neg hinit]
          exact ⟨fun h _ => h.symm, fun h => (h (not_lt.mp hinit)).symm⟩
      rw [hcore, Finset.sdiff_eq_self_iff_disjoint, haul, NothingToWipe, and_assoc]
    · obtain ⟨hinit, hargv⟩ := not_or.mp hfail
      refine iff_of_true (fun hret => ?_) (Or.inr (Or.inl ⟨by omega, by omega⟩))
      have hsucc : (p.appcoreInit name ops a).1 = 0 := by
        have hnot := hearly
        simp only [FailsEarly, not_or] at hnot
        obtain ⟨hstate, hcb, hi⟩ := hnot
        rw [appcoreInit_eq, if_neg (not_or.mpr ⟨hstate, hcb⟩)]
        dsimp only
        rw [if_neg hi, if_neg hinit, if_neg hargv]
      rw [hsucc] at hret
      exact absurd hret (by decide)

/-- **A failure that leaves traces**: with a callback for low memory stored, a failing
`aul_launch_argv_handler` loses the callback and leaves the AUL handler initialised. -/
theorem not_atomicOnFailure_argvHandler :
    let p := (plain.setEventCallback 1 (some 7) none).2
    let a : InitAnswers := { goodInit with aulLaunchArgvHandler := -1 }
    let r := p.appcoreInit (some "app") (some eflOps) a
    ¬ AtomicOnFailure (some "app") (some eflOps) a p ∧ r.1 = -1 ∧
      p.core.sops .lowmem = ⟨some 7, none⟩ ∧ r.2.core.sops .lowmem = ⟨none, none⟩ ∧
      p.aul = false ∧ r.2.aul = true := by
  intro p a r
  have hearly : ¬ FailsEarly (some "app") (some eflOps) a p := by
    simp only [FailsEarly, not_or]
    exact ⟨by decide, by decide, by decide⟩
  obtain ⟨i, hi⟩ := appcoreInit_of_not_failsEarly hearly (Or.inr (by decide))
  have hr : r = _ := hi
  rw [AtomicOnFailure]
  change ¬ (r.1 = -1 → r.2.core = p.core ∧ r.2.vconf = p.vconf ∧ r.2.aul = p.aul) ∧ _
  rw [hr]
  refine ⟨fun h => ?_, rfl, rfl, rfl, rfl, rfl⟩
  have haul : true = false := (h rfl).2.2
  exact absurd haul (by decide)

end Process

end AppCore
