import AppCore.Delivery
import AppCore.FailedStart
import AppCore.RotationConnections
import AppCore.RotationMirror
import AppCore.RotationReports
import AppCore.System

/-!
# Runs of the System

What holds of sessions, and what holds of the rotation module, holds in the system, where
both run together. The rotation module is driven from many places there: by the API calls
that the application makes in its callbacks and between them, by
`appcore_unset_rotation_cb` in `__after_loop`, and by the sensor, the lock setting and the X
server. Together these drive it like a list of inputs of the module alone.

## Main results

* `invariants_system`: the invariants of sessions in every run of the system.
* `sources_system`: **registered sources find live targets** and the flush timer keeps its
  discipline in every run of the system.
* `Process.rotation_act`: what the inputs of an action keep, the action keeps.
* `System.rotation_run`: **the rotation module in a run of the system is a run of the
  module.**
* `mirrors_system`: the state of the module mirrors the sensor in every run of the system.
* `connections_system`: **the open connections are accounted for** in every run of the
  system.
* `quiet_after_leave`: **when a call has ended, nothing invokes the rotation callback any
  more**, until the next is set.
-/

set_option autoImplicit false

namespace AppCore

/-! ### The rotation module -/

/-- The input of the rotation module that an API call is. -/
def ApiCall.rotationInput : ApiCall → Option Rotation.Input
  | .rotation c a ρ => some ⟨.api c, a, ρ⟩
  | _ => none

namespace Process

/-- The inputs of the rotation module that an action can lead to: of its API calls, and of
`__after_loop`. -/
def Action.rotationInputs (x : Action) : List Rotation.Input :=
  let calls := x.apiCalls.filterMap ApiCall.rotationInput
  match x with
  | .leave a _ => ⟨.api .unset, a, .done⟩ :: calls
  | _ => calls

/-- `appcore_init` leaves the rotation module alone. -/
theorem rotation_appcoreInit (name : Option String) (ops : Option UiOps) (a : InitAnswers)
    (p : Process) : (p.appcoreInit name ops a).2.rotation = p.rotation := by
  rw [appcoreInit_eq]
  dsimp only
  split_ifs <;> rfl

/-- `appcore_exit` leaves the rotation module alone. -/
theorem rotation_appcoreExit (p : Process) : p.appcoreExit.rotation = p.rotation := by
  rw [appcoreExit_eq]
  split <;> rfl

/-- An API call is a step of the rotation module, or none of its business. -/
theorem rotation_runApi (c : ApiCall) (p : Process) :
    (p.runApi c).rotation = c.rotationInput.elim p.rotation p.rotation.step := by
  cases c with
  | init name ops a => exact rotation_appcoreInit name ops a p
  | exit => exact rotation_appcoreExit p
  | setEventCallback event cb data =>
      rw [runApi, setEventCallback]
      split <;> rfl
  | setI18n domainname a => rfl
  | setSystemResourceReclaiming enable => rfl
  | flushMemory =>
      obtain ⟨_, -, hq⟩ := logs_appcoreFlushMemory p
      rw [runApi, hq]
      rfl
  | rotation c a ρ => rfl

section Rule

variable {I : Rotation → Prop} {p : Process}

/-- What the inputs of the rotation module keep, the API calls keep. -/
theorem rotation_runApi_rule {c : ApiCall} (h : I p.rotation)
    (hI : ∀ y ∈ c.rotationInput, ∀ r, I r → I (r.step y)) : I (p.runApi c).rotation := by
  rw [rotation_runApi]
  cases hc : c.rotationInput with
  | none => exact h
  | some y => exact hI y hc _ h

/-- What each rotation call of a callback keeps, the callback keeps. -/
theorem rotation_foldl_runApi {cs : List ApiCall} (h : I p.rotation)
    (hI : ∀ y ∈ cs.filterMap ApiCall.rotationInput, ∀ r, I r → I (r.step y)) :
    I (cs.foldl (fun p c => p.runApi c) p).rotation :=
  foldl_runApi (I := fun q => I q.rotation)
    (fun c hc _ hq => rotation_runApi_rule hq fun y hy =>
      hI y (List.mem_filterMap.mpr ⟨c, hc, hy⟩)) h

/-- What each rotation call of `create` keeps, `create` keeps. -/
theorem rotation_createCall {m : MainCall} (h : I p.rotation)
    (hI : ∀ y ∈ m.start.createApi.filterMap ApiCall.rotationInput, ∀ r, I r → I (r.step y)) :
    I (p.createCall m).rotation := by
  rw [createCall]
  split
  · exact h
  · split
    · exact h
    · exact rotation_foldl_runApi (p := p.call _) h hI

/-- What each rotation call of `create` keeps, the start of a call keeps. -/
theorem rotation_startUp {m : MainCall} (h : I p.rotation)
    (hI : ∀ y ∈ m.start.createApi.filterMap ApiCall.rotationInput, ∀ r, I r → I (r.step y)) :
    I (p.startUp m).2.rotation := by
  by_cases hidle : p.priv.name = none
  · have hinit : I (p.initCall m).2.rotation := by
      rw [initCall, rotation_appcoreInit]
      exact h
    have hcreate := rotation_createCall hinit hI
    rw [startUp_eq hidle]
    dsimp only
    split_ifs
    · exact h
    · exact hinit
    · change I ((p.initCall m).2.createCall m).appcoreExit.rotation
      rw [rotation_appcoreExit]
      exact hcreate
    · exact hcreate
    · exact h
  · rw [startUp_of_busy hidle]
    exact h

/-- The end of a call unsets the callback first. -/
theorem rotation_leave {a : Rotation.Answers} {cs : List ApiCall}
    (hunset : I (p.rotation.step ⟨.api .unset, a, .done⟩))
    (hI : ∀ y ∈ cs.filterMap ApiCall.rotationInput, ∀ r, I r → I (r.step y)) :
    I (p.leave a cs).rotation := by
  have hexit : I (p.exitLoop a).rotation := by
    rw [exitLoop, rotation_appcoreExit]
    exact hunset
  have hterm : I ((p.exitLoop a).runTerminate cs).rotation := by
    rw [runTerminate]
    split
    · exact hexit
    · split
      · exact hexit
      · exact rotation_foldl_runApi (p := (p.exitLoop a).call _) hexit hI
  rw [leave, tearDown_eq]
  exact hterm

/-- **Rule for actions.** What the inputs of the rotation module keep that an action can
lead to, the action keeps. -/
theorem rotation_act {x : Action} (h : I p.rotation)
    (hI : ∀ y ∈ x.rotationInputs, ∀ r, I r → I (r.step y)) : I (p.act x).rotation := by
  cases x with
  | enter m => exact rotation_startUp h hI
  | handle x =>
      rw [act]
      split
      · exact h
      · obtain ⟨e, a⟩ := x
        by_cases hapi : ∃ c, e = .api c
        · obtain ⟨c, rfl⟩ := hapi
          exact rotation_runApi_rule h fun y hy =>
            hI y (List.mem_filterMap.mpr ⟨c, List.mem_singleton.mpr rfl, hy⟩)
        · have hstep := platform_step p (x := (e, a)) fun c hc => hapi ⟨c, hc⟩
          rw [show (p.step (e, a)).rotation = p.rotation from congrArg Platform.rotation hstep]
          exact h
  | leave a cs =>
      rw [act]
      split
      · exact h
      · exact rotation_leave (hI _ List.mem_cons_self _ h)
          fun y hy => hI y (List.mem_cons_of_mem _ hy)
  | api c =>
      exact rotation_runApi_rule h fun y hy =>
        hI y (List.mem_filterMap.mpr ⟨c, List.mem_singleton.mpr rfl, hy⟩)
  | vconf n =>
      rw [act]
      split
      · refine vconfCb_rule (I := fun q => I q.rotation) ?_ ?_ ?_ ?_ h
        · exact fun fn data q hq => hq
        · exact fun c hc q hq => rotation_runApi_rule hq fun y hy =>
            hI y (List.mem_filterMap.mpr ⟨c, hc, hy⟩)
        · exact fun i q hq => hq
        · intro q hq
          rw [show (q.cbApp .lowmemPost none n.answers).rotation = q.rotation from
            congrArg Platform.rotation (platform_cbApp .lowmemPost none n.answers q)]
          exact hq
      · exact h
  | aul type b a =>
      rw [act]
      split
      · rw [show (p.aulHandler type b a).rotation = p.rotation from
          congrArg Platform.rotation (platform_aulHandler type b a p)]
        exact h
      · exact h

end Rule

end Process

namespace System

variable {w : ℕ}

/-- The inputs of the rotation module that an input of the system can lead to. -/
def Input.rotationInputs : Input w → List Rotation.Input
  | .rotation x => [x]
  | i => i.actions.flatMap Process.Action.rotationInputs

/-- The rotation inputs of an action are inputs of the system. -/
theorem mem_rotationInputs {i : Input w} {x : Process.Action} (hx : x ∈ i.actions)
    {y : Rotation.Input} (hy : y ∈ x.rotationInputs) : y ∈ i.rotationInputs := by
  cases i with
  | rotation z => simp [Input.actions] at hx
  | _ => exact List.mem_flatMap.mpr ⟨x, hx, hy⟩

/-- **Rule for runs.** What the inputs of the rotation module keep, a run keeps. -/
theorem rotation_run_rule {I : Rotation → Prop} {s : System} (h : I s.process.rotation)
    {is : List (Input w)}
    (hI : ∀ i ∈ is, ∀ y ∈ i.rotationInputs, ∀ r, I r → I (r.step y)) :
    I (Machine.run step s is).process.rotation := by
  refine Machine.AtEach.run_invariant (I := fun s : System => I s.process.rotation)
    (G := fun _ (i : Input w) => ∀ y ∈ i.rotationInputs, ∀ r, I r → I (r.step y)) ?_ h
    (Machine.atEach_of_forall hI)
  intro s i hs hi
  rcases process_step s i with ⟨x, rfl, hprocess⟩ | ⟨as, has, hprocess⟩
  · rw [hprocess]
    exact hi x (List.mem_singleton.mpr rfl) _ hs
  · rw [hprocess]
    refine Machine.AtEach.run_invariant (I := fun p : Process => I p.rotation)
      (G := fun _ x => x ∈ i.actions) ?_ hs (Machine.atEach_of_forall has)
    exact fun p x hp hx => Process.rotation_act hp fun y hy => hi y (mem_rotationInputs hx hy)

/-- **The rotation module in a run of the system is a run of the module**, over inputs that
those of the system lead to. -/
theorem rotation_run (s : System) (is : List (Input w)) :
    ∃ xs, (∀ y ∈ xs, ∃ i ∈ is, y ∈ i.rotationInputs) ∧
      (Machine.run step s is).process.rotation =
        Machine.run Rotation.step s.process.rotation xs := by
  refine rotation_run_rule
    (I := fun r => ∃ xs : List Rotation.Input, (∀ y ∈ xs, ∃ i ∈ is, y ∈ i.rotationInputs) ∧
      r = Machine.run Rotation.step s.process.rotation xs) ⟨[], by simp, rfl⟩ ?_
  rintro i hi y hy r ⟨xs, hxs, rfl⟩
  refine ⟨xs ++ [y], fun z hz => ?_, (Machine.run_snoc _ _ _ _).symm⟩
  rcases List.mem_append.mp hz with hz | hz
  · exact hxs z hz
  · rw [List.mem_singleton.mp hz]
    exact ⟨i, hi, hy⟩

/-- The invariants of sessions, in every run of the system with a legal application. -/
theorem invariants_system (env : EnvVar → Option String) (locale : LcCategory → String)
    (rotateLock : Bool) (pid : ℤ) {is : List (Input w)}
    (his : ∀ i ∈ is, ∀ x ∈ i.actions, x.Legal) :
    let p := (Machine.run step (init (.fresh env locale rotateLock) pid) is).process
    Process.Targets p ∧ Process.Disciplined p ∧ Process.Tidy p := by
  refine run_process (I := fun p => Process.Targets p ∧ Process.Disciplined p ∧ Process.Tidy p)
    ?_ ?_ ⟨Process.targets_fresh env locale rotateLock,
      Process.disciplined_fresh env locale rotateLock, ⟨rfl, fun _ => rfl⟩⟩ his
  · rintro p x hx ⟨htargets, hdisc, htidy⟩
    exact ⟨Process.targets_act htargets hx, Process.disciplined_act hdisc x,
      Process.tidy_act htargets htidy x⟩
  · rintro p r ⟨htargets, hdisc, htidy⟩
    exact ⟨htargets.congr rfl rfl rfl rfl rfl htargets.noFault,
      ⟨hdisc.timers, hdisc.paused, hdisc.idle, hdisc.trace, hdisc.deletes⟩,
      ⟨htidy.handlers, htidy.idle⟩⟩

/-- **Registered sources find live targets** in every run of the system: whatever the
sensor, the windows, the daemon and the callback of `appcore_set_open_cb` do in between,
with a legal application no call is made through what is no longer there, at most one flush
timer is live, of which the module has the handle, and the rotation callback is never invoked
through a NULL pointer. -/
theorem sources_system (env : EnvVar → Option String) (locale : LcCategory → String)
    (rotateLock : Bool) (pid : ℤ) {is : List (Input w)}
    (his : ∀ i ∈ is, ∀ x ∈ i.actions, x.Legal) :
    let p := (Machine.run step (init (.fresh env locale rotateLock) pid) is).process
    Process.Targets p ∧ Process.Disciplined p ∧ .fault ∉ p.rotation.log := by
  obtain ⟨htargets, hdisciplined, -⟩ := invariants_system env locale rotateLock pid his
  refine ⟨htargets, hdisciplined, ?_⟩
  obtain ⟨xs, -, hrun⟩ := rotation_run (init (.fresh env locale rotateLock) pid) is
  rw [hrun]
  exact Rotation.kept_noFault.run List.not_mem_nil rotateLock xs

/-- **The rotation state mirrors the sensor** in every run of the system. The rotation module
goes through a run of the module alone, over inputs that those of the system lead to; and as
long as the clean-up of the application's resume calls does not fail, its state mirrors the
sensor. -/
theorem mirrors_system (env : EnvVar → Option String) (locale : LcCategory → String)
    (rotateLock : Bool) (pid : ℤ) (is : List (Input w)) :
    let r := (Machine.run step (init (.fresh env locale rotateLock) pid) is).process.rotation
    (∃ xs, (∀ y ∈ xs, ∃ i ∈ is, y ∈ i.rotationInputs) ∧
        r = Machine.run Rotation.step (Rotation.init rotateLock) xs) ∧
      ((∀ i ∈ is, ∀ y ∈ i.rotationInputs, y.CleansUp) → r.Mirrors) := by
  intro r
  obtain ⟨xs, hxs, hrun⟩ := rotation_run (init (.fresh env locale rotateLock) pid) is
  have hrun : r = Machine.run Rotation.step (Rotation.init rotateLock) xs := hrun
  refine ⟨⟨xs, hxs, hrun⟩, fun his => ?_⟩
  have hclean : ∀ y ∈ xs, y.CleansUp := by
    intro y hy
    obtain ⟨i, hi, hy⟩ := hxs y hy
    exact his i hi y hy
  rw [hrun]
  exact (Rotation.attached_run_of_cleansUp rotateLock hclean).mirrors
    (Rotation.wellFormed_run rotateLock xs)
    (Rotation.kept_noFault.run List.not_mem_nil rotateLock xs)

/-- In every run of the system the rotation module is well formed, with a sound account of its
connections. -/
theorem rotation_sound (env : EnvVar → Option String) (locale : LcCategory → String)
    (rotateLock : Bool) (pid : ℤ) (is : List (Input w)) :
    let r := (Machine.run step (init (.fresh env locale rotateLock) pid) is).process.rotation
    r.WellFormed ∧ r.account.Sound := by
  intro r
  obtain ⟨xs, -, hrun⟩ := rotation_run (init (.fresh env locale rotateLock) pid) is
  rw [show r = _ from hrun]
  exact ⟨Rotation.wellFormed_run rotateLock xs, Rotation.sound_run rotateLock xs⟩

/-- **The open connections are accounted for** in every run of the system: each is the one of
the rotation callback or was lost, by a disconnect that failed or by an unset call that gave
up at the stop. None is counted twice, the sensor of each is started exactly as the account
says, and no sensor is started without a connection. -/
theorem connections_system (env : EnvVar → Option String) (locale : LcCategory → String)
    (rotateLock : Bool) (pid : ℤ) (is : List (Input w)) :
    let r := (Machine.run step (init (.fresh env locale rotateLock) pid) is).process.rotation
    r.account.opened.Perm (r.rot.owned.toList ++ Rotation.lost r.log) ∧
      (∀ h, r.connected h = true ↔ h ∈ r.account.opened.map Prod.fst) ∧
      (∀ h, r.started h = true → r.connected h = true) := by
  intro r
  have hsound : r.account.Sound := (rotation_sound env locale rotateLock pid is).2
  exact ⟨hsound.perm, fun h => hsound.connected_iff, hsound.running⟩

end System

/-! ### After the end of a call -/

namespace Rotation

/-- The input sets a callback. -/
def Input.Sets (x : Input) : Prop :=
  ∃ cb data, x.event = .api (.set cb data)

/-- There is no callback, and none has been invoked since `l` was what was reported. -/
structure Hushed (l : List AppcoreRm) (s : Rotation) : Prop where
  wellFormed : s.WellFormed
  callback : s.rot.callback = none
  reports : reports s.log = l

/-- Where no callback is set nothing is followed. -/
theorem Hushed.forgotten {l : List AppcoreRm} {s : Rotation} (h : Hushed l s) :
    s.registration.Forgotten :=
  h.wellFormed.coherent.forgotten h.callback

/-- A call that sets no callback does not bring one back. -/
theorem callback_of_returns {a : Answers} {rotateLock : Bool} {v w : View} {c : Api} {r : ℤ}
    (h : Returns a rotateLock v c r w) (hc : ∀ cb data, c ≠ .set cb data)
    (hnone : v.callback = none) : w.callback = none := by
  cases h with
  | setRefused => exact absurd rfl (hc _ _)
  | setFailed => exact absurd rfl (hc _ _)
  | set => exact absurd rfl (hc _ _)
  | resume hsome => exact absurd hnone hsome
  | unset => rfl
  | _ => exact hnone

/-- Calls of the sensor framework report nothing. -/
theorem reports_frame {s t : Rotation} (h : Frame s t) : reports t.log = reports s.log :=
  (Quiet.frame h).reports

/-- **Without a callback** nothing but setting one gets the module to report a mode. -/
theorem Hushed.step {l : List AppcoreRm} {s : Rotation} (h : Hushed l s) {x : Input}
    (hx : ¬ x.Sets) : Hushed l (s.step x) := by
  have hwf := wellFormed_step s x h.wellFormed
  have ho := step_outcome x h.wellFormed
  have hnone : ∀ {f}, s.rot.callback = some f → False := by
    intro f hf
    rw [h.callback] at hf
    cases hf
  obtain ⟨e, a, ρ⟩ := x
  suffices hrest : (s.step ⟨e, a, ρ⟩).rot.callback = none ∧
      AppCore.Rotation.reports (s.step ⟨e, a, ρ⟩).log = l from ⟨hwf, hrest.1, hrest.2⟩
  generalize s.step ⟨e, a, ρ⟩ = t at ho
  cases ho with
  | @api c t hapi =>
      cases hapi with
      | @call _ r t hframe hreturns =>
          have hc : ∀ cb data, c ≠ .set cb data := fun cb data hc => hx ⟨cb, data, by rw [hc]⟩
          refine ⟨callback_of_returns hreturns hc h.callback, ?_⟩
          have hquiet := quiet_record t (c := c.returned r) (by cases c <;> rfl)
          rw [hquiet.reports, reports_frame hframe, h.reports]
      | @resumeTold t m hframe hview =>
          refine ⟨(congrArg View.callback hview).trans h.callback, ?_⟩
          rw [(quiet_record _ rfl).reports, (quiet_record _ rfl).reports, reports_frame hframe,
            h.reports]
      | resumeDeliver _ _ hsome _ => exact (hnone hsome).elim
  | sensorIgnored _ => exact ⟨h.callback, h.reports⟩
  | sensorLocked _ => exact ⟨h.callback, (quiet_record s rfl).reports.trans h.reports⟩
  | sensor hlive _ _ => exact absurd (h.forgotten.silent _) hlive
  | lockUnfollowed _ => exact ⟨h.callback, h.reports⟩
  | lockQuiet hlock => exact absurd h.forgotten.lock hlock
  | unlock hlock _ => exact absurd h.forgotten.lock hlock
  | propertyIgnored _ => exact ⟨h.callback, h.reports⟩
  | propertyTold _ _ => exact ⟨h.callback, h.reports⟩
  | propertyDeliver _ hsome _ _ => exact (hnone hsome).elim

/-- Unsetting the callback forgets it, unless that fails to unregister an active one. -/
theorem callback_unsetRotationCb {s : Rotation} {a : Answers}
    (h : s.rot.cbSet = false ∨ 0 ≤ a.sfUnregisterEvent) :
    (s.unsetRotationCb a).2.rot.callback = none := by
  rw [unsetRotationCb]
  split
  · assumption
  · dsimp only
    split
    · rename_i hset
      have hset : s.rot.cbSet = true := hset
      have hok : ¬ a.sfUnregisterEvent < 0 := by
        rcases h with h | h
        · rw [hset] at h
          cases h
        · omega
      rw [if_neg hok]
      exact (forgets_unsetStop a _).1
    · exact (forgets_unsetStop a _).1

/-- An unset call silences the module, unless the event stays registered. -/
theorem hushed_unset {s : Rotation} {a : Answers} (hwf : s.WellFormed)
    (h : s.rot.cbSet = false ∨ 0 ≤ a.sfUnregisterEvent) :
    Hushed (reports s.log) (s.step ⟨.api .unset, a, .done⟩) where
  wellFormed := wellFormed_step s _ hwf
  callback := callback_unsetRotationCb h
  reports := ((quiet_record _ rfl).reports).trans (reports_frame (frame_unsetRotationCb a s))

end Rotation

/-- The end of a call silences the rotation module, unless the event stays registered or
`terminate` sets a callback. -/
theorem Process.hushed_leave {p : Process} {a : Rotation.Answers} {cs : List ApiCall}
    (hwf : p.rotation.WellFormed) (hunset : p.rotation.rot.cbSet = false ∨ 0 ≤ a.sfUnregisterEvent)
    (hcs : ∀ y ∈ cs.filterMap ApiCall.rotationInput, ¬ y.Sets) :
    Rotation.Hushed (Rotation.reports p.rotation.log) (p.leave a cs).rotation :=
  rotation_leave (Rotation.hushed_unset hwf hunset) fun y hy _ hr => hr.step (hcs y hy)

namespace System

variable {w : ℕ}

/-- **When a call has ended, nothing invokes the rotation callback any more.** Let the
process be in a call after any run of the system, and let the call end. Unless the callback
is active and the sensor framework fails to unregister it, then from there on, whatever
happens, no mode is reported to the application until it sets a rotation callback again. -/
theorem quiet_after_leave (env : EnvVar → Option String) (locale : LcCategory → String)
    (rotateLock : Bool) (pid : ℤ) (before after : List (Input w)) (a : Rotation.Answers)
    (cs : List ApiCall) (b : ResumeAnswers) :
    let s := Machine.run step (init (.fresh env locale rotateLock) pid) before
    s.process.priv.name ≠ none →
      s.process.rotation.rot.cbSet = false ∨ 0 ≤ a.sfUnregisterEvent →
      (∀ y ∈ cs.filterMap ApiCall.rotationInput, ¬ y.Sets) →
      (∀ i ∈ after, ∀ y ∈ i.rotationInputs, ¬ y.Sets) →
      let t := Machine.run step s (.action (.leave a cs) b :: after)
      t.process.rotation.rot.callback = none ∧
        Rotation.reports t.process.rotation.log = Rotation.reports s.process.rotation.log := by
  intro s hname hunset hcs hafter t
  have hwf : s.process.rotation.WellFormed := (rotation_sound env locale rotateLock pid before).1
  have hleave : Rotation.Hushed (Rotation.reports s.process.rotation.log)
      (s.act (.leave a cs) b).process.rotation := by
    have hact : (s.act (.leave a cs) b).process = s.process.leave a cs := if_neg hname
    rw [hact]
    exact Process.hushed_leave hwf hunset hcs
  have ht : Rotation.Hushed _ t.process.rotation :=
    rotation_run_rule hleave fun i hi y hy r hr => hr.step (hafter i hi y hy)
  exact ⟨ht.callback, ht.reports⟩

open Process (plain goodCall fullOps)

/-- A call that sets a rotation callback, and a rotation that is reported to it. -/
def rotated : List (Input 64) :=
  [.action (.enter (goodCall fullOps [])) noDisplay,
   .action (.api (.rotation (.set (some 1) (some 10)) Rotation.granted .done)) noDisplay,
   .rotation ⟨.sensor 0 true .event90, Rotation.granted, .done⟩]

/-- The sources, in this run. -/
theorem sources_system_rotated :
    let p := (Machine.run step (init plain 77) rotated).process
    Process.Targets p ∧ Process.Disciplined p ∧ .fault ∉ p.rotation.log := by
  refine sources_system (fun _ => none) (fun _ => "C") false 77 ?_
  simp [rotated, Input.actions, Process.Action.Legal, Process.Action.apiCalls, ApiCall.Legal,
    goodCall]

/-- The mirror, in this run. -/
theorem mirrors_system_rotated :
    (Machine.run step (init plain 77) rotated).process.rotation.Mirrors := by
  refine (mirrors_system (fun _ => none) (fun _ => "C") false 77 rotated).2 fun i hi y hy => ?_
  have hy : y = ⟨.api (.set (some 1) (some 10)), Rotation.granted, .done⟩ ∨
      y = ⟨.sensor 0 true .event90, Rotation.granted, .done⟩ := by
    simp only [rotated, List.mem_cons, List.not_mem_nil, or_false] at hi
    obtain rfl | rfl | rfl := hi
    · simp [Input.rotationInputs, Input.actions, Process.Action.rotationInputs,
        Process.Action.apiCalls, goodCall] at hy
    · exact .inl (List.mem_singleton.mp hy)
    · exact .inr (List.mem_singleton.mp hy)
  rcases hy with rfl | rfl <;>
    simp [Rotation.Input.CleansUp, Rotation.Api.CleansUp, Rotation.Reaction.Each]

/-- A rotation that comes after a call. -/
def rotatedLate : List (Input 64) :=
  [.rotation ⟨.sensor 0 true .event180, Rotation.granted, .done⟩]

/-- A rotation after the end of the call is not reported. -/
theorem quiet_after_leave_rotated :
    let s := Machine.run step (init plain 77) rotated
    let t := Machine.run step s (.action (.leave Rotation.granted []) noDisplay :: rotatedLate)
    Rotation.reports s.process.rotation.log = [.landscapeNormal] ∧
      t.process.rotation.rot.callback = none ∧
      Rotation.reports t.process.rotation.log = Rotation.reports s.process.rotation.log := by
  refine ⟨rfl, ?_⟩
  have hafter : ∀ i ∈ rotatedLate, ∀ y ∈ i.rotationInputs, ¬ y.Sets := by
    simp [rotatedLate, Input.rotationInputs, Rotation.Input.Sets]
  exact quiet_after_leave (fun _ => none) (fun _ => "C") false 77 rotated rotatedLate
    Rotation.granted [] noDisplay (Option.some_ne_none "app") (.inr le_rfl) (by simp) hafter

end System

end AppCore
