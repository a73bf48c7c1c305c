import AppCore.Session

/-!
# What the Core Module Calls Through

The dispatchers of the core module call `core.ops->cb_app`, and `__do_app` calls
`ui->mfcb`, without looking at the pointers. What keeps this safe is an invariant across
the modules: `core.ops` is set while the vconf keys are followed, and `efl_ops` stands there
only while a call of `appcore_efl_main` is under way. It survives every failure of
`appcore_init` and every order of calls.

## Main results

* `targets_act`: every action of a legal application keeps the invariant `Targets`.
* `targets_live`: **registered sources find live targets**, after any sequence of actions.
-/

set_option autoImplicit false

namespace AppCore

namespace Process

/-- **The targets are there** that registered sources call through, and no call has missed
its target so far. -/
structure Targets (p : Process) : Prop where
  core : p.core.state = 0 ∧ p.core.ops = none ∨
    p.core.state = 1 ∧ ∃ ops, p.core.ops = some ops ∧ ops.cbApp ≠ none
  vconf : p.vconf = if p.core.state = 1 then vconfKeys else ∅
  efl : p.core.ops.bind UiOps.cbApp = some .doApp → p.priv.name ≠ none
  data : p.priv.name ≠ none → p.priv.ops ≠ none ∧ p.priv.mfcb ≠ none
  noFault : .fault ∉ p.calls

variable {p q : Process}

/-- The invariant looks at nothing else. -/
theorem Targets.congr (h : Targets p) (hcore : q.core = p.core) (hvconf : q.vconf = p.vconf)
    (hname : q.priv.name = p.priv.name) (hops : q.priv.ops = p.priv.ops)
    (hmfcb : q.priv.mfcb = p.priv.mfcb) (hcalls : .fault ∉ q.calls) : Targets q := by
  obtain ⟨h₁, h₂, h₃, h₄, -⟩ := h
  rw [← hcore] at h₁ h₂ h₃
  rw [← hvconf] at h₂
  rw [← hname] at h₃ h₄
  rw [← hops, ← hmfcb] at h₄
  exact ⟨h₁, h₂, h₃, h₄, hcalls⟩

/-- An entry other than a fault leaves the targets in place. -/
theorem Targets.call (h : Targets p) {c : Call} (hc : c ≠ .fault) : Targets (p.call c) := by
  refine h.congr rfl rfl rfl rfl rfl fun hmem => ?_
  rcases List.mem_append.mp hmem with hmem | hmem
  · exact h.noFault hmem
  · exact hc (List.mem_singleton.mp hmem).symm

/-! ### Flushing memory -/

/-- A flush through `mfcb` finds it set while a call is under way. -/
theorem Targets.memFlush (h : Targets p) (hname : p.priv.name ≠ none) :
    Targets p.memFlush := by
  rw [Process.memFlush]
  split
  · exact h.call (by simp)
  · rename_i hmfcb
    exact absurd hmfcb (h.data hname).2

/-- `appcore_flush_memory` finds `cb_app`, and through `efl_ops` it finds `mfcb`. -/
theorem Targets.appcoreFlushMemory (h : Targets p) : Targets p.appcoreFlushMemory.2 := by
  have hcall : Targets (p.call .appcoreFlushMemory) := h.call (by simp)
  rw [Process.appcoreFlushMemory]
  dsimp only
  split
  · exact hcall
  · rename_i hstate
    obtain ⟨-, ops, hops, hcb⟩ := hcall.core.resolve_left fun hzero => hstate hzero.1
    rw [hops]
    refine Targets.call ?_ (by simp)
    split
    · exact hcall
    · rename_i hdo
      exact hcall.memFlush (hcall.efl (by rw [hops]; exact hdo))
    · exact hcall.call (by simp)

/-- A flush on low memory finds its target. -/
theorem Targets.lowMemoryPostCb (h : Targets p) : Targets p.lowMemoryPostCb.2 := by
  rw [Process.lowMemoryPostCb]
  split
  · exact h.appcoreFlushMemory
  · exact h.call (by simp)

/-! ### The EFL module -/

/-- `__do_app` keeps the invariant, once there is something to call through. -/
theorem Targets.does {a : Answers} {e : AppEvent} (h : Targets p) (hname : p.priv.name ≠ none)
    (hdoes : Does a p e q) : Targets q := by
  by_cases hflush : e = .memFlush
  · subst hflush
    cases hdoes with
    | memFlush => exact h.memFlush hname
    | move hne => exact absurd rfl hne
  · by_cases hlow : e = .lowmemPost
    · subst hlow
      cases hdoes with
      | lowmemPost => exact h.lowMemoryPostCb
      | move _ hne => exact absurd rfl hne
    · obtain ⟨_, _, _, _, l, rfl, hl⟩ := does_frame hdoes
      refine h.congr rfl rfl rfl rfl rfl fun hmem => ?_
      rcases List.mem_append.mp hmem with hmem | hmem
      · exact h.noFault hmem
      · simpa [Call.IsApp, Call.IsTimer] using hl hflush hlow _ hmem

/-- A live timer finds its target when it expires. -/
theorem Targets.timerExpired (h : Targets p) (t : ℕ) : Targets (p.timerExpired t) := by
  rw [Process.timerExpired]
  split
  · have hflush : Targets (p.memoryFlushCb.call (.ecoreTimerExpired t)) := by
      refine Targets.call ?_ (by simp)
      have hflush := h.appcoreFlushMemory
      exact hflush.congr rfl rfl rfl rfl rfl hflush.noFault
    exact hflush.congr rfl rfl rfl rfl rfl hflush.noFault
  · exact h

/-! ### API calls -/

/-- Only `efl_ops` may put `__do_app` into `core`, and only during a call. -/
theorem Targets.appcoreInit (h : Targets p) (name : Option String) {ops : Option UiOps}
    (a : InitAnswers) (hops : ops.bind UiOps.cbApp = some .doApp → p.priv.name ≠ none) :
    Targets (p.appcoreInit name ops a).2 := by
  rw [appcoreInit_eq]
  by_cases hguard : p.core.state ≠ 0 ∨ ops.bind UiOps.cbApp = none
  · rw [if_pos hguard]
    exact h
  · obtain ⟨hstate, hcb⟩ := not_or.mp hguard
    have hvconf : p.vconf = ∅ := by rw [h.vconf, if_neg (by simp [not_not.mp hstate])]
    rw [if_neg hguard]
    dsimp only
    split_ifs
    · exact h.congr rfl rfl rfl rfl rfl h.noFault
    · exact ⟨.inl ⟨rfl, rfl⟩, by simp [hvconf, Appcore.zero], by simp [Appcore.zero], h.data,
        h.noFault⟩
    · exact ⟨.inl ⟨rfl, rfl⟩, by simp [hvconf, Appcore.zero], by simp [Appcore.zero], h.data,
        h.noFault⟩
    · refine ⟨.inr ⟨rfl, ?_⟩, by simp [hvconf], hops, h.data, h.noFault⟩
      cases ops with
      | none => exact absurd rfl hcb
      | some ops => exact ⟨ops, rfl, hcb⟩

/-- `appcore_exit` takes its registrations away with their target. -/
theorem Targets.appcoreExit (h : Targets p) :
    Targets p.appcoreExit ∧ p.appcoreExit.core.ops = none := by
  rw [appcoreExit_eq]
  by_cases hstate : p.core.state ≠ 0
  · have hone : p.core.state = 1 := (h.core.resolve_left fun hzero => hstate hzero.1).1
    rw [if_pos hstate]
    exact ⟨⟨.inl ⟨rfl, rfl⟩, by simp [h.vconf, hone, Appcore.zero], by simp [Appcore.zero],
      h.data, h.noFault⟩, rfl⟩
  · have hzero := h.core.resolve_right fun hone => hstate (by simp [hone.1])
    rw [if_neg hstate]
    exact ⟨h.congr rfl rfl rfl rfl rfl h.noFault, hzero.2⟩

/-- Legal API calls leave the targets in place. -/
theorem Targets.runApi (h : Targets p) {c : ApiCall} (hc : c.Legal) :
    Targets (p.runApi c) := by
  cases c with
  | init name ops a => exact h.appcoreInit name a fun hdo => absurd hdo hc
  | exit => exact h.appcoreExit.1
  | setEventCallback event cb data =>
      rw [Process.runApi, setEventCallback]
      split
      · exact h
      · exact h
      · exact ⟨h.core, h.vconf, h.efl, h.data, h.noFault⟩
  | setI18n domainname a => exact h.congr rfl rfl rfl rfl rfl h.noFault
  | setSystemResourceReclaiming enable => exact h.congr rfl rfl rfl rfl rfl h.noFault
  | flushMemory => exact h.appcoreFlushMemory
  | rotation c a ρ => exact h.congr rfl rfl rfl rfl rfl h.noFault

/-- A step of the loop keeps the invariant. -/
theorem Targets.step (h : Targets p) (hname : p.priv.name ≠ none) {x : Event × Answers}
    (hx : ∀ c, x.1 = .api c → c.Legal) : Targets (p.step x) := by
  obtain ⟨e, a⟩ := x
  have hstep : Stepped a p e (p.step (e, a)) := stepped_step p (e, a)
  generalize p.step (e, a) = q at hstep
  cases hstep with
  | windows => exact h.congr rfl rfl rfl rfl rfl h.noFault
  | switch _ _ hdoes =>
      refine Targets.does ?_ ?_ hdoes
      · exact h.congr rfl rfl rfl rfl rfl h.noFault
      · exact hname
  | app _ hdoes => exact h.does hname hdoes
  | timer t => exact h.timerExpired t
  | api c => exact h.runApi (hx c rfl)

/-! ### Notifications and requests -/

/-- The unguarded call of `cb_app` finds its target while the core is initialised. -/
theorem Targets.cbApp (h : Targets p) (hstate : p.core.state = 1) (event : AppEvent) (b : Ptr)
    (a : Answers) :
    Targets (p.cbApp event b a) ∧ (p.cbApp event b a).core.state = 1 := by
  obtain ⟨-, ops, hops, hcb⟩ := h.core.resolve_left fun hzero => by simp [hstate] at hzero
  rw [Process.cbApp, hops]
  dsimp only
  split
  · rename_i hnone
    exact absurd hnone hcb
  · rename_i hdo
    have hdoes := does_doApp event b a p
    obtain ⟨_, _, _, _, _, heq, -⟩ := does_frame hdoes
    refine ⟨h.does (h.efl (by rw [hops]; exact hdo)) hdoes, ?_⟩
    rw [heq]
    exact hstate
  · exact ⟨h.call (by simp), hstate⟩

/-- While the core is initialised, an API call other than `appcore_exit` leaves it so. -/
theorem state_runApi {c : ApiCall} (hexit : c ≠ .exit) (hstate : p.core.state = 1) :
    (p.runApi c).core.state = 1 := by
  cases c with
  | init name ops a =>
      rw [runApi, appcoreInit_eq, if_pos (by simp [hstate])]
      exact hstate
  | exit => exact absurd rfl hexit
  | setEventCallback event cb data =>
      rw [runApi, setEventCallback]
      split
      · exact hstate
      · exact hstate
      · exact hstate
  | setI18n domainname a => exact hstate
  | setSystemResourceReclaiming enable => exact hstate
  | flushMemory =>
      obtain ⟨_, -, h⟩ := logs_appcoreFlushMemory p
      rw [runApi, h]
      exact hstate
  | rotation c a ρ => exact hstate

/-- A notification is delivered to an initialised core, and keeps it so. -/
theorem Targets.vconfCb (h : Targets p) (hstate : p.core.state = 1) {n : Notification}
    (hn : ∀ c ∈ n.calls, c.Legal ∧ c ≠ .exit) : Targets (p.vconfCb n) := by
  refine (vconfCb_rule (I := fun q => Targets q ∧ q.core.state = 1) ?_ ?_ ?_ ?_
    ⟨h, hstate⟩).1
  · exact fun fn data q hq => ⟨hq.1.call (by simp), hq.2⟩
  · exact fun c hc q hq => ⟨hq.1.runApi (hn c hc).1, state_runApi (hn c hc).2 hq.2⟩
  · exact fun i q hq => ⟨hq.1.congr rfl rfl rfl rfl rfl hq.1.noFault, hq.2⟩
  · exact fun q hq => hq.1.cbApp hq.2 _ _ _

/-- A request of the AUL daemon is dropped unless the core is initialised. -/
theorem Targets.aulHandler (h : Targets p) (type : AulType) (b : Ptr) (a : Answers) :
    Targets (p.aulHandler type b a) := by
  have hcb {ops : UiOps} (hops : p.core.ops = some ops) (event : AppEvent) (b : Ptr) :
      Targets (p.cbApp event b a) := by
    have hstate := (h.core.resolve_left fun hzero => by simp [hops] at hzero).1
    exact (h.cbApp hstate event b a).1
  cases type with
  | start =>
      rw [Process.aulHandler, appReset]
      split
      · exact h
      · rename_i hops
        split
        · exact h
        · exact hcb hops _ _
  | resume => exact h
  | terminate =>
      rw [Process.aulHandler, appTerminate]
      split
      · exact h
      · rename_i hops
        split
        · exact h
        · exact hcb hops _ _
  | other => exact h

/-! ### The start and the end of a call -/

/-- `core.ops` does not lead to `__do_app`. -/
def Foreign (p : Process) : Prop :=
  p.core.ops.bind UiOps.cbApp ≠ some .doApp

/-- Legal API calls do not lead there. -/
theorem Foreign.runApi (h : p.Foreign) {c : ApiCall} (hc : c.Legal) : (p.runApi c).Foreign := by
  cases c with
  | init name ops a =>
      rw [Process.runApi, appcoreInit_eq]
      dsimp only
      split_ifs
      · exact h
      · exact h
      · simp [Foreign, Appcore.zero]
      · simp [Foreign, Appcore.zero]
      · exact hc
  | exit =>
      rw [Process.runApi, appcoreExit_eq]
      split
      · simp [Foreign, Appcore.zero]
      · exact h
  | setEventCallback event cb data =>
      rw [Process.runApi, setEventCallback]
      split <;> exact h
  | setI18n domainname a => exact h
  | setSystemResourceReclaiming enable => exact h
  | flushMemory =>
      obtain ⟨_, -, heq⟩ := logs_appcoreFlushMemory p
      rw [Process.runApi, heq]
      exact h
  | rotation c a ρ => exact h

/-- `priv` may be zeroed once `efl_ops` is out of `core`. -/
theorem Targets.unsetData (h : Targets p) (hforeign : p.Foreign) : Targets p.unsetData :=
  ⟨h.core, h.vconf, fun hdo => absurd hdo hforeign, fun hne => absurd rfl hne, h.noFault⟩

/-- An empty `core.ops` leads nowhere. -/
theorem foreign_of_ops_none (h : p.core.ops = none) : p.Foreign := by
  simp [Foreign, h]

/-- `__set_data` puts its targets in place. -/
theorem Targets.dataSet (h : Targets p) {m : MainCall} (hm : Valid m) :
    Targets (p.dataSet m) :=
  ⟨h.core, h.vconf, fun _ => hm.1, fun _ => ⟨hm.2.2.1, by simp [Process.dataSet]⟩, h.noFault⟩

/-- The initialisations register sources whose targets are in place. -/
theorem Targets.initCall (h : Targets p) {m : MainCall} (hm : Valid m) :
    Targets (p.initCall m).2 :=
  ((h.dataSet hm).call (by simp)).appcoreInit _ _ fun _ => hm.1

/-- A failing `appcore_init` has not put `efl_ops` into `core`. -/
theorem foreign_initCall (h : p.Foreign) {m : MainCall} (hinit : (p.initCall m).1 = -1) :
    (p.initCall m).2.Foreign := by
  rw [Process.initCall, appcoreInit_eq] at hinit ⊢
  dsimp only at hinit ⊢
  split_ifs at hinit ⊢
  · exact h
  · exact h
  · simp [Foreign, Appcore.zero]
  · simp [Foreign, Appcore.zero]

/-- A `create` with legal API calls leaves the targets in place. -/
theorem Targets.createCall (h : Targets p) {m : MainCall}
    (hm : ∀ c ∈ m.start.createApi, c.Legal) : Targets (p.createCall m) := by
  rw [Process.createCall]
  split
  · exact h
  · split
    · exact h
    · exact foldl_runApi (fun c hc q hq => hq.runApi (hm c hc)) (h.call (by simp))

/-- The start-up keeps the invariant, whichever exit it takes. -/
theorem Targets.startUp (h : Targets p) {m : MainCall}
    (hm : ∀ c ∈ m.start.createApi, c.Legal) : Targets (p.startUp m).2 := by
  by_cases hidle : p.priv.name = none
  · have hforeign : p.Foreign := fun hdo => h.efl hdo hidle
    rw [startUp_eq hidle]
    dsimp only
    split_ifs with hvalid hargs hinit hcreate
    · exact h.unsetData hforeign
    · exact (h.initCall hvalid).unsetData (foreign_initCall hforeign hinit)
    · obtain ⟨hexit, hnone⟩ := ((h.initCall hvalid).createCall hm).appcoreExit
      exact hexit.unsetData (foreign_of_ops_none hnone)
    · refine Targets.call ?_ (by simp)
      have hcreated := (h.initCall hvalid).createCall hm
      exact hcreated.congr rfl rfl rfl rfl rfl hcreated.noFault
    · exact h
  · rw [startUp_of_busy hidle]
    exact h

/-- After `appcore_exit` the callback `terminate` can bring back no more than targets of
its own. -/
theorem Targets.leave (h : Targets p) (a : Rotation.Answers) {cs : List ApiCall}
    (hcs : ∀ c ∈ cs, c.Legal) : Targets (p.leave a cs) := by
  have hexit : Targets (p.exitLoop a) ∧ (p.exitLoop a).Foreign := by
    have hunset : Targets { p with rotation := p.rotation.runApi id .unset a } :=
      h.congr rfl rfl rfl rfl rfl h.noFault
    exact ⟨hunset.appcoreExit.1, foreign_of_ops_none hunset.appcoreExit.2⟩
  have hterm : Targets ((p.exitLoop a).runTerminate cs) ∧
      ((p.exitLoop a).runTerminate cs).Foreign := by
    rw [runTerminate]
    split
    · exact hexit
    · split
      · exact hexit
      · exact foldl_runApi (I := fun q => Targets q ∧ q.Foreign)
          (fun c hc q hq => ⟨hq.1.runApi (hcs c hc), hq.2.runApi (hcs c hc)⟩)
          ⟨hexit.1.call (by simp), hexit.2⟩
  have hdel : Targets ((p.exitLoop a).runTerminate cs).unsetData :=
    hterm.1.unsetData hterm.2
  rw [Process.leave, tearDown_eq]
  refine hdel.congr rfl rfl rfl rfl rfl fun hmem => ?_
  simp only [List.mem_append, List.mem_singleton, reduceCtorEq, or_false] at hmem
  rcases hmem with hmem | hmem
  · exact hdel.noFault hmem
  · exact isTimer_timerDel _ _ hmem

/-! ### Sessions -/

/-- A fresh process has no sources. -/
theorem targets_fresh (env : EnvVar → Option String) (locale : LcCategory → String)
    (rotateLock : Bool) : Targets (.fresh env locale rotateLock) :=
  ⟨.inl ⟨rfl, rfl⟩, rfl, fun h => absurd h (by simp [Process.fresh, Appcore.zero]),
    fun h => absurd rfl h, List.not_mem_nil⟩

/-- A followed key means that the core is initialised. -/
theorem Targets.state_of_mem (h : Targets p) {k : VconfKey} (hk : k ∈ p.vconf) :
    p.core.state = 1 := by
  by_contra hstate
  rw [h.vconf, if_neg hstate] at hk
  exact Finset.notMem_empty k hk

/-- **One action** of a legal application keeps the invariant. -/
theorem targets_act (h : Targets p) {x : Action} (hx : x.Legal) : Targets (p.act x) := by
  obtain ⟨hapi, hexit⟩ := hx
  cases x with
  | enter m => exact h.startUp hapi
  | handle x =>
      rw [act]
      split
      · exact h
      · rename_i hname
        obtain ⟨e, a⟩ := x
        refine h.step hname fun c hc => hapi c ?_
        obtain rfl : e = .api c := hc
        exact List.mem_singleton_self c
  | leave a cs =>
      rw [act]
      split
      · exact h
      · exact h.leave a hapi
  | api c => exact h.runApi (hapi c (List.mem_singleton_self c))
  | vconf n =>
      rw [act]
      split
      · rename_i hfollowed
        cases hname : n.name with
        | none =>
            rw [vconfCb, hname]
            exact h
        | some k =>
            have hk : k ∈ p.vconf := by simpa [hname] using hfollowed
            refine h.vconfCb (h.state_of_mem hk) fun c hc => ⟨hapi c hc, ?_⟩
            rintro rfl
            exact hexit n rfl hc
      · exact h
  | aul type b a =>
      rw [act]
      split
      · exact h.aulHandler type b a
      · exact h

/-- Sessions of a legal application keep the targets in place. -/
theorem targets_run (h : Targets p) {as : List Action} (has : ∀ x ∈ as, x.Legal) :
    Targets (Machine.run act p as) :=
  Machine.AtEach.run_invariant (I := Targets) (G := fun _ x => x.Legal)
    (fun _ _ hq hx => targets_act hq hx) h (Machine.atEach_of_forall has)

/-- **Registered sources find live targets.** After any sequence of actions of a legal
application, with failures at any point: the core is initialised or not; `__vconf_cb`
follows each key of the table exactly while it is; then there is a `cb_app`, and behind
`efl_ops` there are callbacks and `mfcb`; and no call so far went through NULL. -/
theorem targets_live (env : EnvVar → Option String) (locale : LcCategory → String)
    (rotateLock : Bool) {as : List Action} (has : ∀ x ∈ as, x.Legal) :
    let p := Machine.run act (.fresh env locale rotateLock) as
    (p.core.state = 0 ∨ p.core.state = 1) ∧
      (∀ eo ∈ evtops, eo.vkey ∈ p.vconf ↔ p.core.state = 1) ∧
      (p.core.state = 1 → ∃ ops, p.core.ops = some ops ∧ ops.cbApp ≠ none) ∧
      (p.core.state = 1 → p.core.ops = some eflOps →
        p.priv.ops ≠ none ∧ p.priv.mfcb ≠ none) ∧
      .fault ∉ p.calls := by
  intro p
  have h : Targets p := targets_run (targets_fresh env locale rotateLock) has
  refine ⟨h.core.imp And.left And.left, fun eo heo => ⟨h.state_of_mem, fun hstate => ?_⟩,
    fun hstate => ?_, fun _ hops => ?_, h.noFault⟩
  · have hkeys : ∀ eo ∈ evtops, eo.vkey ∈ vconfKeys := by decide
    rw [h.vconf, if_pos hstate]
    exact hkeys eo heo
  · exact (h.core.resolve_left fun hzero => by simp [hstate] at hzero).2
  · exact h.data (h.efl (by rw [hops]; rfl))

/-- A low-memory notification with nothing else to it. -/
def lowMemory : Notification where
  name := some .sysmanLowMemory
  int := 1
  sysmanBatCriticalLow := 1
  i18n := goodInit.i18n
  answers := goodAnswers
  calls := []

/-- Low memory in a call that has been left in the background. -/
def lowMemorySession : List Action :=
  [.enter (goodCall fullOps []), .aul .start none goodAnswers,
   .handle (.visibilityChange 1 true, goodAnswers), .vconf lowMemory]

/-- The notification gets through `efl_ops` to the caches. -/
theorem targets_live_lowMemorySession :
    let p := Machine.run act plain lowMemorySession
    p.core.state = 1 ∧ p.core.ops = some eflOps ∧ .elmCacheAllFlush ∈ p.calls ∧
      (p.core.state = 0 ∨ p.core.state = 1) ∧
      (∀ eo ∈ evtops, eo.vkey ∈ p.vconf ↔ p.core.state = 1) ∧
      (p.core.state = 1 → ∃ ops, p.core.ops = some ops ∧ ops.cbApp ≠ none) ∧
      (p.core.state = 1 → p.core.ops = some eflOps →
        p.priv.ops ≠ none ∧ p.priv.mfcb ≠ none) ∧
      .fault ∉ p.calls :=
  ⟨by decide, by decide, by decide,
    targets_live _ _ _ (by simp [lowMemorySession, Action.Legal, Action.apiCalls, goodCall,
      lowMemory])⟩

end Process

end AppCore
