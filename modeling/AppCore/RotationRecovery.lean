import AppCore.RotationMirror

/-!
# Pausing and Resuming Through Failures

A pause call drops the registration with the sensor and stops it, a resume call registers
and starts it again; either gives up where a call of the sensor framework fails, and the
flags `cb_set` and `sf_started` say how far it came. The next call goes on from there. To
say that it does so properly, `Sensor` gives the sensor framework a state of its own, which
the calls in the trace drive: it says which calls are apt in a state.

## Main results

* `pause_off`, `resume_on`: what a call leaves that returns 0.
* `proper_runApi`: a call makes apt calls of the sensor framework only, and leaves the
  callback, its data and its handle.
* `recovers_run`: **pausing and resuming recovers** from failures at any point.
-/

set_option autoImplicit false

namespace AppCore

namespace Rotation

/-! ### The sensor framework -/

/-- What the sensor framework holds: the registrations of `__changed_cb` and the started
sensors. -/
structure Sensor where
  registered : ℤ → Option Ptr
  started : ℤ → Bool

namespace Sensor

/-- A connection with nothing registered and not started. -/
def drop (handle : ℤ) (S : Sensor) : Sensor where
  registered := Function.update S.registered handle none
  started := Function.update S.started handle false

/-- What an entry of the trace does to it; a failed call does nothing. -/
def step (S : Sensor) : Call → Sensor
  | .sfConnect handle => if handle < 0 then S else S.drop handle
  | .sfRegisterEvent handle data r =>
      if r < 0 then S
      else { S with registered := Function.update S.registered handle (some data) }
  | .sfUnregisterEvent handle r =>
      if r < 0 then S else { S with registered := Function.update S.registered handle none }
  | .sfStart handle r =>
      if r < 0 then S else { S with started := Function.update S.started handle true }
  | .sfStop handle r =>
      if r < 0 then S else { S with started := Function.update S.started handle false }
  | .sfDisconnect handle r => if r < 0 then S else S.drop handle
  | _ => S

/-- A call is apt if it does not register what is registered or start what is started, and
does not unregister or stop what is not. -/
def Apt (S : Sensor) : Call → Prop
  | .sfRegisterEvent handle _ _ => S.registered handle = none
  | .sfUnregisterEvent handle _ => S.registered handle ≠ none
  | .sfStart handle _ => S.started handle = false
  | .sfStop handle _ => S.started handle = true
  | _ => True

end Sensor

/-- What the module knows the sensor framework to hold. -/
def sensor (s : Rotation) : Sensor :=
  ⟨s.registered, s.started⟩

/-- From `s` to `t` the callback, its data and its handle stay, and all calls of the sensor
framework are apt; the trace tells what it holds. -/
structure Proper (s t : Rotation) : Prop where
  callback : t.rot.callback = s.rot.callback
  cbdata : t.rot.cbdata = s.rot.cbdata
  handle : t.rot.handle = s.rot.handle
  log : ∃ cs, t.log = s.log ++ cs ∧ Machine.AtEach Sensor.step Sensor.Apt s.sensor cs ∧
    Machine.run Sensor.step s.sensor cs = t.sensor

/-! ### Proper calls -/

/-- A module that stands still makes no call. -/
theorem Proper.refl (s : Rotation) : Proper s s :=
  ⟨rfl, rfl, rfl, [], by simp, trivial, rfl⟩

/-- One part after the other. -/
theorem Proper.trans {s t u : Rotation} (h : Proper s t) (k : Proper t u) : Proper s u := by
  obtain ⟨cs, hlog, hapt, hrun⟩ := h.log
  obtain ⟨ds, hlog', hapt', hrun'⟩ := k.log
  refine ⟨k.callback.trans h.callback, k.cbdata.trans h.cbdata, k.handle.trans h.handle,
    cs ++ ds, ?_, ?_, ?_⟩
  · rw [hlog', hlog, List.append_assoc]
  · exact Machine.atEach_append.mpr ⟨hapt, hrun ▸ hapt'⟩
  · rw [Machine.run_append, hrun, hrun']

/-- A change that the sensor framework has no part in. -/
theorem proper_of_eq {s t : Rotation} (hcb : t.rot.callback = s.rot.callback)
    (hdata : t.rot.cbdata = s.rot.cbdata) (hhandle : t.rot.handle = s.rot.handle)
    (hlog : t.log = s.log) (hsensor : t.sensor = s.sensor) : Proper s t :=
  ⟨hcb, hdata, hhandle, [], by simp [hlog], trivial, hsensor.symm⟩

/-- Writing `cb_set` calls nobody. -/
theorem Proper.withCbSet {s t : Rotation} (h : Proper s t) (b : Bool) :
    Proper s { t with rot.cbSet := b } :=
  h.trans (proper_of_eq rfl rfl rfl rfl rfl)

/-- Writing `sf_started` calls nobody. -/
theorem Proper.withSfStarted {s t : Rotation} (h : Proper s t) (b : Bool) :
    Proper s { t with rot.sfStarted := b } :=
  h.trans (proper_of_eq rfl rfl rfl rfl rfl)

/-- One entry. -/
theorem proper_of_log {s t : Rotation} {c : Call} (hrot : t.rot = s.rot)
    (hlog : t.log = s.log ++ [c]) (hapt : s.sensor.Apt c) (hsensor : s.sensor.step c = t.sensor) :
    Proper s t :=
  ⟨by rw [hrot], by rw [hrot], by rw [hrot], [c], hlog, ⟨hapt, trivial⟩, hsensor⟩

/-- An entry that the sensor framework has no part in. -/
theorem proper_record {c : Call} (hc : ¬ c.IsSf) (s : Rotation) : Proper s (s.record c) := by
  refine proper_of_log rfl rfl ?_ ?_
  · cases c <;> first | trivial | exact absurd trivial hc
  · cases c <;> first | rfl | exact absurd trivial hc

section SensorCalls

variable {s : Rotation} {handle : ℤ} (a : Answers)

/-- It is apt to register what is not registered. -/
theorem proper_sfRegisterEvent (data : Ptr) (h : s.registered handle = none) :
    Proper s (s.sfRegisterEvent handle data a) := by
  refine proper_of_log (rot_sfRegisterEvent ..) (log_sfRegisterEvent ..) h ?_
  rw [Sensor.step, sfRegisterEvent]
  split <;> rfl

/-- It is apt to unregister what is registered. -/
theorem proper_sfUnregisterEvent (h : s.registered handle ≠ none) :
    Proper s (s.sfUnregisterEvent handle a) := by
  refine proper_of_log (rot_sfUnregisterEvent ..) (log_sfUnregisterEvent ..) h ?_
  rw [Sensor.step, sfUnregisterEvent]
  split <;> rfl

/-- It is apt to start what is not started. -/
theorem proper_sfStart (h : s.started handle = false) : Proper s (s.sfStart handle a) := by
  refine proper_of_log (rot_sfStart ..) (log_sfStart ..) h ?_
  rw [Sensor.step, sfStart]
  split <;> rfl

/-- It is apt to stop what is started. -/
theorem proper_sfStop (h : s.started handle = true) : Proper s (s.sfStop handle a) := by
  refine proper_of_log (rot_sfStop ..) (log_sfStop ..) h ?_
  rw [Sensor.step, sfStop]
  split <;> rfl

end SensorCalls

/-! ### Pausing -/

/-- The last part of a pause call stops the sensor only if `sf_started` says that it is started.
-/
theorem proper_pauseStop (a : Answers) {s : Rotation}
    (h : s.rot.sfStarted = true → s.started s.rot.handle = true) :
    Proper s (pauseStop a s).2 := by
  rw [pauseStop]
  split
  next hstarted =>
    have hstop := proper_sfStop a (h hstarted)
    dsimp only
    split
    next => exact hstop
    next => exact hstop.withSfStarted false
  next => exact .refl s

/-- A pause call makes apt calls: the flags say what the sensor framework holds. -/
theorem proper_pauseRotationCb (a : Answers) {s : Rotation} {cleans : Prop}
    (h : s.registration.Coherent) (hattached : s.Attached cleans) :
    Proper s (s.pauseRotationCb a).2 := by
  rw [pauseRotationCb]
  split
  next => exact .refl s
  next hcb =>
    have hdel : Proper s s.delRotlock := proper_of_eq rfl rfl rfl rfl rfl
    have hstarted : s.rot.sfStarted = true → s.started s.rot.handle = true :=
      (h.started_eq hcb).trans
    dsimp only
    split
    next hset =>
      have hregistered : s.delRotlock.registered s.rot.handle ≠ none :=
        (hattached.linked hcb).registered hset
      have hunregister := hdel.trans (proper_sfUnregisterEvent a hregistered)
      split
      next => exact hunregister
      next =>
        refine (hunregister.withCbSet false).trans (proper_pauseStop a ?_)
        rw [sfUnregisterEvent]
        split <;> exact hstarted
    next => exact hdel.trans (proper_pauseStop a hstarted)

/-- What the sensor and the lock are like for a callback that is paused. -/
structure Off (s : Rotation) : Prop where
  unregistered : s.registered s.rot.handle = none
  stopped : s.started s.rot.handle = false
  ignored : s.lockRegistered = none
  cbSet : s.rot.cbSet = false
  sfStarted : s.rot.sfStarted = false

/-- What the last part of a pause call leaves when it succeeds. -/
theorem flags_pauseStop {a : Answers} {s : Rotation} (h : (pauseStop a s).1 = 0) :
    (pauseStop a s).2.rot.sfStarted = false ∧
      (pauseStop a s).2.rot.cbSet = s.rot.cbSet ∧
      (pauseStop a s).2.lockRegistered = s.lockRegistered := by
  rw [pauseStop] at h ⊢
  split at h
  next hstarted =>
    rw [if_pos hstarted]
    dsimp only at h ⊢
    split at h
    next => exact absurd h (by simp)
    next hok =>
      rw [if_neg hok]
      refine ⟨rfl, by simp, ?_⟩
      rw [sfStop]
      split <;> rfl
  next hstopped =>
    rw [if_neg hstopped]
    exact ⟨Bool.eq_false_of_not_eq_true hstopped, rfl, rfl⟩

/-- What a pause call that succeeds leaves. -/
theorem flags_pauseRotationCb {a : Answers} {s : Rotation} (hcb : s.rot.callback ≠ none)
    (h : (s.pauseRotationCb a).1 = 0) :
    (s.pauseRotationCb a).2.rot.sfStarted = false ∧
      (s.pauseRotationCb a).2.rot.cbSet = false ∧
      (s.pauseRotationCb a).2.lockRegistered = none := by
  rw [pauseRotationCb, if_neg hcb] at h ⊢
  dsimp only at h ⊢
  split at h
  next hset =>
    rw [if_pos hset]
    split at h
    next => exact absurd h (by simp)
    next hok =>
      rw [if_neg hok]
      obtain ⟨hstarted, hcbSet, hlock⟩ := flags_pauseStop h
      exact ⟨hstarted, hcbSet, hlock.trans (sfUnregisterEvent_lockRegistered ..)⟩
  next hunset =>
    rw [if_neg hunset]
    obtain ⟨hstarted, hcbSet, hlock⟩ := flags_pauseStop h
    exact ⟨hstarted, hcbSet.trans (Bool.eq_false_of_not_eq_true hunset), hlock⟩

/-- **A pause call that returns 0** leaves all of it off. -/
theorem pause_off {a : Answers} {s : Rotation} (hcb : s.rot.callback ≠ none)
    (hcoherent : s.registration.Coherent) (hattached : s.Attached True)
    (h : (s.pauseRotationCb a).1 = 0) : Off (s.pauseRotationCb a).2 := by
  obtain ⟨hstarted, hset, hlock⟩ := flags_pauseRotationCb hcb h
  have hproper := proper_pauseRotationCb a hcoherent hattached
  have hcoherent' := coherent_pauseRotationCb a hcoherent
  have hattached' := attached_pauseRotationCb a hattached
  have hcb' : (s.pauseRotationCb a).2.rot.callback ≠ none := by
    rw [hproper.callback]
    exact hcb
  exact ⟨(hattached'.linked hcb').unregistered trivial hset,
    (hcoherent'.started_eq hcb').trans hstarted, hlock, hset, hstarted⟩

/-! ### Resuming -/

/-- The query of a resume call changes nothing of the sensor. -/
theorem proper_resumeRead (a : Answers) (s : Rotation) : Proper s (resumeRead id a s).2 := by
  have hfollow : Proper s (s.addRotlock s.rot.cbdata a) := proper_of_eq rfl rfl rfl rfl rfl
  cases hq : a.sfCheckRotation with
  | none =>
      rw [resumeRead_of_none id hq]
      exact hfollow
  | some e =>
      have hread := hfollow.trans
        (proper_record (c := .reading .resume (getMode e)) (by simp [Call.IsSf]) _)
      rw [resumeRead_of_some id hq, resumeDeliver]
      dsimp only
      split
      next =>
        rw [deliver, invoke]
        split
        next f _ =>
          have hcall := hread.trans (proper_record
            (c := .callback f (getMode e) s.rot.cbdata) (by simp [Call.IsSf]) _)
          exact hcall.trans (proper_of_eq rfl rfl rfl rfl rfl)
        next =>
          have hcall := hread.trans (proper_record (c := .fault) (by simp [Call.IsSf]) _)
          exact hcall.trans (proper_of_eq rfl rfl rfl rfl rfl)
      next => exact hread

/-- The last part of a resume call starts the sensor only if it is stopped, and cleans up a
registration of its own only. -/
theorem proper_resumeStart (a : Answers) {s : Rotation}
    (hregistered : s.registered s.rot.handle ≠ none)
    (hstopped : s.rot.sfStarted = false → s.started s.rot.handle = false) :
    Proper s (resumeStart id a s).2 := by
  rw [resumeStart]
  split
  next h =>
    have hstart := proper_sfStart a (hstopped h)
    dsimp only
    split
    next hfail =>
      -- what was registered is still registered where the call cleans up
      have hstays : (s.sfStart s.rot.handle a).registered
          (s.sfStart s.rot.handle a).rot.handle ≠ none := by
        rw [rot_sfStart, sfStart, if_pos hfail]
        exact hregistered
      exact (hstart.trans (proper_sfUnregisterEvent a hstays)).withCbSet false
    next => exact (hstart.withSfStarted true).trans (proper_resumeRead a _)
  next => exact proper_resumeRead a s

/-- A resume call makes apt calls, if the callback makes none. -/
theorem proper_resumeRotationCb (a : Answers) {s : Rotation}
    (h : s.registration.Coherent) (hattached : s.Attached True) :
    Proper s (s.resumeRotationCb id a).2 := by
  rw [resumeRotationCb]
  split
  next => exact .refl s
  next hcb =>
    have hlinked := hattached.linked hcb
    have hstopped : s.rot.sfStarted = false → s.started s.rot.handle = false :=
      (h.started_eq hcb).trans
    split
    next hset =>
      have hregister : Proper s (s.sfRegisterEvent s.rot.handle s.rot.cbdata a) :=
        proper_sfRegisterEvent a s.rot.cbdata (hlinked.unregistered trivial hset)
      dsimp only
      split
      next => exact hregister
      next hok =>
        refine (hregister.withCbSet true).trans (proper_resumeStart a ?_ ?_)
        · rw [sfRegisterEvent, if_neg hok]
          simp [record]
        · rw [sfRegisterEvent, if_neg hok]
          exact hstopped
    next hset =>
      rw [Bool.not_eq_false] at hset
      exact proper_resumeStart a (hlinked.registered hset) hstopped

/-- What the sensor and the lock are like for a callback that is not paused. -/
structure On (s : Rotation) : Prop where
  registered : s.registered s.rot.handle = some s.rot.cbdata
  started : s.started s.rot.handle = true
  followed : s.lockRegistered = some s.rot.cbdata
  cbSet : s.rot.cbSet = true
  sfStarted : s.rot.sfStarted = true

/-- **A resume call that returns 0** leaves all of it on. -/
theorem resume_on {a : Answers} {s : Rotation} (hcb : s.rot.callback ≠ none)
    (hcoherent : s.registration.Coherent) (hattached : s.Attached False)
    (h : (s.resumeRotationCb id a).1 = 0) : On (s.resumeRotationCb id a).2 := by
  have hcoherent' : (s.resumeRotationCb id a).2.registration.Coherent :=
    coherent_resumeRotationCb (fun _ ht => ht) a hcoherent
  have hattached' : (s.resumeRotationCb id a).2.Attached False :=
    attached_resumeRotationCb (fun _ ht => ht) a False.elim hattached
  have hview : (s.resumeRotationCb id a).2.view =
      View.follow { s.view with cbSet := true } a s.rotateLock := by
    have hresumes := resumes_resumeRotationCb id a s
    generalize s.resumeRotationCb id a = rt at h hresumes
    cases hresumes with
    | @call r t hframe hreturns =>
        obtain rfl : r = 0 := h
        generalize t.view = v at hreturns ⊢
        cases hreturns with
        | resumeNone hnone => exact absurd hnone hcb
        | resume => rfl
    | @query t e hframe _ hview =>
        refine Eq.trans ?_ hview
        rw [resumeDeliver]
        dsimp only
        split
        next =>
          rw [deliver, invoke]
          split <;> rfl
        next => rfl
  generalize (s.resumeRotationCb id a).2 = t at hcoherent' hattached' hview
  have hcb' : t.rot.callback ≠ none := by
    have hsame : t.rot.callback = s.rot.callback := congrArg View.callback hview
    exact hsame ▸ hcb
  have hset : t.rot.cbSet = true := congrArg View.cbSet hview
  have hstarted : t.rot.sfStarted = true := (hattached'.linked hcb').started hset
  obtain ⟨data, hdata⟩ := Option.ne_none_iff_exists'.mp ((hattached'.linked hcb').registered hset)
  have hfollowed : t.lockRegistered = some (s.lockRegistered.getD s.rot.cbdata) :=
    congrArg View.lockRegistered hview
  refine ⟨?_, (hcoherent'.started_eq hcb').trans hstarted, ?_, hset, hstarted⟩
  · rw [hcoherent'.data hcb' data hdata] at hdata
    exact hdata
  · rw [hfollowed, hcoherent'.lock_data _ hfollowed]
    rfl

/-! ### Callbacks that pause and resume -/

/-- The states that a reaction of the callback leads to when it comes last: it is not
invoked, or it is invoked in a state that does not depend on the reaction. -/
def ReactsLast (f : (Rotation → Rotation) → ℤ × Rotation) : Prop :=
  ∃ t, (∀ react, (f react).2 = t) ∨
    ∃ fn m, ∀ react, (f react).2 =
      { react (t.record (.callback fn m t.rot.cbdata)) with rot.mode := m }

/-- Calls that agree for every reaction. -/
theorem ReactsLast.congr {f g : (Rotation → Rotation) → ℤ × Rotation} (h : ReactsLast g)
    (hfg : ∀ react, f react = g react) : ReactsLast f := by
  rwa [funext hfg]

/-- A call that never invokes the callback. -/
theorem reactsLast_const (rt : ℤ × Rotation) : ReactsLast fun _ => rt :=
  ⟨rt.2, .inl fun _ => rfl⟩

/-- The query of a resume call invokes the callback last. -/
theorem reactsLast_resumeRead (a : Answers) (s : Rotation) :
    ReactsLast fun react => resumeRead react a s := by
  cases hq : a.sfCheckRotation with
  | none => exact (reactsLast_const _).congr fun react => resumeRead_of_none react hq
  | some e =>
      let t := (s.addRotlock s.rot.cbdata a).record (.reading .resume (getMode e))
      have hread : ∀ react, resumeRead react a s =
          if t.rot.mode ≠ getMode e ∧ t.rot.lock = false then
            (0, t.deliver react (getMode e) t.rot.cbdata) else (0, t) := by
        intro react
        rw [resumeRead_of_some react hq, resumeDeliver]
        split <;> rfl
      by_cases hdue : t.rot.mode ≠ getMode e ∧ t.rot.lock = false
      · cases hf : t.rot.callback with
        | none =>
            refine (reactsLast_const (0, { t.record .fault with rot.mode := getMode e })).congr
              fun react => ?_
            rw [hread, if_pos hdue, deliver, invoke, hf]
        | some fn =>
            refine ⟨t, .inr ⟨fn, getMode e, fun react => ?_⟩⟩
            dsimp only
            rw [hread, if_pos hdue, deliver_eq _ _ hf]
      · exact (reactsLast_const (0, t)).congr fun react => by rw [hread, if_neg hdue]

/-- The part that starts the sensor invokes the callback last. -/
theorem reactsLast_resumeStart (a : Answers) (s : Rotation) :
    ReactsLast fun react => resumeStart react a s := by
  by_cases hstopped : s.rot.sfStarted = false
  · by_cases hfail : a.sfStart < 0
    · refine (reactsLast_const (resumeStart id a s)).congr fun react => ?_
      simp only [resumeStart, if_pos hstopped, if_pos hfail]
    · refine (reactsLast_resumeRead a
        { s.sfStart s.rot.handle a with rot.sfStarted := true }).congr fun react => ?_
      simp only [resumeStart, if_pos hstopped, if_neg hfail]
  · refine (reactsLast_resumeRead a s).congr fun react => ?_
    simp only [resumeStart, if_neg hstopped]

/-- A resume call invokes the callback last, if it does. -/
theorem reactsLast_resumeRotationCb (a : Answers) (s : Rotation) :
    ReactsLast fun react => s.resumeRotationCb react a := by
  by_cases hnone : s.rot.callback = none
  · refine (reactsLast_const (0, s)).congr fun react => ?_
    rw [resumeRotationCb, if_pos hnone]
  · by_cases hset : s.rot.cbSet = false
    · by_cases hfail : a.sfRegisterEvent < 0
      · refine (reactsLast_const (s.resumeRotationCb id a)).congr fun react => ?_
        rw [resumeRotationCb, resumeRotationCb, if_neg hnone, if_neg hnone, if_pos hset,
          if_pos hset]
        dsimp only
        rw [if_pos hfail, if_pos hfail]
      · refine (reactsLast_resumeStart a
          { s.sfRegisterEvent s.rot.handle s.rot.cbdata a with rot.cbSet := true }).congr
            fun react => ?_
        rw [resumeRotationCb, if_neg hnone, if_pos hset]
        dsimp only
        rw [if_neg hfail]
    · refine (reactsLast_resumeStart a s).congr fun react => ?_
      rw [resumeRotationCb, if_neg hnone, if_neg hset]

/-- What is assumed of the calls between setting and unsetting: they pause or resume, and a
resume call that cannot start the sensor can clean up. -/
def Api.Cycles (c : Api) (a : Answers) : Prop :=
  (c = .pause ∨ c = .resume) ∧ c.CleansUp a

/-- **A call is proper**, if what the callback does is. -/
theorem proper_runApi {react : Rotation → Rotation}
    (hreact : ∀ t, t.registration.Coherent → t.Attached True → Proper t (react t))
    {c : Api} {a : Answers} (hc : c.Cycles a) {s : Rotation} (h : s.registration.Coherent)
    (hattached : s.Attached True) : Proper s (s.runApi react c a) := by
  obtain ⟨rfl | rfl, hclean⟩ := hc
  · exact (proper_pauseRotationCb a h hattached).trans (proper_record (by simp [Call.IsSf]) _)
  · have hproper := proper_resumeRotationCb a h hattached
    refine Proper.trans ?_ (proper_record (by simp [Call.IsSf]) _)
    obtain ⟨t, ht | ⟨f, m, ht⟩⟩ := reactsLast_resumeRotationCb a s
    · rw [ht]
      rwa [ht] at hproper
    · have hcoherent : (s.resumeRotationCb id a).2.registration.Coherent :=
        coherent_resumeRotationCb (fun _ hu => hu) a h
      have hattached' : (s.resumeRotationCb id a).2.Attached True :=
        attached_resumeRotationCb (fun _ hu => hu) a (fun _ => hclean rfl) hattached
      rw [ht] at hproper hcoherent hattached'
      rw [ht]
      have hcall : Proper s (t.record (.callback f m t.rot.cbdata)) :=
        hproper.trans (proper_of_eq rfl rfl rfl rfl rfl)
      exact (hcall.trans (hreact _ hcoherent hattached')).trans
        (proper_of_eq rfl rfl rfl rfl rfl)

/-- A callback that only pauses and resumes is proper. -/
theorem proper_reaction {ρ : Reaction} (hρ : ρ.Each Api.Cycles) {s : Rotation}
    (h : s.registration.Coherent) (hattached : s.Attached True) : Proper s (ρ.run s) := by
  induction ρ generalizing s with
  | done => exact .refl s
  | call c a inner rest ihinner ihrest =>
      obtain ⟨hc, hinner, hrest⟩ := hρ
      have hclean : ∀ ρ : Reaction, ρ.Each Api.Cycles →
          ρ.Each fun c a => True → c.CleansUp a :=
        fun _ hcycles => hcycles.mono fun _ _ hcycle _ => hcycle.2
      have hcall := proper_runApi (fun t ht hu => ihinner hinner ht hu) hc h hattached
      refine hcall.trans (ihrest hrest (coherent_runApi (coherent_reaction inner) c a h) ?_)
      exact attached_runApi (fun t => attached_reaction (hclean inner hinner)) c a
        (fun _ => hc.2) hattached

/-! ### Runs -/

/-- The input is an event, or a call that pauses or resumes, and so is what the callback
does. -/
def Input.Cycles (x : Input) : Prop :=
  (∀ c, x.event = .api c → c.Cycles x.answers) ∧ x.reaction.Each Api.Cycles

/-- A reading changes nothing of the sensor, and what the callback does is proper. -/
theorem Settles.proper {s t : Rotation} {m : AppcoreRm} {direct : Prop} {data : Ptr}
    {a : Answers} {ρ : Reaction} (hs : Settles s m direct data a ρ t)
    (hρ : ρ.Each Api.Cycles) (h : s.registration.Coherent) (hattached : s.Attached True) :
    Proper s t := by
  cases hs with
  | told => exact proper_of_eq rfl rfl rfl rfl rfl
  | @deliver f =>
      have hcall := proper_record (c := .callback f m data) (by simp [Call.IsSf]) s
      exact (hcall.trans (proper_reaction hρ h hattached)).trans
        (proper_of_eq rfl rfl rfl rfl rfl)
  | defer => exact proper_of_eq rfl rfl rfl rfl rfl

/-- **A step is proper**: the handlers leave the sensor framework alone. -/
theorem proper_step {s : Rotation} {x : Input} (hx : x.Cycles) (hwf : s.WellFormed)
    (hattached : s.Attached True) : Proper s (step s x) := by
  have ho := step_outcome x hwf
  obtain ⟨e, a, ρ⟩ := x
  obtain ⟨hcall, hρ⟩ := hx
  have hreact : ∀ t : Rotation, t.registration.Coherent → t.Attached True →
      Proper t (ρ.run t) := fun t => proper_reaction hρ
  by_cases he : ∃ c, e = .api c
  · obtain ⟨c, rfl⟩ := he
    exact proper_runApi hreact (hcall c rfl) hwf.coherent hattached
  · generalize step s _ = t at ho
    cases ho with
    | @api c => exact absurd ⟨c, rfl⟩ he
    | sensorIgnored => exact .refl s
    | sensorLocked => exact proper_record (by simp [Call.IsSf]) s
    | sensor _ _ hs =>
        exact (proper_record (by simp [Call.IsSf]) s).trans
          (hs.proper hρ hwf.coherent hattached)
    | lockUnfollowed => exact proper_of_eq rfl rfl rfl rfl rfl
    | lockQuiet => exact proper_of_eq rfl rfl rfl rfl rfl
    | @unlock e t _ hs =>
        have hlock : Proper s (s.relock false) := proper_of_eq rfl rfl rfl rfl rfl
        have hread := hlock.trans
          (proper_record (c := .reading .unlock (getMode e)) (by simp [Call.IsSf]) _)
        exact hread.trans (hs.proper hρ hwf.coherent hattached)
    | propertyIgnored => exact .refl s
    | propertyTold => exact proper_of_eq rfl rfl rfl rfl rfl
    | @propertyDeliver f =>
        have hdeliver := proper_record (c := .callback f s.changedM s.changedData)
          (by simp [Call.IsSf]) s
        exact (hdeliver.trans (hreact _ hwf.coherent hattached)).trans
          (proper_of_eq rfl rfl rfl rfl rfl)

/-- **Pausing and resuming recovers** from any failure. After a successful
`appcore_set_rotation_cb`, let pause and resume calls and events follow, with the clean-up
of a resume call succeeding. Then all calls of the sensor framework have been apt, and the
callback, its data and its handle have stayed; a pause call that returns 0 leaves it all
off, and a resume call that returns 0, to a callback that makes no calls, all on. -/
theorem recovers_run (rotateLock : Bool) (xs : List Input) (cb data : Ptr) (a : Answers)
    (ρ : Reaction) {ys : List Input} :
    let s₀ := Machine.run step (init rotateLock) xs
    let s := step s₀ ⟨.api (.set cb data), a, ρ⟩
    let t := Machine.run step s ys
    (s₀.setRotationCb cb data a).1 = 0 → (∀ y ∈ ys, y.Cycles) →
      Proper s t ∧
        (∀ b, (t.pauseRotationCb b).1 = 0 → Off (t.pauseRotationCb b).2) ∧
        ∀ b, (t.resumeRotationCb id b).1 = 0 → On (t.resumeRotationCb id b).2 := by
  intro s₀ s t hset hys
  have hlinked : s.registration.Linked True s.connected := linked_of_set hset
  obtain ⟨hcb, hnone, hconnect, hregister, hstart⟩ := ok_of_setRotationCb hset
  have hcb' : s.rot.callback ≠ none := by
    have hstored : (s₀.setRotationCb cb data a).2.rot.callback = cb := by
      rw [setRotationCb_of_ok data hcb hnone hconnect hregister hstart]
    exact hstored.symm ▸ hcb
  have hwf : s.WellFormed := wellFormed_step s₀ _ (wellFormed_run rotateLock xs)
  have hattached : s.Attached True := hlinked.attached hcb'
  have hkeeps : ∀ u y, u.WellFormed ∧ u.Attached True ∧ Proper s u → y.Cycles →
      (step u y).WellFormed ∧ (step u y).Attached True ∧ Proper s (step u y) := by
    rintro u y ⟨hwf, hattached, hproper⟩ hy
    refine ⟨wellFormed_step u y hwf, attached_step hwf (fun c hc _ => (hy.1 c hc).2) ?_ hattached,
      hproper.trans (proper_step hy hwf hattached)⟩
    exact hy.2.mono fun _ _ hc _ => hc.2
  obtain ⟨hwf', hattached', hproper⟩ := Machine.AtEach.run_invariant hkeeps
    ⟨hwf, hattached, .refl s⟩ (Machine.atEach_of_forall hys)
  have htcb : t.rot.callback ≠ none := hproper.callback ▸ hcb'
  have hweak : t.Attached False :=
    ⟨hattached'.cbdata, fun hne => { hattached'.linked hne with unregistered := False.elim }⟩
  exact ⟨hproper, fun b => pause_off htcb hwf'.coherent hattached',
    fun b => resume_on htcb hwf'.coherent hweak⟩

/-- A pause call that cannot unregister, one that cannot stop the sensor, a resume call that
cannot start it and one that cannot register, each retried or followed by the other. -/
def mixedFailures : List Input :=
  [⟨.api .pause, { granted with sfUnregisterEvent := -1 }, .done⟩,
   ⟨.api .pause, { granted with sfStop := -1 }, .done⟩,
   ⟨.api .resume, granted, .done⟩,
   ⟨.api .pause, granted, .done⟩,
   ⟨.api .resume, { granted with sfStart := -1 }, .done⟩,
   ⟨.api .resume, { granted with sfRegisterEvent := -1 }, .done⟩]

/-- Through these failures, a resume call still turns it all on. -/
theorem recovers_run_mixedFailures :
    let s := step (init false) ⟨.api (.set (some 1) (some 10)), granted, .done⟩
    let t := Machine.run step s mixedFailures
    (t.resumeRotationCb id granted).1 = 0 ∧ Proper s t ∧
      (∀ b, (t.pauseRotationCb b).1 = 0 → Off (t.pauseRotationCb b).2) ∧
      ∀ b, (t.resumeRotationCb id b).1 = 0 → On (t.resumeRotationCb id b).2 :=
  ⟨by decide, recovers_run false [] (some 1) (some 10) granted .done (by decide) (by
    simp [mixedFailures, granted, Input.Cycles, Api.Cycles, Api.CleansUp, Reaction.Each])⟩

end Rotation

end AppCore
