import AppCore.RotationMirror

/-!
# A Failed Registration

`appcore_set_rotation_cb` stores the callback before it starts the sensor, and where the
start fails it does not restore the four fields that it has written: it clears them. That
is the state before the call because of what these fields hold while no callback is set.
Of one of them this takes a history without a failed `appcore_unset_rotation_cb`, which
forgets the callback before it has stopped the sensor.

## Main results

* `setFailed_setRotationCb`: the exits of a call that fails.
* `stopped_runApi`, `stopped_run`: the sensor of a forgotten callback is stopped, over an API
  call and over a run.
* `setRotationCb_failed`: **a failed registration changes nothing**.
-/

set_option autoImplicit false

namespace AppCore

/-- What `appcore_set_rotation_cb` leaves of `rot` where it cannot start the sensor. -/
def RotS.clear (r : RotS) : RotS :=
  { r with callback := none, cbdata := none, cbSet := false, sfStarted := false }

/-- Where no callback is set there is nothing left to clear. -/
theorem RotS.clear_eq {r : RotS} (hcb : r.callback = none) (hdata : r.cbdata = none)
    (hset : r.cbSet = false) (hstarted : r.sfStarted = false) : r.clear = r := by
  obtain ⟨handle, callback, mode, lock, cbdata, cbSet, sfStarted⟩ := r
  dsimp only at hcb hdata hset hstarted
  rw [RotS.clear, hcb, hdata, hset, hstarted]

namespace Rotation

/-- The entry tells that an `appcore_unset_rotation_cb` has failed. -/
def Call.failsUnset : Call → Bool
  | .unsetRotationCb r => decide (r ≠ 0)
  | _ => false

/-- No `appcore_unset_rotation_cb` has failed so far. -/
def UnsetsSucceed (s : Rotation) : Prop :=
  ∀ c ∈ s.log, c.failsUnset = false

instance (s : Rotation) : Decidable s.UnsetsSucceed :=
  inferInstanceAs (Decidable (∀ c ∈ s.log, c.failsUnset = false))

/-- Without a callback, the module does not take the sensor for started. -/
def Stopped (s : Rotation) : Prop :=
  s.rot.callback = none → s.rot.sfStarted = false

/-! ### The failed call -/

/-- Where a failed `appcore_set_rotation_cb` leaves the module. -/
inductive SetFailed (a : Answers) (s : Rotation) : Rotation → Prop
  | refused : SetFailed a s s
  | unconnected : a.sfConnect = false → SetFailed a s (s.sfConnect a)
  /-- The connection that was opened is given up. -/
  | disconnected {t : Rotation} :
      t.rot = s.rot ∨ s.rot.callback = none ∧ t.rot = s.rot.clear →
      (∃ cs, t.log = s.log ++ [.sfConnect s.nextHandle] ++ cs ∧ ∀ k, .sfConnect k ∉ cs) →
      SetFailed a s (t.sfDisconnect s.nextHandle a)

/-- The exits of `appcore_set_rotation_cb` with -1. -/
theorem setFailed_setRotationCb {s : Rotation} {cb data : Ptr} {a : Answers}
    (h : (s.setRotationCb cb data a).1 = -1) : SetFailed a s (s.setRotationCb cb data a).2 := by
  rw [setRotationCb] at h ⊢
  split at h
  next hnull =>
    rw [if_pos hnull]
    exact .refused
  next hcb =>
    rw [if_neg hcb]
    split at h
    next hset =>
      rw [if_pos hset]
      exact .refused
    next hnone =>
      rw [if_neg hnone]
      cases hconnect : a.sfConnect with
      | false =>
          have hhandle : s.connectHandle a < 0 := by simp [connectHandle, hconnect]
          dsimp only
          rw [if_pos hhandle]
          exact .unconnected hconnect
      | true =>
          have hhandle : s.connectHandle a = s.nextHandle := if_pos hconnect
          have hfresh : ¬ ((s.nextHandle : ℤ) < 0) := by omega
          simp only [hhandle, if_neg hfresh] at h ⊢
          have hlog : (s.sfConnect a).log = s.log ++ [.sfConnect s.nextHandle] := by
            rw [log_sfConnect, hhandle]
          split at h
          next hregister =>
            have hlog' := log_sfRegisterEvent s.nextHandle data a (s.sfConnect a)
            rw [hlog] at hlog'
            rw [if_pos hregister]
            exact .disconnected (.inl (by simp)) ⟨_, hlog', by simp⟩
          next hregister =>
            rw [if_neg hregister]
            rw [setStart] at h ⊢
            dsimp only at h ⊢
            split at h
            next hstart =>
              rw [if_pos hstart]
              refine .disconnected (.inr ⟨not_not.mp hnone, by simp [RotS.clear]⟩)
                ⟨[.sfRegisterEvent s.nextHandle data a.sfRegisterEvent,
                  .sfStart s.nextHandle a.sfStart,
                  .sfUnregisterEvent s.nextHandle a.sfUnregisterEvent], ?_, by simp⟩
              simp [log_sfUnregisterEvent, log_sfStart, log_sfRegisterEvent, hlog]
            next => exact absurd h (by simp)

/-- A failed call leaves no connection that it has opened. -/
theorem SetFailed.connected {a : Answers} {s t : Rotation} (h : SetFailed a s t)
    (hdisconnect : 0 ≤ a.sfDisconnect) {k : ℤ} (hk : 0 ≤ k)
    (hopened : .sfConnect k ∈ t.log.drop s.log.length) : t.connected k = false := by
  cases h with
  | refused =>
      rw [List.drop_length] at hopened
      exact absurd hopened List.not_mem_nil
  | unconnected hconnect =>
      -- the entry tells the negative answer
      simp [log_sfConnect, connectHandle, hconnect] at hopened
      omega
  | disconnected _ hlog =>
      obtain ⟨cs, hlog, hcs⟩ := hlog
      rw [log_sfDisconnect, hlog, List.append_assoc, List.append_assoc, List.drop_left] at hopened
      obtain rfl : k = s.nextHandle := by simpa [hcs] using hopened
      simp [sfDisconnect, hdisconnect.not_gt]

/-! ### Between registrations -/

/-- A failed set call does not leave the sensor marked as started. -/
theorem SetFailed.stopped {a : Answers} {s t : Rotation} (h : SetFailed a s t)
    (hs : s.Stopped) : t.Stopped := by
  cases h with
  | refused => exact hs
  | unconnected => rwa [Stopped, rot_sfConnect]
  | disconnected hrot =>
      rw [Stopped, rot_sfDisconnect]
      rcases hrot with hsame | ⟨-, hclear⟩
      · rwa [hsame]
      · rw [hclear]
        exact fun _ => rfl

/-- A set call leaves the sensor started for a callback that it has set only. -/
theorem stopped_setRotationCb (cb data : Ptr) (a : Answers) {s : Rotation} (h : s.Stopped) :
    (s.setRotationCb cb data a).2.Stopped := by
  have hreturns := returns_setRotationCb cb data a s
  generalize hr : (s.setRotationCb cb data a).1 = r, hv :
    (s.setRotationCb cb data a).2.view = v at hreturns
  cases hreturns with
  | setRefused => exact (setFailed_setRotationCb hr).stopped h
  | setFailed => exact (setFailed_setRotationCb hr).stopped h
  | set _ hcb => exact fun hnone => absurd ((congrArg View.callback hv).symm.trans hnone) hcb

/-- `appcore_unset_rotation_cb` has stopped the sensor where it returns 0. -/
theorem stopped_unsetStop {a : Answers} {s : Rotation} (h : (unsetStop a s).1 = 0) :
    (unsetStop a s).2.rot.sfStarted = false := by
  have hdisconnect : ∀ t : Rotation,
      (unsetDisconnect a t).2.rot.sfStarted = t.rot.sfStarted := by
    intro t
    rw [unsetDisconnect]
    dsimp only
    split <;> simp
  rw [unsetStop] at h ⊢
  dsimp only at h ⊢
  split at h
  next hstarted =>
    rw [if_pos hstarted]
    split at h
    next => exact absurd h (by simp)
    next hok => rw [if_neg hok, hdisconnect]
  next hstopped =>
    rw [if_neg hstopped, hdisconnect]
    exact Bool.eq_false_of_not_eq_true hstopped

/-- An unset call that succeeds has stopped the sensor. -/
theorem stopped_unsetRotationCb {a : Answers} {s : Rotation} (hs : s.Stopped)
    (h : (s.unsetRotationCb a).1 = 0) : (s.unsetRotationCb a).2.Stopped := by
  rw [unsetRotationCb] at h ⊢
  split at h
  next hnone =>
    rw [if_pos hnone]
    exact hs
  next hcb =>
    rw [if_neg hcb]
    dsimp only at h ⊢
    split at h
    next hset =>
      rw [if_pos hset]
      split at h
      next => exact absurd h (by simp)
      next hok =>
        rw [if_neg hok]
        exact fun _ => stopped_unsetStop h
    next hunset =>
      rw [if_neg hunset]
      exact fun _ => stopped_unsetStop h

/-- A pause call keeps the callback, and starts nothing. -/
theorem stopped_pauseRotationCb (a : Answers) {s : Rotation} (hs : s.Stopped) :
    (s.pauseRotationCb a).2.Stopped := by
  by_cases hnone : s.rot.callback = none
  · rw [pauseRotationCb, if_pos hnone]
    exact hs
  · have hreturns := returns_pauseRotationCb a s
    generalize (s.pauseRotationCb a).1 = r, hv : (s.pauseRotationCb a).2.view = v at hreturns
    have hcb : (s.pauseRotationCb a).2.rot.callback = s.rot.callback := by
      refine (congrArg View.callback hv).trans ?_
      cases hreturns <;> rfl
    exact fun hgone => absurd (hcb.symm.trans hgone) hnone

/-! ### Histories -/

/-- Once an `appcore_unset_rotation_cb` has failed, nothing is said. -/
def KeepsStopped (s : Rotation) : Prop :=
  s.UnsetsSucceed → s.Stopped

/-- Of a trace without failed unset calls every earlier one is so too. -/
theorem UnsetsSucceed.of_append {s t : Rotation} {cs : List Call} (h : t.UnsetsSucceed)
    (hlog : t.log = s.log ++ cs) : s.UnsetsSucceed :=
  fun c hc => h c (hlog ▸ List.mem_append_left cs hc)

/-- The sensor of a callback that is set does not matter. -/
theorem keepsStopped_of_callback {s : Rotation} (h : s.rot.callback ≠ none) : s.KeepsStopped :=
  fun _ hnone => absurd hnone h

/-- One more entry leaves `rot` alone. -/
theorem KeepsStopped.record {s : Rotation} (h : s.KeepsStopped) (c : Call) :
    (s.record c).KeepsStopped :=
  fun ht => h (ht.of_append rfl)

/-- A call that invokes no callback. -/
theorem KeepsStopped.frame {s t : Rotation} (h : s.KeepsStopped) (hframe : Frame s t)
    {c : Call} (hstopped : (t.record c).UnsetsSucceed → s.Stopped → t.Stopped) :
    (t.record c).KeepsStopped := by
  obtain ⟨cs, -, hlog⟩ := hframe.log
  intro ht
  exact hstopped ht (h (ht.of_append (by rw [Rotation.record, hlog, List.append_assoc])))

/-- A resume call starts the sensor of a callback that is set only. -/
theorem stopped_resumeRotationCb {react : Rotation → Rotation}
    (hreact : ∀ t, t.KeepsStopped → (react t).KeepsStopped) (a : Answers) {s : Rotation}
    (h : s.KeepsStopped) : (s.resumeRotationCb react a).2.KeepsStopped := by
  by_cases hnone : s.rot.callback = none
  · rw [resumeRotationCb, if_pos hnone]
    exact h
  · have hresumes := resumes_resumeRotationCb react a s
    generalize s.resumeRotationCb react a = rt at hresumes
    cases hresumes with
    | @call r t hframe hreturns =>
        have hcb : t.rot.callback = s.rot.callback := by
          change t.view.callback = s.view.callback
          generalize t.view = v at hreturns ⊢
          cases hreturns <;> rfl
        exact keepsStopped_of_callback (hcb ▸ hnone)
    | @query t e hframe hcb hview =>
        have hcb' : t.rot.callback ≠ none := fun hgone =>
          hnone ((congrArg View.callback hview).symm.trans hgone)
        obtain ⟨f, hf⟩ := Option.ne_none_iff_exists'.mp hcb'
        dsimp only
        rw [resumeDeliver]
        split
        next =>
          rw [deliver_eq (s := t.record _) _ _ hf]
          exact hreact _ (keepsStopped_of_callback hcb')
        next => exact keepsStopped_of_callback hcb'

/-- **An API call** leaves the sensor of a forgotten callback stopped. -/
theorem stopped_runApi {react : Rotation → Rotation}
    (hreact : ∀ t, t.KeepsStopped → (react t).KeepsStopped) (c : Api) (a : Answers)
    {s : Rotation} (h : s.KeepsStopped) : (s.runApi react c a).KeepsStopped := by
  cases c with
  | set cb data =>
      exact h.frame (frame_setRotationCb cb data a s) fun _ => stopped_setRotationCb cb data a
  | unset =>
      refine h.frame (frame_unsetRotationCb a s) fun ht hs => stopped_unsetRotationCb hs ?_
      have hzero : (Call.unsetRotationCb (s.unsetRotationCb a).1).failsUnset = false :=
        ht _ (by simp [record])
      simpa [Call.failsUnset] using hzero
  | pause => exact h.frame (frame_pauseRotationCb a s) fun _ => stopped_pauseRotationCb a
  | resume => exact (stopped_resumeRotationCb hreact a h).record _

/-- What the callback does, call by call. -/
theorem stopped_reaction (ρ : Reaction) {s : Rotation} (h : s.KeepsStopped) :
    (ρ.run s).KeepsStopped :=
  Reaction.run_invariant (fun _ c a _ hreact _ ht => stopped_runApi hreact c a ht) ρ.all_true h

/-- A reading leaves the sensor to what the callback does. -/
theorem Settles.stopped {s t : Rotation} {m : AppcoreRm} {direct : Prop} {data : Ptr}
    {a : Answers} {ρ : Reaction} (hs : Settles s m direct data a ρ t) (h : s.KeepsStopped) :
    t.KeepsStopped := by
  cases hs with
  | told => exact h
  | @deliver f => exact stopped_reaction ρ (h.record (.callback f m data))
  | defer => exact h

/-- **A step** leaves the sensor of a forgotten callback stopped: the handlers touch it only
through the callback. -/
theorem stopped_step {s : Rotation} (x : Input) (hwf : s.WellFormed) (h : s.KeepsStopped) :
    (step s x).KeepsStopped := by
  have ho := step_outcome x hwf
  obtain ⟨e, a, ρ⟩ := x
  cases e with
  | api c => exact stopped_runApi (fun t => stopped_reaction ρ) c a h
  | sensor handle rotationCheck e =>
      generalize step s _ = t at ho ⊢
      cases ho with
      | sensorIgnored => exact h
      | sensorLocked => exact h.record _
      | sensor _ _ hs => exact hs.stopped (h.record _)
  | lockChange lock =>
      generalize step s _ = t at ho ⊢
      cases ho with
      | lockUnfollowed => exact h
      | lockQuiet => exact h
      | unlock _ hs => exact hs.stopped (h.record _)
  | property atom =>
      generalize step s _ = t at ho ⊢
      cases ho with
      | propertyIgnored => exact h
      | propertyTold => exact h
      | @propertyDeliver f =>
          exact stopped_reaction ρ (h.record (.callback f s.changedM s.changedData))

/-- **The sensor of a forgotten callback is stopped** as long as no
`appcore_unset_rotation_cb` fails. -/
theorem stopped_run (rotateLock : Bool) (xs : List Input) :
    (Machine.run step (init rotateLock) xs).KeepsStopped := by
  have hstep : ∀ s x, s.WellFormed ∧ s.KeepsStopped →
      (step s x).WellFormed ∧ (step s x).KeepsStopped := by
    rintro s x ⟨hwf, h⟩
    exact ⟨wellFormed_step s x hwf, stopped_step x hwf h⟩
  have hinit : (init rotateLock).KeepsStopped := fun _ _ => rfl
  exact (Machine.run_invariant step hstep ⟨wellFormed_init rotateLock, hinit⟩ xs).2

/-! ### Atomicity -/

/-- Between registrations, the four fields are what a failed call clears them to. -/
theorem clear_rot {s : Rotation} (hnone : s.rot.callback = none)
    (hwf : s.WellFormed) (hattached : s.Attached False) (hstopped : s.Stopped) :
    s.rot.clear = s.rot :=
  RotS.clear_eq hnone (hattached.cbdata hnone) (hwf.coherent.forgotten hnone).cbSet
    (hstopped hnone)

/-- **A failed registration changes nothing**: after any history in which no
`appcore_unset_rotation_cb` has failed, a call of `appcore_set_rotation_cb` that returns -1
leaves `rot` as it was and no connection that it has opened. -/
theorem setRotationCb_failed (rotateLock : Bool) (xs : List Input) (cb data : Ptr)
    (a : Answers) :
    let s := Machine.run step (init rotateLock) xs
    let r := s.setRotationCb cb data a
    s.UnsetsSucceed → r.1 = -1 → 0 ≤ a.sfDisconnect →
      r.2.rot = s.rot ∧
        ∀ k, 0 ≤ k → .sfConnect k ∈ r.2.log.drop s.log.length → r.2.connected k = false := by
  intro s r hunsets hfailed hdisconnect
  have hexit : SetFailed a s r.2 := setFailed_setRotationCb hfailed
  refine ⟨?_, fun k hk hopened => hexit.connected hdisconnect hk hopened⟩
  generalize r.2 = t at hexit
  cases hexit with
  | refused => rfl
  | unconnected => rw [rot_sfConnect]
  | disconnected hrot =>
      rw [rot_sfDisconnect]
      rcases hrot with hsame | ⟨hnone, hclear⟩
      · exact hsame
      · exact hclear.trans (clear_rot hnone (wellFormed_run rotateLock xs)
          (attached_run rotateLock xs) (stopped_run rotateLock xs hunsets))

/-- A resume call that cannot start the sensor, then an unset call. -/
def resumedAndUnset : List Input :=
  [⟨.api (.set (some 1) (some 10)), granted, .done⟩,
   ⟨.api .pause, granted, .done⟩,
   ⟨.api .resume, { granted with sfStart := -1 }, .done⟩,
   ⟨.api .unset, granted, .done⟩]

/-- After that a set call cannot start the sensor either. -/
theorem setRotationCb_failed_resumedAndUnset :
    let s := Machine.run step (init false) resumedAndUnset
    let r := s.setRotationCb (some 2) (some 20) { granted with sfStart := -1 }
    r.1 = -1 ∧ r.2.rot = s.rot ∧
      ∀ k, 0 ≤ k → .sfConnect k ∈ r.2.log.drop s.log.length → r.2.connected k = false :=
  ⟨by decide, setRotationCb_failed false resumedAndUnset (some 2) (some 20)
    { granted with sfStart := -1 } (by decide) (by decide) (by decide)⟩

end Rotation

end AppCore
