import AppCore.RotationStep

/-!
# The Rotation Lock

The registered callback should not be invoked while the user has locked the rotation. Of
the four places that invoke it, `__lock_cb` and the resume call look at the lock. A
property event for a pending deferral does not; and `__changed_cb` looks at `rot.lock`,
which stops following the setting when an unset or pause call fails to unregister the
sensor. These two are the only ways in which the callback meets a locked setting.

## Main results

* `follows_step`: `rot.lock` is the setting, as long as the module follows it.
* `respectsLock_step`: which single steps respect the lock.
* `lockRespected_iff`: **a run respects the lock** exactly when, while the setting is on,
  no property event meets a due deferral and no reading comes in unfollowed.
-/

set_option autoImplicit false

namespace AppCore

namespace Rotation

/-- The callback was invoked on the way from `s` to `t`. -/
def Invokes (s t : Rotation) : Prop :=
  ∃ c ∈ t.log.drop s.log.length, c.isCallback = true

/-- A step that ends with the setting on invokes no callback. A change of the setting takes
effect before the handlers run. -/
def RespectsLock (s : Rotation) (x : Input) : Prop :=
  (step s x).rotateLock = true → ¬ Invokes s (step s x)

/-- A rotation event that would be delivered at once, on a connection left alive by a call
that no longer follows the setting. -/
def UnfollowedReading (s : Rotation) (x : Input) : Prop :=
  ∃ handle e, x.event = .sensor handle true e ∧ s.registration.live handle ≠ none ∧
    s.lockRegistered = none ∧ s.rot.cbSet = true ∧ s.rot.mode ≠ getMode e ∧
    (x.answers.propVal = 0 ∨ x.answers.propRet < 1)

/-- All reads of the setting succeed. -/
def Input.Reads (x : Input) : Prop :=
  x.answers.vconfGetBool = true ∧ x.reaction.All fun a => a.vconfGetBool = true

/-- The flag of the module is the setting if it follows it, and off otherwise. -/
def Follows (s : Rotation) : Prop :=
  s.rot.lock = (s.lockRegistered.isSome && s.rotateLock)

/-! ### The lock flag -/

/-- Steps that leave the flag, the following and the setting alone. -/
theorem follows_of_view {s t : Rotation} (hs : s.Follows) (hlock : t.rotateLock = s.rotateLock)
    (hview : t.view.lock = s.view.lock ∧ t.view.lockRegistered = s.view.lockRegistered) :
    t.Follows := by
  have hl : t.rot.lock = s.rot.lock := hview.1
  have hr : t.lockRegistered = s.lockRegistered := hview.2
  rw [Follows, hl, hr, hlock]
  exact hs

/-- A read of the setting that succeeds sets the flag to it. -/
theorem follows_of_follow {s t : Rotation} {v : View} {a : Answers}
    (hread : a.vconfGetBool = true) (hlock : t.rotateLock = s.rotateLock)
    (hview : t.view = v.follow a s.rotateLock) : t.Follows := by
  have hl : t.rot.lock = s.rotateLock :=
    (congrArg View.lock hview).trans (if_pos hread)
  have hr : t.lockRegistered = some (v.lockRegistered.getD v.cbdata) :=
    congrArg View.lockRegistered hview
  rw [Follows, hl, hr, hlock, Option.isSome_some, Bool.true_and]

/-- A module that does not follow the setting has its flag off. -/
theorem follows_of_ignore {t : Rotation} (hlock : t.view.lock = false)
    (hregistered : t.view.lockRegistered = none) : t.Follows := by
  have hl : t.rot.lock = false := hlock
  have hr : t.lockRegistered = none := hregistered
  rw [Follows, hl, hr, Option.isSome_none, Bool.false_and]

/-- The exits of the API calls keep the flag in step with the setting. -/
theorem follows_returns {s t : Rotation} {a : Answers} {c : Api} {r : ℤ}
    (hread : a.vconfGetBool = true) (hs : s.Follows) (hlock : t.rotateLock = s.rotateLock)
    (h : Returns a s.rotateLock s.view c r t.view) : t.Follows := by
  generalize hv : t.view = v at h
  cases h with
  | setRefused => exact follows_of_view hs hlock (by simp [hv])
  | setFailed => exact follows_of_view hs hlock (by simp [hv])
  | set => exact follows_of_follow hread hlock hv
  | unsetNone => exact follows_of_view hs hlock (by simp [hv])
  | unsetFailed => exact follows_of_ignore (by simp [hv, View.ignore]) (by simp [hv, View.ignore])
  | unset => exact follows_of_ignore (by simp [hv]) (by simp [hv])
  | pauseNone => exact follows_of_view hs hlock (by simp [hv])
  | pauseFailed => exact follows_of_ignore (by simp [hv, View.ignore]) (by simp [hv, View.ignore])
  | pause => exact follows_of_ignore (by simp [hv, View.ignore]) (by simp [hv, View.ignore])
  | resumeNone => exact follows_of_view hs hlock (by simp [hv])
  | resumeRefused => exact follows_of_view hs hlock (by simp [hv])
  | resumeFailed => exact follows_of_view hs hlock (by simp [hv])
  | resume => exact follows_of_follow hread hlock hv

/-- The flag follows the setting through API calls and reactions of the callback. -/
theorem apiClosed_follows : ApiClosed (fun a => a.vconfGetBool = true) Follows where
  call := fun hread hs hframe hr => follows_returns hread hs hframe.rotateLock hr
  resumed := fun hread _ hframe hview => follows_of_follow hread hframe.rotateLock hview
  query := fun _ h => h
  told := fun h _ _ => h
  mode := fun _ h => h
  returned := fun _ h => h

/-- A reading leaves the flag alone, and what the callback does keeps it in step. -/
theorem Settles.follows {s t : Rotation} {m : AppcoreRm} {direct : Prop} {data : Ptr}
    {a : Answers} {ρ : Reaction} (hs : Settles s m direct data a ρ t)
    (hread : ρ.All fun a => a.vconfGetBool = true) (h : s.Follows) : t.Follows := by
  cases hs with
  | told => exact h
  | @deliver f =>
      have hcallback : (s.record (.callback f m data)).Follows := h
      exact apiClosed_follows.reaction hread hcallback
  | defer => exact h

/-- **The flag follows the setting**, as long as the setting can be read. -/
theorem follows_step {s : Rotation} {x : Input} (hread : x.Reads) (hwf : s.WellFormed)
    (h : s.Follows) : (step s x).Follows := by
  have ho := step_outcome x hwf
  obtain ⟨hread, hreaction⟩ := hread
  generalize x.event = e, step s x = t at ho
  cases ho with
  | api ho =>
      exact apiClosed_follows.apiOutcome
        (fun _ ht => apiClosed_follows.reaction hreaction ht) hread h ho
  | sensorIgnored => exact h
  | sensorLocked => exact h
  | sensor _ _ hs => exact hs.follows hreaction h
  | lockUnfollowed hreg =>
      have hflag : s.rot.lock = false := by rw [h, hreg, Option.isSome_none, Bool.false_and]
      exact follows_of_ignore hflag hreg
  | lockQuiet hreg =>
      have hsome : s.lockRegistered.isSome = true := Option.isSome_iff_ne_none.mpr hreg
      rw [Follows, hsome, Bool.true_and]
  | unlock _ hs => exact hs.follows hreaction (Bool.and_false _).symm
  | propertyIgnored => exact h
  | propertyTold => exact h
  | @propertyDeliver f =>
      have hcallback : (s.record (.callback f s.changedM s.changedData)).Follows := h
      exact apiClosed_follows.reaction hreaction hcallback

/-- At first nothing is followed, and the flag is off. -/
theorem follows_init (rotateLock : Bool) : (init rotateLock).Follows := rfl

/-! ### Invocations -/

/-- An invocation, with whatever the callback does in reaction. -/
theorem invokes_reaction {s t : Rotation} (ρ : Reaction) (f : Addr) (m : AppcoreRm)
    (data : Ptr) (h : s.log <+: t.log) :
    Invokes s (ρ.run (t.record (.callback f m data))) := by
  obtain ⟨k, hk⟩ := h
  obtain ⟨l, hl⟩ := (calls_reaction ρ (t.record (.callback f m data))).log
  refine ⟨.callback f m data, ?_, rfl⟩
  rw [← hl, record, ← hk, List.append_assoc, List.append_assoc, List.drop_left]
  simp

/-- Entries that are no invocations. -/
theorem not_invokes_of_log {s t : Rotation} {l : List Call} (h : t.log = s.log ++ l)
    (hl : ∀ c ∈ l, c.isCallback = false) : ¬ Invokes s t := by
  rintro ⟨c, hc, hcall⟩
  rw [h, List.drop_left] at hc
  exact absurd (hcall.symm.trans (hl c hc)) (by simp)

/-- Without an entry there is no invocation. -/
theorem not_invokes_of_eq {s t : Rotation} (h : t.log = s.log) : ¬ Invokes s t :=
  not_invokes_of_log (h.trans (List.append_nil _).symm) (by simp)

/-- Calls of the sensor framework, and after them entries that are no invocations. -/
theorem not_invokes_of_frame {s t u : Rotation} {l : List Call} (hframe : Frame s t)
    (hlog : u.log = t.log ++ l) (hl : ∀ c ∈ l, c.isCallback = false) : ¬ Invokes s u := by
  obtain ⟨cs, hcs, hlog'⟩ := hframe.log
  rw [hlog', List.append_assoc] at hlog
  refine not_invokes_of_log hlog fun c hc => ?_
  rcases List.mem_append.mp hc with hc | hc
  · exact (hcs c hc).isCallback
  · exact hl c hc

/-- An API call, with all that the callback does in reaction, respects the lock: a resume
call reads the setting before it delivers. -/
theorem respectsLock_api {s t : Rotation} {c : Api} {a : Answers} {ρ : Reaction}
    (hread : a.vconfGetBool = true) (ho : ApiOutcome ρ.run a s c t) :
    t.rotateLock = true → ¬ Invokes s t := by
  intro hon
  cases ho with
  | call hframe =>
      exact not_invokes_of_frame hframe rfl (by cases c <;> simp [Api.returned, Call.isCallback])
  | resumeTold hframe =>
      exact not_invokes_of_frame hframe (List.append_assoc ..) (by simp [Call.isCallback])
  | @resumeDeliver u e f hframe hview _ hlock =>
      have hoff : s.rotateLock = false := by
        rw [hview] at hlock
        exact (if_pos hread).symm.trans hlock
      have hcalls := calls_reaction ρ ((u.record (.reading .resume (getMode e))).record
        (.callback f (getMode e) s.rot.cbdata))
      have hsame := hcalls.rotateLock.trans (hframe.rotateLock.trans hoff)
      exact absurd (hsame.symm.trans hon) (by simp)

/-- The module does not write the setting. -/
theorem Settles.rotateLock {s t : Rotation} {m : AppcoreRm} {direct : Prop} {data : Ptr}
    {a : Answers} {ρ : Reaction} (hs : Settles s m direct data a ρ t) :
    t.rotateLock = s.rotateLock := by
  cases hs with
  | told => rfl
  | @deliver f => exact (calls_reaction ρ (s.record (.callback f m data))).rotateLock
  | defer => rfl

/-- The sensor's part: while the setting is on, a reading that `__changed_cb` settles
invokes the callback exactly if it is an unfollowed one. -/
theorem respectsLock_sensor {s t : Rotation} {handle : ℤ} {e : RotateState} {a : Answers}
    {ρ : Reaction} (h : s.Follows) (hlive : s.registration.live handle ≠ none)
    (hlock : s.rot.lock = false)
    (hs : Settles (s.record (.reading (.event false) (getMode e))) (getMode e)
      (a.propVal = 0 ∨ a.propRet < 1) s.rot.cbdata a ρ t) :
    (t.rotateLock = true → ¬ Invokes s t) ↔
      (s.rotateLock = true → ¬ UnfollowedReading s ⟨.sensor handle true e, a, ρ⟩) := by
  have hrotate : t.rotateLock = s.rotateLock := hs.rotateLock
  rw [hrotate]
  refine imp_congr_right fun hon => not_congr ?_
  -- the flag is off although the setting is on
  have hreg : s.lockRegistered = none := by
    have hflag := h.symm.trans hlock
    rwa [hon, Bool.and_true, Option.isSome_eq_false_iff, Option.isNone_iff_eq_none] at hflag
  cases hs with
  | told htold =>
      refine iff_of_false (not_invokes_of_log (l := [_]) rfl (by simp [Call.isCallback])) ?_
      rintro ⟨_, _, heq, -, -, hset, hmode, -⟩
      cases heq
      exact hmode (htold hset)
  | @deliver f _ hset hmode hdirect =>
      refine iff_of_true ?_ ⟨handle, e, rfl, hlive, hreg, hset, hmode, hdirect⟩
      exact invokes_reaction ρ f (getMode e) s.rot.cbdata
        (List.prefix_append s.log [.reading (.event false) (getMode e)])
  | defer hset hmode hdirect =>
      refine iff_of_false (not_invokes_of_log (l := [_]) rfl (by simp [Call.isCallback])) ?_
      rintro ⟨_, _, heq, -, -, -, -, hdirect'⟩
      exact hdirect hdirect'

/-- Under the invariants, a step respects the lock unless it meets, with the setting on, a
due deferral or an unfollowed reading. -/
theorem respectsLock_step {s : Rotation} {x : Input} (hread : x.Reads) (hwf : s.WellFormed)
    (h : s.Follows) :
    RespectsLock s x ↔
      (s.rotateLock = true → ¬ DueProperty s x ∧ ¬ UnfollowedReading s x) := by
  have ho := step_outcome x hwf
  rw [RespectsLock]
  obtain ⟨e, a, ρ⟩ := x
  generalize step s _ = t at ho ⊢
  cases ho with
  | api ho =>
      refine iff_of_true (respectsLock_api hread.1 ho) fun _ => ⟨?_, ?_⟩
      · simp [DueProperty]
      · simp [UnfollowedReading]
  | sensorIgnored hignored =>
      refine iff_of_true (fun _ => not_invokes_of_eq rfl) fun _ => ⟨by simp [DueProperty], ?_⟩
      rintro ⟨_, _, heq, hlive, -⟩
      cases heq
      exact hignored.elim hlive (by simp)
  | @sensorLocked handle e hlock =>
      have hno : ¬ Invokes s (s.record (.reading (.event true) (getMode e))) :=
        not_invokes_of_log rfl (by simp [Call.isCallback])
      refine iff_of_true (fun _ => hno) fun _ => ⟨by simp [DueProperty], ?_⟩
      rintro ⟨_, _, -, -, hreg, -⟩
      rw [Follows, hlock, hreg] at h
      simp at h
  | sensor hlive hlock hs =>
      rw [respectsLock_sensor h hlive hlock hs]
      simp [DueProperty]
  | lockUnfollowed =>
      refine iff_of_true (fun _ => not_invokes_of_eq rfl) fun _ => ⟨?_, ?_⟩
      · simp [DueProperty]
      · simp [UnfollowedReading]
  | lockQuiet =>
      refine iff_of_true (fun _ => not_invokes_of_eq rfl) fun _ => ⟨?_, ?_⟩
      · simp [DueProperty]
      · simp [UnfollowedReading]
  | unlock _ hs =>
      have hoff : t.rotateLock = false := hs.rotateLock
      simp [hoff, DueProperty, UnfollowedReading]
  | propertyIgnored hignored =>
      refine iff_of_true (fun _ => not_invokes_of_eq rfl) fun _ => ⟨?_, by simp [UnfollowedReading]⟩
      rintro ⟨heq, hpending, -⟩
      cases heq
      exact hignored.elim (fun hne => hne rfl) hpending
  | propertyTold hpending htold =>
      refine iff_of_true (fun _ => not_invokes_of_eq rfl) fun _ =>
        ⟨?_, by simp [UnfollowedReading]⟩
      rintro ⟨-, -, hset, hmode⟩
      exact hmode (htold hset)
  | @propertyDeliver f hpending _ hset hmode =>
      have hdue : DueProperty s ⟨.property s.atomRotationLock, a, ρ⟩ :=
        ⟨rfl, hpending, hset, hmode⟩
      have hsame := (calls_reaction ρ (s.record (.callback f s.changedM s.changedData))).rotateLock
      have hinvokes := invokes_reaction ρ f s.changedM s.changedData (List.prefix_refl s.log)
      refine (imp_congr_left (Eq.congr_left hsame)).trans (imp_congr_right fun _ => ?_)
      exact iff_of_false (fun hno => hno hinvokes) fun hno => hno.1 hdue

/-! ### Runs -/

/-- **The rotation lock**: a run in which the setting can be read invokes no callback while
the setting is on, exactly if while it is on no property event meets a due deferral and no
reading comes in unfollowed. -/
theorem lockRespected_iff (rotateLock : Bool) {xs : List Input} (hread : ∀ x ∈ xs, x.Reads) :
    Machine.AtEach step RespectsLock (init rotateLock) xs ↔
      Machine.AtEach step
        (fun s x => s.rotateLock = true → ¬ DueProperty s x ∧ ¬ UnfollowedReading s x)
        (init rotateLock) xs :=
  (Machine.atEach_of_forall hread).congr
    (I := fun s => s.WellFormed ∧ s.Follows)
    (fun s x h hx => ⟨wellFormed_step s x h.1, follows_step hx h.1 h.2⟩)
    (fun _ _ h hx => respectsLock_step hx h.1 h.2)
    ⟨wellFormed_init rotateLock, follows_init rotateLock⟩

/-- A rotation that the root window holds back, then a lock, then the property event. -/
def lockedDeferral : List Input :=
  [⟨.api (.set (some 1) (some 10)), granted, .done⟩,
   ⟨.sensor 0 true .event90, { granted with propVal := 1 }, .done⟩,
   ⟨.lockChange true, granted, .done⟩,
   ⟨.property 1, granted, .done⟩]

/-- The condition, for the run that defers a rotation into a lock. -/
theorem lockRespected_iff_lockedDeferral :
    Machine.AtEach step RespectsLock (init false) lockedDeferral ↔
      Machine.AtEach step
        (fun s x => s.rotateLock = true → ¬ DueProperty s x ∧ ¬ UnfollowedReading s x)
        (init false) lockedDeferral :=
  lockRespected_iff false (by simp [lockedDeferral, granted, Input.Reads, Reaction.All])

/-- **A locked rotation is delivered**: the property event tells the application the mode
that was deferred before the lock. -/
theorem not_lockRespected_lockedDeferral :
    (∀ x ∈ lockedDeferral, x.Reads) ∧
      ¬ Machine.AtEach step RespectsLock (init false) lockedDeferral := by
  refine ⟨by simp [lockedDeferral, granted, Input.Reads, Reaction.All], fun h => ?_⟩
  obtain ⟨-, -, -, hlast, -⟩ := h
  exact hlast rfl ⟨.callback 1 .landscapeNormal (some 10), by decide, rfl⟩

end Rotation

end AppCore
