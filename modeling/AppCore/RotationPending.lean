import AppCore.RotationReports

/-!
# No Rotation is Lost

As long as the application only sets and unsets its callback, and the X property handler
can be registered, the last reading that was taken while the rotation was not locked is
never lost: the application has been told its mode, or a property event will tell it.

## Main results

* `keepsLatest_step`: the invariant, for one step.
* `latest_told_or_pending`: **no rotation is lost**.
* `told_and_pending`: what it means that a mode has been told or is pending.
-/

set_option autoImplicit false

namespace AppCore

namespace Rotation

open Trace

/-- How an entry of the trace changes the latest unlocked reading of the current
registration: a rotation event that meets no lock or the query of an unlock notification
is a new one, and a successful set call begins a new registration. -/
def Call.updatesLatest : Call → Option (Option AppcoreRm)
  | .reading (.event false) m => some (some m)
  | .reading .unlock m => some (some m)
  | .setRotationCb _ _ 0 => some none
  | _ => none

/-- The mode of the last reading taken while unlocked in the current registration. -/
def latestUnlocked (l : List Call) : Option AppcoreRm :=
  latest Call.updatesLatest none l

/-- While the callback listens, `changed_m` is the latest unlocked reading, and the
application has been told or a deferral is pending. -/
def KeepsLatest (s : Rotation) : Prop :=
  s.rot.cbSet = true → ∀ m, latestUnlocked s.log = some m →
    s.changedM = m ∧ (s.rot.mode = m ∨ s.changedHandle ≠ none)

/-- A step without a pause or resume call, in which a property handler can be registered
and the callback does not call the module. -/
def Input.Plain (x : Input) : Prop :=
  x.event ≠ .api .pause ∧ x.event ≠ .api .resume ∧ x.answers.handlerAdd = true ∧
    x.reaction = .done

/-! ### The latest reading -/

/-- The latest reading after one more entry. -/
@[simp] theorem latestUnlocked_snoc (l : List Call) (c : Call) :
    latestUnlocked (l ++ [c]) = c.updatesLatest.getD (latestUnlocked l) :=
  latest_snoc

/-- Calls of the sensor framework are no readings. -/
theorem latestUnlocked_frame {s t : Rotation} (h : Frame s t) :
    latestUnlocked t.log = latestUnlocked s.log :=
  h.latest fun c hc => by cases c <;> first | rfl | exact hc.elim

/-- A callback that does not listen is owed nothing. -/
theorem keepsLatest_of_cbSet {s : Rotation} (h : s.rot.cbSet = false) : s.KeepsLatest :=
  fun hset => absurd (h.symm.trans hset) (by simp)

/-- What is kept in a frame, by a call whose return is no news. -/
theorem KeepsLatest.returns {s t : Rotation} {c : Call} {v : View} (h : s.KeepsLatest)
    (hframe : Frame s t) (hview : t.view = v) (hset : v.cbSet = s.rot.cbSet)
    (hc : c.updatesLatest = none) : (t.record c).KeepsLatest := by
  intro hlisten m hm
  have hset' : s.rot.cbSet = true :=
    hset.symm.trans ((congrArg View.cbSet hview).symm.trans hlisten)
  rw [record, latestUnlocked_snoc, hc, Option.getD_none, latestUnlocked_frame hframe] at hm
  obtain ⟨hchanged, htold⟩ := h hset' m hm
  exact ⟨hframe.changedM.trans hchanged,
    htold.imp hframe.mode.trans fun hne => hframe.changedHandle ▸ hne⟩

/-- The exits of the set and unset calls keep the latest reading. -/
theorem keepsLatest_call {s t : Rotation} {a : Answers} {c : Api} {r : ℤ}
    (h : s.KeepsLatest) (hpause : c ≠ .pause) (hresume : c ≠ .resume) (hframe : Frame s t)
    (hr : Returns a s.rotateLock s.view c r t.view) :
    (t.record (c.returned r)).KeepsLatest := by
  generalize hview : t.view = v at hr
  cases hr with
  | setRefused => exact h.returns hframe hview rfl rfl
  | setFailed => exact keepsLatest_of_cbSet (congrArg View.cbSet hview)
  | set =>
      intro _ m hm
      rw [record, latestUnlocked_snoc] at hm
      exact absurd hm (by simp [Api.returned, Call.updatesLatest])
  | unsetNone => exact h.returns hframe hview rfl rfl
  | unsetFailed => exact h.returns hframe hview rfl rfl
  | unset => exact keepsLatest_of_cbSet (congrArg View.cbSet hview)
  | pauseNone => exact absurd rfl hpause
  | pauseFailed => exact absurd rfl hpause
  | pause => exact absurd rfl hpause
  | resumeNone => exact absurd rfl hresume
  | resumeRefused => exact absurd rfl hresume
  | resumeFailed => exact absurd rfl hresume
  | resume => exact absurd rfl hresume

/-- A new reading is told or deferred. -/
theorem Settles.keepsLatest {s t : Rotation} {m : AppcoreRm} {direct : Prop} {data : Ptr}
    {a : Answers} (hs : Settles s m direct data a .done t) (hadd : a.handlerAdd = true)
    (hlog : latestUnlocked s.log = some m) : t.KeepsLatest := by
  intro hset k hk
  cases hs with
  | told htold =>
      obtain rfl : m = k := Option.some.inj (hlog.symm.trans hk)
      exact ⟨rfl, .inl (htold hset)⟩
  | @deliver f =>
      have hcallback : latestUnlocked (s.record (.callback f m data)).log = some m :=
        (latestUnlocked_snoc ..).trans hlog
      obtain rfl : m = k := Option.some.inj (hcallback.symm.trans hk)
      exact ⟨rfl, .inl rfl⟩
  | defer _ _ _ hhandle =>
      obtain rfl : m = k := Option.some.inj (hlog.symm.trans hk)
      exact ⟨rfl, .inr (hhandle hadd)⟩

/-- **A step keeps the latest reading.** -/
theorem keepsLatest_step {s : Rotation} {x : Input} (hx : x.Plain) (hwf : s.WellFormed)
    (h : s.KeepsLatest) : (step s x).KeepsLatest := by
  have ho := step_outcome x hwf
  obtain ⟨e, a, ρ⟩ := x
  obtain ⟨hpause, hresume, hadd, rfl⟩ := hx
  generalize step s _ = t at ho ⊢
  cases ho with
  | @api c _ ho =>
      cases ho with
      | call hframe hreturns =>
          exact keepsLatest_call h (fun hc => hpause (hc ▸ rfl)) (fun hc => hresume (hc ▸ rfl))
            hframe hreturns
      | resumeTold => exact absurd rfl hresume
      | resumeDeliver => exact absurd rfl hresume
  | sensorIgnored => exact h
  | sensorLocked =>
      intro hset m hm
      rw [record, latestUnlocked_snoc] at hm
      exact h hset m hm
  | sensor _ _ hs => exact hs.keepsLatest hadd (latestUnlocked_snoc ..)
  | lockUnfollowed => exact h
  | lockQuiet => exact h
  | unlock _ hs => exact hs.keepsLatest hadd (latestUnlocked_snoc ..)
  | propertyIgnored => exact h
  | propertyTold _ htold =>
      intro hset m hm
      obtain ⟨hchanged, -⟩ := h hset m hm
      exact ⟨hchanged, .inl ((htold hset).trans hchanged)⟩
  | @propertyDeliver f =>
      intro hset m hm
      have hlog : latestUnlocked (s.record (.callback f s.changedM s.changedData)).log =
          latestUnlocked s.log := latestUnlocked_snoc ..
      obtain ⟨hchanged, -⟩ := h hset m (hlog.symm.trans hm)
      exact ⟨hchanged, .inl hchanged⟩

/-- At first no callback listens. -/
theorem keepsLatest_init (rotateLock : Bool) : (init rotateLock).KeepsLatest :=
  keepsLatest_of_cbSet rfl

/-- **No rotation is lost**: after a run without pause and resume calls in which property
handlers can be registered, a callback that listens to an unlocked rotation has been told
the latest reading, or exactly that one is pending. -/
theorem latest_told_or_pending (rotateLock : Bool) {xs : List Input}
    (hxs : ∀ x ∈ xs, x.Plain) :
    let s := Machine.run step (init rotateLock) xs
    s.rot.cbSet = true → s.rot.lock = false → ∀ m, latestUnlocked s.log = some m →
      s.rot.mode = m ∨ (s.changedHandle ≠ none ∧ s.changedM = m) := by
  intro s hset _ m hm
  have hkeeps : s.WellFormed ∧ s.KeepsLatest :=
    Machine.AtEach.run_invariant (I := fun s : Rotation => s.WellFormed ∧ s.KeepsLatest)
      (fun s x h hx => ⟨wellFormed_step s x h.1, keepsLatest_step hx h.1 h.2⟩)
      ⟨wellFormed_init rotateLock, keepsLatest_init rotateLock⟩
      (Machine.atEach_of_forall hxs)
  obtain ⟨hchanged, htold⟩ := hkeeps.2 hset m hm
  exact htold.imp_right fun hne => ⟨hne, hchanged⟩

/-! ### What told and pending mean -/

/-- A property event on the rotation lock leaves a callback that listens with the mode that
was pending. -/
theorem mode_property {s : Rotation} (hwf : s.WellFormed) (hset : s.rot.cbSet = true)
    (hpending : s.changedHandle ≠ none) (a : Answers) :
    (step s ⟨.property s.atomRotationLock, a, .done⟩).rot.mode = s.changedM := by
  have ho := step_outcome ⟨.property s.atomRotationLock, a, .done⟩ hwf
  generalize step s _ = t at ho ⊢
  generalize hatom : s.atomRotationLock = atom at ho
  cases ho with
  | propertyIgnored hignored =>
      rcases hignored with hother | hnone
      · exact absurd hatom.symm hother
      · exact absurd hnone hpending
  | propertyTold _ htold => exact htold hset
  | propertyDeliver => rfl

/-- **What told and pending mean**, in every state of such a run: `rot.mode` is the mode
that the callback was invoked with last. A handler `changed_handle` is the one that is live,
and the property event it waits for leaves the application told `changed_m`. -/
theorem told_and_pending (rotateLock : Bool) {xs : List Input} (hxs : ∀ x ∈ xs, x.Plain) :
    let s := Machine.run step (init rotateLock) xs
    s.rot.mode = (reports s.log).getLastD .unknown ∧
      s.handlers = s.changedHandle.toList ∧
      (s.rot.cbSet = true → s.changedHandle ≠ none → ∀ a,
        (reports (step s ⟨.property s.atomRotationLock, a, .done⟩).log).getLastD .unknown =
          s.changedM) := by
  intro s
  obtain ⟨hwf, h⟩ : s.WellFormed ∧ s.NoDuplicate :=
    reported_run rotateLock fun x hx => (hxs x hx).2.2.2
  refine ⟨h.mode, hwf.handlers, fun hset hpending a => ?_⟩
  have hnext : (step s ⟨.property s.atomRotationLock, a, .done⟩).NoDuplicate :=
    h.reports (reports_step _ rfl hwf)
  rw [← hnext.mode]
  exact mode_property hwf hset hpending a

/-- A rotation that the root window holds back. -/
def heldRotation : List Input :=
  [⟨.api (.set (some 1) (some 10)), granted, .done⟩,
   ⟨.sensor 0 true .event90, { granted with propVal := 1 }, .done⟩]

/-- The rotation that is held back has not been told yet: it is pending. -/
theorem latest_pending_heldRotation :
    let s := Machine.run step (init false) heldRotation
    s.rot.mode = .landscapeNormal ∨ (s.changedHandle ≠ none ∧ s.changedM = .landscapeNormal) :=
  latest_told_or_pending false (by simp [heldRotation, Input.Plain, granted]) rfl rfl
    .landscapeNormal rfl

end Rotation

end AppCore
