import AppCore.RotationLock

/-!
# The Lock of the Window Manager

While the property `_E_ROTATION_LOCK` of the root window can be read and is not zero, the
window manager holds the rotation back: the callback should not be invoked, and a rotation
that occurs should be deferred. Of the four places that invoke the callback only
`__changed_cb` reads the property. `__lock_cb` decides on a variable that it has not
assigned, a resume call delivers without asking, and `__property` takes any change of the
property for its end.

## Main results

* `invokes_resume_iff`: when a resume call delivers.
* `settle_respectsHeld`: when a reading that is settled is deferred.
* `respectsHeld_step`: which single steps respect the property.
* `heldRespected_iff`: **a run respects the property** exactly when, while it holds the
  rotation back, no property event meets a due deferral and every rotation that occurs can
  be deferred where it is found.
-/

set_option autoImplicit false

namespace AppCore

namespace Rotation

/-- The property can be read and is not zero while the step is made. -/
def Answers.Held (a : Answers) : Prop :=
  1 ≤ a.propRet ∧ a.propVal ≠ 0

/-- A resume call gets as far as the query. -/
def Restarts (s : Rotation) (a : Answers) : Prop :=
  s.rot.callback ≠ none ∧ (s.rot.cbSet = true ∨ 0 ≤ a.sfRegisterEvent) ∧
    (s.rot.sfStarted = true ∨ 0 ≤ a.sfStart)

/-- A rotation occurs: while the user's lock is off, a rotation event, the query of an
unlock notification or the query of a resume call tells the module a mode that the
application does not have. -/
inductive Rotates (s : Rotation) : Input → Source → AppcoreRm → Prop
  | event {handle : ℤ} {e : RotateState} {a : Answers} {ρ : Reaction} :
      s.registration.live handle ≠ none → s.rot.lock = false → s.rot.cbSet = true →
      s.rot.mode ≠ getMode e → Rotates s ⟨.sensor handle true e, a, ρ⟩ (.event false) (getMode e)
  | unlock {e : RotateState} {a : Answers} {ρ : Reaction} : s.lockRegistered ≠ none →
      s.rot.cbSet = true → a.sfCheckRotation = some e → s.rot.mode ≠ getMode e →
      Rotates s ⟨.lockChange false, a, ρ⟩ .unlock (getMode e)
  | resume {e : RotateState} {a : Answers} {ρ : Reaction} : s.Restarts a →
      a.sfCheckRotation = some e → s.rot.mode ≠ getMode e →
      ¬ (a.vconfGetBool = true ∧ s.rotateLock = true) →
      Rotates s ⟨.api .resume, a, ρ⟩ .resume (getMode e)

/-- The mode is left to a property handler, with the data for the callback. -/
def Deferred (m : AppcoreRm) (data : Ptr) (s : Rotation) : Prop :=
  s.changedHandle ≠ none ∧ s.changedM = m ∧ s.changedData = data

/-- From `s` to `t` no callback is invoked, and what rotation occurs is deferred. -/
def KeepsHeld (s : Rotation) (x : Input) (t : Rotation) : Prop :=
  ¬ Invokes s t ∧ ∀ src m, Rotates s x src m → Deferred m s.rot.cbdata t

/-- A step that is made while the property holds the rotation back invokes no callback, and
defers what rotation occurs. -/
def RespectsHeld (s : Rotation) (x : Input) : Prop :=
  x.answers.Held → KeepsHeld s x (step s x)

/-- A rotation from this source can be deferred: a property handler can be added; on an
unlock notification, also what is in the place of `val` is not zero; a resume call defers
nothing. -/
def Answers.CanDefer (a : Answers) : Source → Prop
  | .event _ => a.handlerAdd = true
  | .unlock => a.val ≠ 0 ∧ a.handlerAdd = true
  | .resume => False

/-- No deferral is due on a property event, and a rotation can be deferred where it is
found. -/
def CanHold (s : Rotation) (x : Input) : Prop :=
  ¬ DueProperty s x ∧ ∀ src m, Rotates s x src m → x.answers.CanDefer src

/-! ### Resume calls -/

section Resume

variable (react : Rotation → Rotation) {s : Rotation} {a : Answers}

/-- With a sensor that is started a resume call gets to its query. -/
theorem resumeStart_of_ok (hstart : s.rot.sfStarted = true ∨ 0 ≤ a.sfStart) :
    ∃ t, Frame s t ∧ t.view = s.view ∧ resumeStart react a s = resumeRead react a t := by
  rw [resumeStart]
  split
  next hstopped =>
    have hok : ¬ a.sfStart < 0 := (hstart.resolve_left (by simp [hstopped])).not_gt
    dsimp only
    rw [if_neg hok]
    refine ⟨{ s.sfStart s.rot.handle a with rot.sfStarted := true }, ?_, ?_, rfl⟩
    · exact (frame_sfStart s.rot.handle a s).trans (frame_withRot _ _ rfl)
    · exact view_sfStart s.rot.handle a s
  next => exact ⟨s, .refl s, rfl, rfl⟩

/-- Where the sensor cannot be started nothing is delivered. -/
theorem resumeStart_of_not (hstart : ¬ (s.rot.sfStarted = true ∨ 0 ≤ a.sfStart)) :
    Frame s (resumeStart react a s).2 := by
  rw [not_or, Bool.not_eq_true, not_le] at hstart
  obtain ⟨hstopped, hfail⟩ := hstart
  rw [resumeStart, if_pos hstopped]
  have hstart := frame_sfStart s.rot.handle a s
  have hunreg := hstart.trans (frame_sfUnregisterEvent (s.sfStart s.rot.handle a).rot.handle a _)
  dsimp only
  rw [if_pos hfail]
  exact hunreg.trans (frame_withRot _ _ rfl)

/-- What a resume call goes on with once it has registered the callback anew. -/
theorem registerAnew (a : Answers) (s : Rotation) :
    let t : Rotation := { s.sfRegisterEvent s.rot.handle s.rot.cbdata a with rot.cbSet := true }
    Frame s t ∧ t.view = { s.view with cbSet := true } ∧
      t.rot.sfStarted = s.rot.sfStarted := by
  refine ⟨(frame_sfRegisterEvent _ _ a s).trans (frame_withRot _ _ rfl),
    view_setCbSet true (view_sfRegisterEvent _ _ a s), ?_⟩
  dsimp only
  rw [sfRegisterEvent]
  split <;> rfl

/-- A resume call that gets as far as the query. -/
theorem resumeRotationCb_of_restarts (h : s.Restarts a) :
    ∃ t, Frame s t ∧ t.view = { s.view with cbSet := true } ∧
      s.resumeRotationCb react a = resumeRead react a t := by
  obtain ⟨hcb, hregister, hstart⟩ := h
  rw [resumeRotationCb, if_neg hcb]
  split
  next hset =>
    have hok : ¬ a.sfRegisterEvent < 0 := (hregister.resolve_left (by simp [hset])).not_gt
    obtain ⟨hframe, hview, hstarted⟩ := registerAnew a s
    obtain ⟨t, hframe', hview', heq⟩ := resumeStart_of_ok react (hstarted.symm ▸ hstart)
    dsimp only
    rw [if_neg hok]
    exact ⟨t, hframe.trans hframe', hview'.trans hview, heq⟩
  next hset =>
    rw [Bool.not_eq_false] at hset
    obtain ⟨t, hframe, hview, heq⟩ := resumeStart_of_ok react hstart
    refine ⟨t, hframe, hview.trans ?_, heq⟩
    simp [view, hset]

/-- A resume call that does not. -/
theorem frame_resumeRotationCb (h : ¬ s.Restarts a) :
    Frame s (s.resumeRotationCb react a).2 := by
  rw [resumeRotationCb]
  split
  next => exact .refl s
  next hcb =>
    split
    next hset =>
      dsimp only
      split
      next => exact frame_sfRegisterEvent _ _ a s
      next hok =>
        obtain ⟨hframe, -, hstarted⟩ := registerAnew a s
        refine hframe.trans (resumeStart_of_not react ?_)
        rw [hstarted]
        exact fun hstart => h ⟨hcb, .inr (not_lt.mp hok), hstart⟩
    next hset =>
      rw [Bool.not_eq_false] at hset
      exact resumeStart_of_not react fun hstart => h ⟨hcb, .inl hset, hstart⟩

end Resume

/-- An invocation stays in the trace. -/
theorem Invokes.append {s t u : Rotation} {l : List Call} (h : Invokes s t)
    (hlog : u.log = t.log ++ l) : Invokes s u := by
  obtain ⟨c, hc, hcall⟩ := h
  refine ⟨c, ?_, hcall⟩
  rw [hlog, List.drop_append]
  exact List.mem_append_left _ hc

/-- The end of a resume call delivers what is new to the application, unless the user has
locked the rotation. -/
theorem invokes_resumeDeliver {s t : Rotation} (ρ : Reaction) (m : AppcoreRm) (r : ℤ)
    (hframe : Frame s t) (hcb : t.rot.callback ≠ none) :
    Invokes s ((t.resumeDeliver ρ.run m).record (.resumeRotationCb r)) ↔
      t.rot.mode ≠ m ∧ t.rot.lock = false := by
  obtain ⟨f, hf⟩ := Option.ne_none_iff_exists'.mp hcb
  obtain ⟨cs, -, hlog⟩ := hframe.log
  let u := t.record (.reading .resume m)
  have hprefix : s.log <+: u.log :=
    ⟨cs ++ [.reading .resume m], by simp [u, record, hlog, List.append_assoc]⟩
  rw [resumeDeliver]
  split
  next hdue =>
    refine iff_of_true ?_ hdue
    rw [deliver_eq (s := u) m _ hf]
    exact (invokes_reaction ρ f m t.rot.cbdata hprefix).append rfl
  next hdue =>
    refine iff_of_false (not_invokes_of_frame hframe (List.append_assoc ..) ?_) hdue
    simp [Call.isCallback]

/-- **When a resume call delivers**: it gets as far as the query, and the sensor tells a
rotation. -/
theorem invokes_resume_iff (s : Rotation) (a : Answers) (ρ : Reaction) :
    Invokes s (s.runApi ρ.run .resume a) ↔ ∃ m, Rotates s ⟨.api .resume, a, ρ⟩ .resume m := by
  rw [runApi]
  by_cases hrestarts : s.Restarts a
  · obtain ⟨t, hframe, hview, heq⟩ := resumeRotationCb_of_restarts ρ.run hrestarts
    have hframe' := hframe.trans (frame_addRotlock t.rot.cbdata a t)
    rw [heq]
    cases hq : a.sfCheckRotation with
    | none =>
        rw [resumeRead_of_none ρ.run hq]
        refine iff_of_false (not_invokes_of_frame hframe' rfl (by simp [Call.isCallback])) ?_
        rintro ⟨m, hm⟩
        cases hm with
        | resume _ hquery => exact absurd (hq.symm.trans hquery) (by simp)
    | some e =>
        have hcb : t.rot.callback ≠ none := fun hnone =>
          hrestarts.1 ((congrArg View.callback hview).symm.trans hnone)
        have hmode : (t.addRotlock t.rot.cbdata a).rot.mode = s.rot.mode := hframe'.mode
        have hlock : (t.addRotlock t.rot.cbdata a).rot.lock = false ↔
            ¬ (a.vconfGetBool = true ∧ s.rotateLock = true) := by
          rw [← hframe.rotateLock]
          simp [addRotlock]
        rw [resumeRead_of_some ρ.run hq]
        refine (invokes_resumeDeliver ρ (getMode e) 0 hframe' hcb).trans ?_
        rw [hmode, hlock]
        constructor
        · rintro ⟨hne, hoff⟩
          exact ⟨getMode e, .resume hrestarts hq hne hoff⟩
        · rintro ⟨m, hm⟩
          cases hm with
          | resume _ hquery hne hoff =>
              obtain rfl := Option.some.inj (hq.symm.trans hquery)
              exact ⟨hne, hoff⟩
  · have hframe := frame_resumeRotationCb ρ.run hrestarts
    refine iff_of_false (not_invokes_of_frame hframe rfl (by simp [Call.isCallback])) ?_
    rintro ⟨m, hm⟩
    cases hm with
    | resume hrestarts' => exact hrestarts hrestarts'

/-! ### Readings -/

/-- **A reading that is settled** is deferred, and invokes no callback, exactly if in case
of a rotation it is not delivered at once and a property handler can be added. -/
theorem settle_respectsHeld {s t : Rotation} {l : List Call} (m : AppcoreRm) (direct : Prop)
    [Decidable direct] (data : Ptr) (a : Answers) (ρ : Reaction) (hlog : t.log = s.log ++ l)
    (hl : ∀ c ∈ l, c.isCallback = false) (hcb : t.rot.callback ≠ none) :
    ¬ Invokes s (t.settle ρ.run m direct data a) ∧
      (t.rot.cbSet = true ∧ t.rot.mode ≠ m →
        Deferred m data (t.settle ρ.run m direct data a)) ↔
      (t.rot.cbSet = true ∧ t.rot.mode ≠ m → ¬ direct ∧ a.handlerAdd = true) := by
  rw [settle]
  by_cases hdue : t.rot.cbSet = true ∧ t.rot.mode ≠ m
  · rw [if_pos hdue, forall_prop_of_true hdue, forall_prop_of_true hdue]
    by_cases hdirect : direct
    · obtain ⟨f, hf⟩ := Option.ne_none_iff_exists'.mp hcb
      rw [if_pos hdirect, deliver_eq m data hf]
      have hinvokes := invokes_reaction ρ f m data ⟨l, hlog.symm⟩
      exact iff_of_false (fun h => h.1 hinvokes) fun h => h.1 hdirect
    · obtain ⟨-, hsame, hdata, hhandle⟩ := defer_spec data a t
      rw [if_neg hdirect]
      constructor
      · rintro ⟨-, hdeferred⟩
        exact ⟨hdirect, hhandle.mp hdeferred.1⟩
      · rintro ⟨-, hadd⟩
        exact ⟨not_invokes_of_log (hsame.trans hlog) hl, hhandle.mpr hadd, rfl, hdata⟩
  · rw [if_neg hdue]
    exact iff_of_true ⟨not_invokes_of_log hlog hl, fun h => absurd h hdue⟩
      fun h => absurd h hdue

/-! ### Steps -/

/-- Where nothing occurs, nothing has to be deferred. -/
theorem keepsHeld_of_quiet {s t : Rotation} {x : Input} (hinvokes : ¬ Invokes s t)
    (hdue : ¬ DueProperty s x) (hrotates : ∀ src m, ¬ Rotates s x src m) :
    KeepsHeld s x t ↔ CanHold s x :=
  iff_of_true ⟨hinvokes, fun src m h => absurd h (hrotates src m)⟩
    ⟨hdue, fun src m h => absurd h (hrotates src m)⟩

/-- Where one rotation may occur, `due` telling whether it does, that one has to be
deferred. -/
theorem keepsHeld_of_rotates {s t : Rotation} {x : Input} (src : Source) (m : AppcoreRm)
    (due : Prop) (hproperty : ¬ DueProperty s x)
    (hrotates : ∀ src' m', Rotates s x src' m' ↔ due ∧ src' = src ∧ m' = m)
    (h : ¬ Invokes s t ∧ (due → Deferred m s.rot.cbdata t) ↔ (due → x.answers.CanDefer src)) :
    KeepsHeld s x t ↔ CanHold s x := by
  have hone : ∀ P : Source → AppcoreRm → Prop,
      (∀ src' m', Rotates s x src' m' → P src' m') ↔ (due → P src m) := by
    intro P
    constructor
    · intro hP hdue
      exact hP src m ((hrotates src m).mpr ⟨hdue, rfl, rfl⟩)
    · intro hP src' m' hm
      obtain ⟨hdue, rfl, rfl⟩ := (hrotates src' m').mp hm
      exact hP hdue
  rw [KeepsHeld, CanHold, and_iff_right hproperty, hone fun _ m => Deferred m s.rot.cbdata t,
    hone fun src _ => x.answers.CanDefer src]
  exact h

/-- Of the API calls the resume call alone may deliver, and it does not look at the property. -/
theorem keepsHeld_api (s : Rotation) (c : Api) (a : Answers) (ρ : Reaction) :
    KeepsHeld s ⟨.api c, a, ρ⟩ (s.runApi ρ.run c a) ↔ CanHold s ⟨.api c, a, ρ⟩ := by
  have hdue : ¬ DueProperty s ⟨.api c, a, ρ⟩ := by simp [DueProperty]
  by_cases hc : c = .resume
  · subst hc
    have hinvokes := invokes_resume_iff s a ρ
    by_cases hrotates : ∃ m, Rotates s ⟨.api .resume, a, ρ⟩ .resume m
    · obtain ⟨m, hm⟩ := hrotates
      exact iff_of_false (fun h => h.1 (hinvokes.mpr ⟨m, hm⟩)) fun h => h.2 .resume m hm
    · refine keepsHeld_of_quiet (fun h => hrotates (hinvokes.mp h)) hdue fun src m hm => ?_
      cases hm with
      | resume hrestarts hq hne hoff => exact hrotates ⟨_, .resume hrestarts hq hne hoff⟩
  · refine keepsHeld_of_quiet ?_ hdue fun src m hm => ?_
    · have ho : ApiOutcome ρ.run a s c (s.runApi ρ.run c a) := apiOutcome_runApi c a s
      generalize s.runApi ρ.run c a = t at ho
      cases ho with
      | call hframe =>
          refine not_invokes_of_frame hframe rfl ?_
          cases c <;> simp [Api.returned, Call.isCallback]
      | resumeTold => exact absurd rfl hc
      | resumeDeliver => exact absurd rfl hc
    · cases hm with
      | resume => exact hc rfl

/-- A rotation event looks at the property, and defers if a handler can be added. -/
theorem keepsHeld_sensor {s : Rotation} (hwf : s.WellFormed) (handle : ℤ)
    (rotationCheck : Bool) (e : RotateState) {a : Answers} (ρ : Reaction) (hheld : a.Held) :
    KeepsHeld s ⟨.sensor handle rotationCheck e, a, ρ⟩
        (s.sensorEvent ρ.run handle rotationCheck e a) ↔
      CanHold s ⟨.sensor handle rotationCheck e, a, ρ⟩ := by
  have hdue : ¬ DueProperty s ⟨.sensor handle rotationCheck e, a, ρ⟩ := by simp [DueProperty]
  rw [sensorEvent_eq hwf.coherent]
  split
  next hignored =>
    refine keepsHeld_of_quiet (not_invokes_of_eq rfl) hdue fun src m hm => ?_
    cases hm with
    | event hlive => exact hignored.elim hlive (by simp)
  next hreaches =>
    rw [not_or, Bool.not_eq_false] at hreaches
    obtain ⟨hlive, rfl⟩ := hreaches
    split
    next hlock =>
      refine keepsHeld_of_quiet (not_invokes_of_log rfl (by simp [Call.isCallback])) hdue
        fun src m hm => ?_
      cases hm with
      | event _ hoff => exact absurd (hlock.symm.trans hoff) (by simp)
    next hlock =>
      obtain ⟨data, hdata⟩ := Option.ne_none_iff_exists'.mp hlive
      have hcb : s.rot.callback ≠ none := (hwf.coherent.live_eq handle data hdata).1
      have hread : ¬ (a.propVal = 0 ∨ a.propRet < 1) := by
        rw [not_or, not_lt]
        exact ⟨hheld.2, hheld.1⟩
      have hsettle := settle_respectsHeld (s := s)
        (t := s.record (.reading (.event false) (getMode e))) (getMode e)
        (a.propVal = 0 ∨ a.propRet < 1) s.rot.cbdata a ρ rfl (by simp [Call.isCallback]) hcb
      rw [and_iff_right hread] at hsettle
      refine keepsHeld_of_rotates (.event false) (getMode e)
        (s.rot.cbSet = true ∧ s.rot.mode ≠ getMode e) hdue
        (fun src m => ⟨fun hm => ?_, ?_⟩) hsettle
      · cases hm with
        | event _ _ hset hne => exact ⟨⟨hset, hne⟩, rfl, rfl⟩
      · rintro ⟨⟨hset, hne⟩, rfl, rfl⟩
        exact .event hlive (Bool.eq_false_of_not_eq_true hlock) hset hne

/-- An unlock notification goes by `val`, whatever the property is. -/
theorem keepsHeld_lockChange {s : Rotation} (hwf : s.WellFormed) (lock : Bool) (a : Answers)
    (ρ : Reaction) :
    KeepsHeld s ⟨.lockChange lock, a, ρ⟩ (s.lockChange ρ.run lock a) ↔
      CanHold s ⟨.lockChange lock, a, ρ⟩ := by
  have hdue : ¬ DueProperty s ⟨.lockChange lock, a, ρ⟩ := by simp [DueProperty]
  rw [lockChange_eq hwf.coherent]
  split
  next hreg =>
    refine keepsHeld_of_quiet (not_invokes_of_eq rfl) hdue fun src m hm => ?_
    cases hm with
    | unlock hfollowed => exact hfollowed hreg
  next hfollowed =>
    have hcb : s.rot.callback ≠ none := fun hnone =>
      hfollowed (hwf.coherent.lock_of_callback hnone)
    split
    next hquiet =>
      refine keepsHeld_of_quiet (not_invokes_of_eq rfl) hdue fun src m hm => ?_
      cases hm with
      | unlock _ hset hq => exact absurd (hquiet.symm.trans (if_pos ⟨rfl, hset⟩)) (by simp [hq])
    next e hquery =>
      obtain ⟨⟨rfl, hset⟩, hq⟩ := Option.ite_none_right_eq_some.mp hquery
      have hsettle := settle_respectsHeld (s := s)
        (t := (s.relock false).record (.reading .unlock (getMode e))) (getMode e) (a.val = 0)
        s.rot.cbdata a ρ rfl (by simp [Call.isCallback]) hcb
      refine keepsHeld_of_rotates .unlock (getMode e)
        (s.rot.cbSet = true ∧ s.rot.mode ≠ getMode e) hdue
        (fun src m => ⟨fun hm => ?_, ?_⟩) hsettle
      · cases hm with
        | unlock _ _ hq' hne =>
            obtain rfl := Option.some.inj (hq.symm.trans hq')
            exact ⟨⟨hset, hne⟩, rfl, rfl⟩
      · rintro ⟨⟨-, hne⟩, rfl, rfl⟩
        exact .unlock hfollowed hset hq hne

/-- A property event delivers what is due, whatever the property is. -/
theorem keepsHeld_property {s : Rotation} (hwf : s.WellFormed) (atom : ℕ) (a : Answers)
    (ρ : Reaction) :
    KeepsHeld s ⟨.property atom, a, ρ⟩ (s.propertyEvent ρ.run atom) ↔
      CanHold s ⟨.property atom, a, ρ⟩ := by
  have ho := outcome_property a ρ hwf atom
  have hrotates : ∀ src m, ¬ Rotates s ⟨.property atom, a, ρ⟩ src m := by
    intro src m hm
    cases hm
  generalize s.propertyEvent ρ.run atom = t at ho
  cases ho with
  | propertyIgnored hignored =>
      refine keepsHeld_of_quiet (not_invokes_of_eq rfl) ?_ hrotates
      rintro ⟨heq, hpending, -⟩
      cases heq
      exact hignored.elim (fun hne => hne rfl) hpending
  | propertyTold _ htold =>
      refine keepsHeld_of_quiet (not_invokes_of_eq rfl) ?_ hrotates
      rintro ⟨-, -, hset, hmode⟩
      exact hmode (htold hset)
  | @propertyDeliver f hpending _ hset hmode =>
      have hinvokes := invokes_reaction ρ f s.changedM s.changedData (List.prefix_refl s.log)
      exact iff_of_false (fun h => h.1 hinvokes) fun h => h.1 ⟨rfl, hpending, hset, hmode⟩

/-- **A step respects the property**, unless it meets, while the property holds the
rotation back, a due deferral or a rotation that cannot be deferred. -/
theorem respectsHeld_step {s : Rotation} (x : Input) (hwf : s.WellFormed) :
    RespectsHeld s x ↔ (x.answers.Held → CanHold s x) := by
  refine imp_congr_right fun hheld => ?_
  obtain ⟨e, a, ρ⟩ := x
  cases e with
  | api c => exact keepsHeld_api s c a ρ
  | sensor handle rotationCheck e => exact keepsHeld_sensor hwf handle rotationCheck e ρ hheld
  | lockChange lock => exact keepsHeld_lockChange hwf lock a ρ
  | property atom => exact keepsHeld_property hwf atom a ρ

/-- **The lock of the window manager**: in a run no step that is made while the property
holds the rotation back invokes the callback, and each defers what rotation occurs, exactly
if while it does so no property event meets a due deferral and every rotation that occurs
can be deferred where it is found. -/
theorem heldRespected_iff (rotateLock : Bool) (xs : List Input) :
    Machine.AtEach step RespectsHeld (init rotateLock) xs ↔
      Machine.AtEach step (fun s x => x.answers.Held → CanHold s x) (init rotateLock) xs :=
  Machine.AtEach.congr (G := fun _ _ => True) (fun s x h _ => wellFormed_step s x h)
    (fun _ x h _ => respectsHeld_step x h) (wellFormed_init rotateLock)
    (Machine.atEach_of_forall fun _ _ => trivial)

/-- A rotation that the root window holds back; then the property is set anew, and still
holds it back. -/
def propertySetAnew : List Input :=
  [⟨.api (.set (some 1) (some 10)), granted, .done⟩,
   ⟨.sensor 0 true .event90, { granted with propVal := 1 }, .done⟩,
   ⟨.property 1, { granted with propVal := 1 }, .done⟩]

/-- **A rotation that is held back is delivered**: the property event that sets the lock
property once more tells the application the mode that was deferred. -/
theorem not_heldRespected_propertySetAnew :
    ¬ Machine.AtEach step RespectsHeld (init false) propertySetAnew := by
  rintro ⟨-, -, hlast, -⟩
  have hheld : ({ granted with propVal := 1 } : Answers).Held := by simp [Answers.Held, granted]
  exact (hlast hheld).1 ⟨.callback 1 .landscapeNormal (some 10), by decide, rfl⟩

end Rotation

end AppCore
