import AppCore.RotationInvariant

/-!
# Outcomes of a Step of the Rotation Module

The inversion of `step`: under the invariant of the registration, and with no property
handler live but the one in `changed_handle`, a step ends in one of the states listed
here, under the guards listed with it. All that is said about runs of the module is
proved by cases on an outcome.

## Main results

* `sensorEvent_eq`, `lockChange_eq`: what a sensor event and a notification do.
* `step_outcome`: **what a step can do**.
* `wellFormed_run`: the assumption of `step_outcome` holds in every state that a process
  reaches.
* `reacts_step`, `stays_step`: events change the registration through the callback alone.
-/

set_option autoImplicit false

namespace AppCore

namespace Rotation

/-- The module and the outside agree about registrations and property handlers. -/
structure WellFormed (s : Rotation) : Prop where
  coherent : s.registration.Coherent
  handlers : s.handlers = s.changedHandle.toList

/-- Where a reading `m` that reached the module leaves it. -/
inductive Settles (s : Rotation) (m : AppcoreRm) (direct : Prop) (data : Ptr) (a : Answers)
    (ρ : Reaction) : Rotation → Prop
  /-- The application has the mode already, or does not listen. -/
  | told : (s.rot.cbSet = true → s.rot.mode = m) →
      Settles s m direct data a ρ { s with changedM := m }
  | deliver {f : Addr} : s.rot.callback = some f → s.rot.cbSet = true → s.rot.mode ≠ m →
      direct → Settles s m direct data a ρ
        { ρ.run (s.record (.callback f m data)) with rot.mode := m, changedM := m }
  | defer {handle : Option ℕ} {next : ℕ} : s.rot.cbSet = true → s.rot.mode ≠ m → ¬ direct →
      (a.handlerAdd = true → handle ≠ none) → Settles s m direct data a ρ
        { s with
          changedM := m
          changedData := data
          changedHandle := handle
          handlers := handle.toList
          nextHandler := next }

/-- Where a step leaves the module, by event. -/
inductive Outcome (s : Rotation) (a : Answers) (ρ : Reaction) : Event → Rotation → Prop
  | api {c : Api} {t : Rotation} : ApiOutcome ρ.run a s c t → Outcome s a ρ (.api c) t
  | sensorIgnored {handle : ℤ} {rotationCheck : Bool} {e : RotateState} :
      s.registration.live handle = none ∨ rotationCheck = false →
      Outcome s a ρ (.sensor handle rotationCheck e) s
  | sensorLocked {handle : ℤ} {e : RotateState} : s.rot.lock = true →
      Outcome s a ρ (.sensor handle true e) (s.record (.reading (.event true) (getMode e)))
  | sensor {handle : ℤ} {e : RotateState} {t : Rotation} :
      s.registration.live handle ≠ none → s.rot.lock = false →
      Settles (s.record (.reading (.event false) (getMode e))) (getMode e)
        (a.propVal = 0 ∨ a.propRet < 1) s.rot.cbdata a ρ t →
      Outcome s a ρ (.sensor handle true e) t
  | lockUnfollowed {lock : Bool} : s.lockRegistered = none →
      Outcome s a ρ (.lockChange lock) { s with rotateLock := lock }
  | lockQuiet {lock : Bool} : s.lockRegistered ≠ none →
      Outcome s a ρ (.lockChange lock) { s with rotateLock := lock, rot.lock := lock }
  | unlock {e : RotateState} {t : Rotation} : s.lockRegistered ≠ none →
      Settles ({ s with rotateLock := false, rot.lock := false }.record
        (.reading .unlock (getMode e))) (getMode e) (a.val = 0) s.rot.cbdata a ρ t →
      Outcome s a ρ (.lockChange false) t
  | propertyIgnored {atom : ℕ} : atom ≠ s.atomRotationLock ∨ s.changedHandle = none →
      Outcome s a ρ (.property atom) s
  /-- A deferral that the application need not be told any more. -/
  | propertyTold : s.changedHandle ≠ none →
      (s.rot.cbSet = true → s.rot.mode = s.changedM) →
      Outcome s a ρ (.property s.atomRotationLock)
        { s with handlers := [], changedHandle := none }
  | propertyDeliver {f : Addr} : s.changedHandle ≠ none → s.rot.callback = some f →
      s.rot.cbSet = true → s.rot.mode ≠ s.changedM →
      Outcome s a ρ (.property s.atomRotationLock)
        { ρ.run (s.record (.callback f s.changedM s.changedData)) with
          rot.mode := s.changedM
          changedM := s.changedM
          handlers := []
          changedHandle := none }

/-- An entry that records an invocation of the registered callback. -/
def Call.isCallback : Call → Bool
  | .callback .. => true
  | _ => false

/-- A call of the sensor framework is no invocation. -/
theorem Call.IsSf.isCallback {c : Call} (h : c.IsSf) : c.isCallback = false := by
  cases c <;> first | rfl | exact h.elim

/-- A property event on which `__property` delivers a deferred mode. -/
def DueProperty (s : Rotation) (x : Input) : Prop :=
  x.event = .property s.atomRotationLock ∧ s.changedHandle ≠ none ∧ s.rot.cbSet = true ∧
    s.rot.mode ≠ s.changedM

/-! ### Deferral -/

/-- A deferral leaves at most its own property handler. -/
theorem defer_eq {s : Rotation} (data : Ptr) (a : Answers)
    (h : s.handlers = s.changedHandle.toList) :
    ∃ handle next, (a.handlerAdd = true → handle ≠ none) ∧
      s.defer data a = { s with
        changedData := data
        changedHandle := handle
        handlers := handle.toList
        nextHandler := next } := by
  let s' : Rotation := { s with changedData := data, changedHandle := none, handlers := [] }
  have hdel : s.defer data a = s'.handlerAdd a := by
    cases hk : s.changedHandle with
    | none =>
        have hnil : s.handlers = [] := by simpa [hk] using h
        simp [defer, s', hk, hnil]
    | some k =>
        have hone : s.handlers = [k] := by simpa [hk] using h
        simp [defer, handlerDel, s', hk, hone]
  rw [hdel, handlerAdd]
  split
  next => exact ⟨some s.nextHandler, s.nextHandler + 1, by simp, rfl⟩
  next hfail => exact ⟨none, s.nextHandler, fun hadd => absurd hadd hfail, rfl⟩

/-- A deferral is no entry of the trace; whether it leaves a handler depends on Ecore. -/
theorem defer_spec (data : Ptr) (a : Answers) (s : Rotation) :
    (s.defer data a).rot = s.rot ∧ (s.defer data a).log = s.log ∧
      (s.defer data a).changedData = data ∧
      ((s.defer data a).changedHandle ≠ none ↔ a.handlerAdd = true) := by
  rw [defer]
  split <;> rw [handlerAdd] <;> split <;> simp [handlerDel, *]

/-- The end of `__property` drops the handler that is live. -/
theorem handlerDel_live {s : Rotation} {handle : Option ℕ} (h : s.handlers = handle.toList) :
    s.handlerDel handle = { s with handlers := [] } := by
  cases handle with
  | none => exact congrArg (fun hs => { s with handlers := hs }) h
  | some k => rw [handlerDel, h, Option.toList_some, List.erase_cons_head]

/-- The end that both handlers have in common, by its three cases. -/
theorem settles_settle {s : Rotation} (m : AppcoreRm) (direct : Prop) [Decidable direct]
    (data : Ptr) (a : Answers) (ρ : Reaction) (hcb : s.rot.callback ≠ none)
    (h : s.handlers = s.changedHandle.toList) :
    Settles s m direct data a ρ (s.settle ρ.run m direct data a) := by
  obtain ⟨f, hf⟩ := Option.ne_none_iff_exists'.mp hcb
  obtain ⟨handle, next, hadd, hdefer⟩ := defer_eq data a h
  rw [settle]
  split
  next hset =>
    split
    next hdirect =>
      rw [deliver_eq m data hf]
      exact .deliver hf hset.1 hset.2 hdirect
    next hdirect =>
      rw [hdefer]
      exact .defer hset.1 hset.2 hdirect hadd
  next htold => exact .told fun hset => not_not.mp fun hm => htold ⟨hset, hm⟩

/-! ### The handlers, by event -/

/-- **A sensor event** that reaches an unlocked module is settled with the data of the
callback. -/
theorem sensorEvent_eq {s : Rotation} (h : s.registration.Coherent)
    (react : Rotation → Rotation) (handle : ℤ) (rotationCheck : Bool) (e : RotateState)
    (a : Answers) :
    s.sensorEvent react handle rotationCheck e a =
      if s.registration.live handle = none ∨ rotationCheck = false then s
      else if s.rot.lock = true then s.record (.reading (.event true) (getMode e))
      else (s.record (.reading (.event false) (getMode e))).settle react (getMode e)
        (a.propVal = 0 ∨ a.propRet < 1) s.rot.cbdata a := by
  cases hlive : s.registration.live handle with
  | none => rw [sensorEvent_of_live hlive, if_pos (.inl rfl)]
  | some data =>
      obtain ⟨hcb, -, rfl⟩ := h.live_eq handle data hlive
      rw [sensorEvent_of_live_some hlive]
      cases rotationCheck with
      | false => rw [if_neg (by simp), changedCb_ignored _ (.inr rfl), if_pos (.inr rfl)]
      | true =>
          rw [if_pos rfl, if_neg (by simp)]
          cases hlock : s.rot.lock with
          | true => rw [changedCb_ignored (s := s.record _) _ (.inl hlock), if_pos rfl]
          | false =>
              rw [changedCb_unlocked (s := s.record _) _ e _ a hlock hcb, if_neg (by simp)]
              rfl

/-- The answer of the query that `__lock_cb` makes, on an unlock notification for a callback
that is not paused. -/
def unlockQuery (lock : Bool) (a : Answers) (s : Rotation) : Option RotateState :=
  if lock = false ∧ s.rot.cbSet = true then a.sfCheckRotation else none

/-- The setting and the flag change. -/
def relock (lock : Bool) (s : Rotation) : Rotation :=
  { s with
    rotateLock := lock
    rot.lock := lock }

/-- **A change of the lock setting** that is notified sets the flag; what the query answers
is settled with the data of the callback. -/
theorem lockChange_eq {s : Rotation} (h : s.registration.Coherent)
    (react : Rotation → Rotation) (lock : Bool) (a : Answers) :
    s.lockChange react lock a =
      if s.lockRegistered = none then { s with rotateLock := lock }
      else
        match s.unlockQuery lock a with
        | none => s.relock lock
        | some e => ((s.relock lock).record (.reading .unlock (getMode e))).settle react
            (getMode e) (a.val = 0) s.rot.cbdata a := by
  rw [lockChange]
  split
  next data hreg =>
    have hreg : s.lockRegistered = some data := hreg
    have hfollowed : s.lockRegistered ≠ none := by simp [hreg]
    have hcb : s.rot.callback ≠ none := fun hnone => hfollowed (h.lock_of_callback hnone)
    obtain rfl : data = s.rot.cbdata := h.lock_data data hreg
    rw [if_neg hfollowed]
    cases hq : s.unlockQuery lock a with
    | none =>
        refine lockCb_quiet _ _ _ _ ?_
        by_cases hquery : lock = false ∧ s.rot.cbSet = true
        · exact .inr (.inr (.inr ((if_pos hquery).symm.trans hq)))
        · simp only [not_and_or, Bool.not_eq_false, Bool.not_eq_true] at hquery
          exact hquery.imp_right fun hset => .inr (.inl hset)
    | some e =>
        obtain ⟨⟨rfl, hset⟩, hquery⟩ := Option.ite_none_right_eq_some.mp hq
        exact lockCb_query _ _ a hcb hset hquery
  next hreg =>
    have hreg : s.lockRegistered = none := hreg
    rw [if_pos hreg]

/-! ### The outcomes, by event -/

variable {s : Rotation} (a : Answers) (ρ : Reaction) (h : s.WellFormed)
include h

/-- A sensor event has one of the outcomes. -/
theorem outcome_sensor (handle : ℤ) (rotationCheck : Bool) (e : RotateState) :
    Outcome s a ρ (.sensor handle rotationCheck e)
      (s.sensorEvent ρ.run handle rotationCheck e a) := by
  rw [sensorEvent_eq h.coherent]
  split
  next hignored => exact .sensorIgnored hignored
  next hreaches =>
    rw [not_or, Bool.not_eq_false] at hreaches
    obtain ⟨hlive, rfl⟩ := hreaches
    obtain ⟨data, hdata⟩ := Option.ne_none_iff_exists'.mp hlive
    have hcb : s.rot.callback ≠ none := (h.coherent.live_eq handle data hdata).1
    split
    next hlock => exact .sensorLocked hlock
    next hlock =>
      exact .sensor hlive (Bool.eq_false_of_not_eq_true hlock)
        (settles_settle _ _ _ a ρ hcb h.handlers)

/-- A change of the setting has one of the outcomes. -/
theorem outcome_lockChange (lock : Bool) :
    Outcome s a ρ (.lockChange lock) (s.lockChange ρ.run lock a) := by
  rw [lockChange_eq h.coherent]
  split
  next hreg => exact .lockUnfollowed hreg
  next hfollowed =>
    have hcb : s.rot.callback ≠ none := fun hnone =>
      hfollowed (h.coherent.lock_of_callback hnone)
    split
    next => exact .lockQuiet hfollowed
    next e hq =>
      obtain ⟨⟨rfl, -⟩, -⟩ := Option.ite_none_right_eq_some.mp hq
      exact .unlock hfollowed (settles_settle _ _ _ a ρ hcb h.handlers)

/-- With at most one live handler, an event is one run of `__property`, or none. -/
theorem propertyEvent_eq (react : Rotation → Rotation) (atom : ℕ) :
    s.propertyEvent react atom =
      if s.changedHandle = none then s else s.property react atom := by
  rw [propertyEvent, h.handlers]
  cases hk : s.changedHandle with
  | none => rfl
  | some k =>
      have hlive : k ∈ s.handlers := by simp [h.handlers, hk]
      simp [hlive]

/-- A property event has one of the outcomes. -/
theorem outcome_property (atom : ℕ) :
    Outcome s a ρ (.property atom) (s.propertyEvent ρ.run atom) := by
  rw [propertyEvent_eq h]
  split
  next hnone => exact .propertyIgnored (.inr hnone)
  next hpending =>
    rw [property]
    split
    next hatom =>
      subst hatom
      dsimp only
      split
      next hdue =>
        have hcb : s.rot.callback ≠ none := h.coherent.callback_of_cbSet hdue.1
        obtain ⟨f, hf⟩ := Option.ne_none_iff_exists'.mp hcb
        -- the reaction of the callback leaves the handler for the end of `__property`
        have hcalls := calls_reaction ρ (s.record (.callback f s.changedM s.changedData))
        have hlive : (ρ.run (s.record (.callback f s.changedM s.changedData))).handlers =
            (ρ.run (s.record (.callback f s.changedM s.changedData))).changedHandle.toList := by
          rw [hcalls.handlers, hcalls.changedHandle]
          exact h.handlers
        rw [invoke, hf]
        dsimp only
        rw [handlerDel_live, hcalls.changedM]
        · exact .propertyDeliver hpending hf hdue.1 hdue.2
        · exact hlive
      next htold =>
        rw [handlerDel_live h.handlers]
        exact .propertyTold hpending fun hset => not_not.mp fun hm => htold ⟨hset, hm⟩
    next hatom => exact .propertyIgnored (.inl hatom)

omit h

/-- **What a step can do.** -/
theorem step_outcome {s : Rotation} (x : Input) (h : s.WellFormed) :
    Outcome s x.answers x.reaction x.event (step s x) := by
  obtain ⟨e, a, ρ⟩ := x
  cases e with
  | api c => exact .api (apiOutcome_runApi c a s)
  | sensor handle rotationCheck e => exact outcome_sensor a ρ h handle rotationCheck e
  | lockChange lock => exact outcome_lockChange a ρ h lock
  | property atom => exact outcome_property a ρ h atom

/-! ### Well-formedness along runs -/

/-- Steps that leave the registration alone and keep track of the handler. -/
theorem wellFormed_congr {s t : Rotation} (h : s.WellFormed)
    (hreg : t.registration = s.registration) (hhandlers : t.handlers = t.changedHandle.toList) :
    t.WellFormed :=
  ⟨hreg.symm ▸ h.coherent, hhandlers⟩

/-- One more entry of the trace does not matter. -/
theorem WellFormed.record {s : Rotation} (h : s.WellFormed) (c : Call) :
    (s.record c).WellFormed :=
  ⟨h.coherent, h.handlers⟩

/-- Calls leave the property handlers alone, so the registration decides. -/
theorem WellFormed.calls {s t : Rotation} (h : s.WellFormed) (hcalls : Calls s t)
    (hcoherent : t.registration.Coherent) : t.WellFormed where
  coherent := hcoherent
  handlers := by
    rw [hcalls.handlers, hcalls.changedHandle]
    exact h.handlers

/-- A reaction of the callback keeps the module well-formed. -/
theorem wellFormed_reaction (ρ : Reaction) {s : Rotation} (h : s.WellFormed) :
    (ρ.run s).WellFormed :=
  h.calls (calls_reaction ρ s) (coherent_reaction ρ s h.coherent)

/-- An API call keeps the module well formed. -/
theorem wellFormed_runApi (ρ : Reaction) (c : Api) (a : Answers) {s : Rotation}
    (h : s.WellFormed) : (s.runApi ρ.run c a).WellFormed :=
  h.calls (calls_runApi ρ c a s)
    (coherent_runApi (fun t => coherent_reaction ρ t) c a h.coherent)

/-- A reading keeps the module well formed. -/
theorem Settles.wellFormed {s t : Rotation} {m : AppcoreRm} {direct : Prop} {data : Ptr}
    {a : Answers} {ρ : Reaction} (hs : Settles s m direct data a ρ t) (h : s.WellFormed) :
    t.WellFormed := by
  cases hs with
  | told => exact wellFormed_congr h rfl h.handlers
  | @deliver f =>
      have hr := wellFormed_reaction ρ (h.record (.callback f m data))
      exact wellFormed_congr hr rfl hr.handlers
  | defer => exact wellFormed_congr h rfl rfl

/-- **A step keeps the module well-formed.** -/
theorem wellFormed_step (s : Rotation) (x : Input) (h : s.WellFormed) :
    (step s x).WellFormed := by
  have ho := step_outcome x h
  obtain ⟨e, a, ρ⟩ := x
  cases e with
  | api c => exact wellFormed_runApi ρ c a h
  | sensor handle rotationCheck e =>
      generalize step s _ = t at ho ⊢
      cases ho with
      | sensorIgnored => exact h
      | sensorLocked => exact h.record _
      | sensor _ _ hs => exact hs.wellFormed (h.record _)
  | lockChange lock =>
      generalize step s _ = t at ho ⊢
      cases ho with
      | lockUnfollowed => exact wellFormed_congr h rfl h.handlers
      | lockQuiet => exact wellFormed_congr h rfl h.handlers
      | unlock _ hs => exact hs.wellFormed (wellFormed_congr h rfl h.handlers)
  | property atom =>
      generalize step s _ = t at ho ⊢
      cases ho with
      | propertyIgnored => exact h
      | propertyTold => exact wellFormed_congr h rfl rfl
      | @propertyDeliver f =>
          have hr := wellFormed_reaction ρ (h.record (.callback f s.changedM s.changedData))
          exact wellFormed_congr hr rfl rfl

/-- The module is well formed at first. -/
theorem wellFormed_init (rotateLock : Bool) : (init rotateLock).WellFormed :=
  ⟨coherent_init rotateLock, rfl⟩

/-- **Well-formedness along runs.** -/
theorem wellFormed_run (rotateLock : Bool) (xs : List Input) :
    (Machine.run step (init rotateLock) xs).WellFormed :=
  Machine.run_invariant step wellFormed_step (wellFormed_init rotateLock) xs

/-! ### Events -/

/-- An event, and a callback that does not call the module on it. -/
def Input.IsEvent (x : Input) : Prop :=
  (∀ c, x.event ≠ .api c) ∧ x.reaction = .done

/-- From `s` to `t` the registration is as it was. -/
structure Stays (s t : Rotation) : Prop where
  registration : t.registration = s.registration
  connected : t.connected = s.connected
  atomRotationLock : t.atomRotationLock = s.atomRotationLock

/-- A module that stands still. -/
theorem Stays.refl (s : Rotation) : Stays s s :=
  ⟨rfl, rfl, rfl⟩

/-- One part after the other. -/
theorem Stays.trans {s t u : Rotation} (h : Stays s t) (k : Stays t u) : Stays s u :=
  ⟨k.registration.trans h.registration, k.connected.trans h.connected,
    k.atomRotationLock.trans h.atomRotationLock⟩

/-- From `s` to `t` the registration changes by what the callback does, if it is invoked. -/
def Reacts (ρ : Reaction) (s t : Rotation) : Prop :=
  Stays s t ∨ ∃ u, Stays s u ∧ Stays (ρ.run u) t

/-- A part before it that leaves the registration alone. -/
theorem Reacts.after {s t u : Rotation} {ρ : Reaction} (k : Reacts ρ t u) (h : Stays s t) :
    Reacts ρ s u := by
  rcases k with hstays | ⟨v, hv, hu⟩
  · exact .inl (h.trans hstays)
  · exact .inr ⟨v, h.trans hv, hu⟩

/-- A reading changes the registration by what the callback does. -/
theorem Settles.reacts {s t : Rotation} {m : AppcoreRm} {direct : Prop} {data : Ptr}
    {a : Answers} {ρ : Reaction} (hs : Settles s m direct data a ρ t) : Reacts ρ s t := by
  cases hs with
  | told => exact .inl ⟨rfl, rfl, rfl⟩
  | @deliver f => exact .inr ⟨s.record (.callback f m data), ⟨rfl, rfl, rfl⟩, ⟨rfl, rfl, rfl⟩⟩
  | defer => exact .inl ⟨rfl, rfl, rfl⟩

/-- **The handlers leave the registration** to the API calls, those of the callback
included. -/
theorem reacts_step {s : Rotation} {x : Input} (hx : ∀ c, x.event ≠ .api c)
    (hwf : s.WellFormed) : Reacts x.reaction s (step s x) := by
  have ho := step_outcome x hwf
  obtain ⟨e, a, ρ⟩ := x
  generalize step s _ = t at ho ⊢
  cases ho with
  | @api c => exact absurd rfl (hx c)
  | sensor _ _ hs => exact hs.reacts.after ⟨rfl, rfl, rfl⟩
  | unlock _ hs => exact hs.reacts.after ⟨rfl, rfl, rfl⟩
  | @propertyDeliver f =>
      exact .inr ⟨s.record (.callback f s.changedM s.changedData), ⟨rfl, rfl, rfl⟩,
        ⟨rfl, rfl, rfl⟩⟩
  | _ => exact .inl ⟨rfl, rfl, rfl⟩

/-- With a callback that makes no API calls, events leave the registration alone. -/
theorem stays_step {s : Rotation} {x : Input} (hx : x.IsEvent) (hwf : s.WellFormed) :
    Stays s (step s x) := by
  have hreacts := reacts_step hx.1 hwf
  rw [hx.2] at hreacts
  rcases hreacts with hstays | ⟨u, hu, ht⟩
  · exact hstays
  · exact hu.trans ht

/-- Every call to the outside succeeds, and the root window holds no rotation back. -/
def granted : Answers :=
  ⟨true, 0, 0, 0, 0, 0, some .event0, true, 1, 0, true, 0, 1⟩

end Rotation

end AppCore
