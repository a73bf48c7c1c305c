import AppCore.RotationMirror

/-!
# Unlocking, and a Rotation Event

`__lock_cb`, on an unlock notification, is a second copy of `__changed_cb`: it asks the
sensor for the mode instead of taking it from an event, and then decides between delivery
and deferral in the same way. But where `__changed_cb` reads the lock property of the root
window, `__lock_cb` decides on a variable `val` that it never assigns. So the two do the
same exactly when that variable happens to say what the property says, or when there is
nothing to decide.

## Main results

* `effect_settle`: what a handler that settles a reading leaves, as a function of the state
  before it and of its decision.
* `unlock_like_event_iff`: **when unlocking behaves like a rotation event**.
-/

set_option autoImplicit false

namespace AppCore

namespace Rotation

/-- What a handler does: the invocation of the callback that it makes, and where it leaves
the mode, the statics of a deferral and the property handlers. -/
structure Effect where
  invocation : Option Call
  mode : AppcoreRm
  changedM : AppcoreRm
  changedData : Ptr
  changedHandle : Option ℕ
  handlers : List ℕ
  deriving DecidableEq, Repr

/-- The effect of a handler that takes the module from `s` to `t`. -/
def effect (s t : Rotation) : Effect where
  invocation := (t.log.drop s.log.length).find? Call.isCallback
  mode := t.rot.mode
  changedM := t.changedM
  changedData := t.changedData
  changedHandle := t.changedHandle
  handlers := t.handlers

/-- The effect of settling the mode `m`, for a callback that is not paused. -/
def settled (m : AppcoreRm) (direct : Prop) [Decidable direct] (data : Ptr) (a : Answers)
    (s : Rotation) : Effect :=
  if s.rot.mode = m then ⟨none, m, m, s.changedData, s.changedHandle, s.handlers⟩
  else if direct then
    ⟨s.rot.callback.map fun f => .callback f m data, m, m, s.changedData, s.changedHandle,
      s.handlers⟩
  else ⟨none, s.rot.mode, m, data, (s.defer data a).changedHandle, (s.defer data a).handlers⟩

/-- Up to the lock and the trace, `t` is the state `s`; the trace tells a reading more. -/
structure Heard (s t : Rotation) : Prop where
  callback : t.rot.callback = s.rot.callback
  cbSet : t.rot.cbSet = s.rot.cbSet
  mode : t.rot.mode = s.rot.mode
  changedData : t.changedData = s.changedData
  changedHandle : t.changedHandle = s.changedHandle
  handlers : t.handlers = s.handlers
  nextHandler : t.nextHandler = s.nextHandler
  log : ∃ src m, t.log = s.log ++ [.reading src m]

/-! ### One reading -/

/-- A deferral leaves the same property handlers in both states. -/
theorem Heard.defer {s t : Rotation} (h : Heard s t) (data : Ptr) (a : Answers) :
    (t.defer data a).changedHandle = (s.defer data a).changedHandle ∧
      (t.defer data a).handlers = (s.defer data a).handlers := by
  rw [Rotation.defer, Rotation.defer, h.changedHandle]
  cases s.changedHandle <;> cases hadd : a.handlerAdd <;>
    simp [handlerAdd, handlerDel, hadd, h.handlers, h.nextHandler]

/-- **What a handler leaves** that settles a reading. -/
theorem effect_settle {s t : Rotation} (h : Heard s t) (m : AppcoreRm) (direct : Prop)
    [Decidable direct] (data : Ptr) (a : Answers) (ρ : Reaction) (hset : s.rot.cbSet = true)
    (hcb : s.rot.callback ≠ none) :
    effect s (t.settle ρ.run m direct data a) = s.settled m direct data a := by
  obtain ⟨f, hf⟩ := Option.ne_none_iff_exists'.mp hcb
  obtain ⟨src, k, hlog⟩ := h.log
  rw [settle, settled, h.cbSet, h.mode]
  by_cases hm : s.rot.mode = m
  · rw [if_neg fun hdue => hdue.2 hm, if_pos hm]
    simp [effect, hlog, Call.isCallback, h.mode, h.changedData, h.changedHandle, h.handlers, hm]
  · rw [if_pos ⟨hset, hm⟩, if_neg hm]
    by_cases hdirect : direct
    · -- what the callback does to the module comes after its invocation in the trace
      have hcalls := calls_reaction ρ (t.record (.callback f m data))
      rw [if_pos hdirect, if_pos hdirect, deliver_eq m data (h.callback.trans hf)]
      generalize ρ.run (t.record (.callback f m data)) = u at hcalls
      obtain ⟨l, hl⟩ := hcalls.log
      have hu : u.log = s.log ++ ([.reading src k, .callback f m data] ++ l) := by
        rw [← hl, record, hlog]
        simp
      have hdata : u.changedData = s.changedData := hcalls.changedData.trans h.changedData
      have hhandle : u.changedHandle = s.changedHandle :=
        hcalls.changedHandle.trans h.changedHandle
      have hhandlers : u.handlers = s.handlers := hcalls.handlers.trans h.handlers
      simp [effect, hu, Call.isCallback, hf, hdata, hhandle, hhandlers]
    · obtain ⟨hrot, hsame, hdata, -⟩ := defer_spec data a t
      obtain ⟨hhandle, hhandlers⟩ := h.defer data a
      rw [if_neg hdirect, if_neg hdirect]
      simp [effect, hsame, hlog, Call.isCallback, hrot, h.mode, hdata, hhandle, hhandlers]

/-- Two decisions have the same effect if they agree, or if the application has the mode. -/
theorem settled_eq_iff {s : Rotation} (m : AppcoreRm) (direct direct' : Prop)
    [Decidable direct] [Decidable direct'] (data : Ptr) (a : Answers)
    (hcb : s.rot.callback ≠ none) :
    s.settled m direct data a = s.settled m direct' data a ↔
      s.rot.mode = m ∨ (direct ↔ direct') := by
  obtain ⟨f, hf⟩ := Option.ne_none_iff_exists'.mp hcb
  rw [settled, settled]
  by_cases hm : s.rot.mode = m
  · simp [hm]
  · rw [if_neg hm, if_neg hm, or_iff_right hm]
    by_cases hdirect : direct <;> by_cases hdirect' : direct' <;> simp [hdirect, hdirect', hf]

/-! ### The two handlers -/

/-- The sensor of a callback that is not paused is live. -/
theorem live_of_cbSet {s : Rotation} {cleans : Prop} (hwf : s.WellFormed)
    (h : s.Attached cleans) (hset : s.rot.cbSet = true) :
    s.registration.live s.rot.handle ≠ none := by
  have hcb : s.rot.callback ≠ none := hwf.coherent.callback_of_cbSet hset
  have hstarted : s.started s.rot.handle = true :=
    (hwf.coherent.started_eq hcb).trans ((h.linked hcb).started hset)
  have hlive : s.registration.live s.rot.handle = s.registered s.rot.handle := if_pos hstarted
  rw [hlive]
  exact (h.linked hcb).registered hset

/-- **Unlocking like an event.** In every state reached with a callback that is not paused,
an unlock notification whose query tells a mode has the effect of a rotation event with this
mode while the rotation is not locked, exactly if the application has the mode already or
the content of `val` agrees with what `__changed_cb` finds in the lock property. -/
theorem unlock_like_event_iff (rotateLock : Bool) (xs : List Input) (a : Answers)
    (ρ : Reaction) {query event : RotateState} :
    let s := Machine.run step (init rotateLock) xs
    s.rot.cbSet = true → s.lockRegistered ≠ none → a.sfCheckRotation = some query →
      getMode event = getMode query →
      (effect s (step s ⟨.lockChange false, a, ρ⟩) =
          effect s (step { s with rot.lock := false } ⟨.sensor s.rot.handle true event, a, ρ⟩) ↔
        s.rot.mode = getMode query ∨ (a.val = 0 ↔ a.propVal = 0 ∨ a.propRet < 1)) := by
  intro s hset hfollowed hquery hevent
  have hwf : s.WellFormed := wellFormed_run rotateLock xs
  have hcb : s.rot.callback ≠ none := hwf.coherent.callback_of_cbSet hset
  have hunlock : step s ⟨.lockChange false, a, ρ⟩ =
      ((s.relock false).record (.reading .unlock (getMode query))).settle ρ.run (getMode query)
        (a.val = 0) s.rot.cbdata a := by
    have hq : s.unlockQuery false a = some query := (if_pos ⟨rfl, hset⟩).trans hquery
    rw [step]
    dsimp only
    rw [lockChange_eq hwf.coherent, if_neg hfollowed, hq]
  have hsensor : step { s with rot.lock := false } ⟨.sensor s.rot.handle true event, a, ρ⟩ =
      (Rotation.record (.reading (.event false) (getMode event))
        { s with rot.lock := false }).settle ρ.run (getMode event)
          (a.propVal = 0 ∨ a.propRet < 1) s.rot.cbdata a := by
    have hlive := live_of_cbSet hwf (attached_run rotateLock xs) hset
    rw [step]
    dsimp only
    rw [sensorEvent_eq (s := { s with rot.lock := false }) hwf.coherent, if_neg, if_neg (by simp)]
    exact fun hignored => hignored.elim hlive (by simp)
  have hheard : Heard s ((s.relock false).record (.reading .unlock (getMode query))) :=
    ⟨rfl, rfl, rfl, rfl, rfl, rfl, rfl, _, _, rfl⟩
  have hheard' : Heard s (Rotation.record (.reading (.event false) (getMode query))
      { s with rot.lock := false }) :=
    ⟨rfl, rfl, rfl, rfl, rfl, rfl, rfl, _, _, rfl⟩
  rw [hunlock, hsensor, hevent, effect_settle hheard _ _ _ a ρ hset hcb,
    effect_settle hheard' _ _ _ a ρ hset hcb]
  exact settled_eq_iff (getMode query) _ _ s.rot.cbdata a hcb

/-- A callback is set while the rotation is locked. -/
def setWhileLocked : List Input :=
  [⟨.api (.set (some 1) (some 10)), granted, .done⟩]

/-- The condition, where `val` happens to be zero. -/
theorem unlock_like_event_iff_setWhileLocked :
    let s := Machine.run step (init true) setWhileLocked
    let a : Answers := { granted with sfCheckRotation := some .event90 }
    effect s (step s ⟨.lockChange false, a, .done⟩) =
        effect s (step { s with rot.lock := false }
          ⟨.sensor s.rot.handle true .event90, a, .done⟩) ↔
      s.rot.mode = getMode .event90 ∨ (a.val = 0 ↔ a.propVal = 0 ∨ a.propRet < 1) :=
  unlock_like_event_iff true setWhileLocked
    { granted with sfCheckRotation := some .event90 } .done (by decide) (by decide) rfl rfl

/-- **A rotation is held back for no reason**: the root window holds no rotation back, but
what is in the place of `val` is not zero; unlocking defers the mode that a rotation event
delivers. -/
theorem not_unlock_like_event_setWhileLocked :
    let s := Machine.run step (init true) setWhileLocked
    let a : Answers := { granted with sfCheckRotation := some .event90, val := 1 }
    let unlocked := effect s (step s ⟨.lockChange false, a, .done⟩)
    let rotated := effect s (step { s with rot.lock := false }
      ⟨.sensor s.rot.handle true .event90, a, .done⟩)
    s.rot.cbSet = true ∧ s.lockRegistered ≠ none ∧ a.sfCheckRotation = some .event90 ∧
      unlocked.invocation = none ∧
      rotated.invocation = some (.callback 1 .landscapeNormal (some 10)) ∧
      unlocked ≠ rotated := by
  decide

end Rotation

end AppCore
