import AppCore.RotationTrace

/-!
# Callback and Data of a Registration

A successful `appcore_set_rotation_cb` gives the module a callback together with the data
for it. The callback is kept in `rot.callback` and the data in four places: with the
sensor registration, with the lock notification, in `rot.cbdata` and, for a deferral, in
`changed_data`. The first three belong to the callback by the invariant of the
registration. The last one survives an unset call, so that a property event can combine
the data of an old registration with the callback of a new one.

## Main results

* `kept_storedInForce`: the callback that is stored belongs to the last successful set
  call.
* `paired_iff`: **every invocation passes a pair that was set together**, and is in force,
  exactly if no due deferral has other data than the registration in force.
-/

set_option autoImplicit false

namespace AppCore

namespace Rotation

open Trace

/-- What the return of an API call says about the registration in force: a successful set
call puts its callback and data in force, a successful unset call ends it. -/
def Call.registers : Call → Option (Option (Addr × Ptr))
  | .setRotationCb (some f) data 0 => some (some (f, data))
  | .unsetRotationCb 0 => some none
  | _ => none

/-- The callback and data in force after a trace. -/
def inForce (l : List Call) : Option (Addr × Ptr) :=
  latest Call.registers none l

/-- Every invocation in the trace is one of the callback in force, with its data. -/
def Paired (l : List Call) : Prop :=
  EachInvocation (fun pre f _ data => inForce pre = some (f, data)) l

/-- The callback that is stored is in force, with the data stored for it. -/
def StoredInForce (cb data : Ptr) (l : List Call) : Prop :=
  ∀ f, cb = some f → inForce l = some (f, data)

/-! ### The registration in force -/

/-- The registration in force after one more entry. -/
@[simp] theorem inForce_snoc (l : List Call) (c : Call) :
    inForce (l ++ [c]) = c.registers.getD (inForce l) :=
  latest_snoc

/-- Calls of the sensor framework register no callback. -/
theorem inForce_sf {l cs : List Call} (h : ∀ c ∈ cs, c.IsSf) :
    inForce (l ++ cs) = inForce l := by
  rw [inForce, latest_append]
  refine latest_eq_of_forall_none fun c hc => ?_
  have hsf := h c hc
  cases c <;> first | rfl | exact hsf.elim

/-- Without a callback there is nothing to say. -/
theorem storedInForce_none (data : Ptr) (l : List Call) : StoredInForce none data l :=
  fun _ hf => nomatch hf

/-- An entry that registers nothing. -/
theorem StoredInForce.snoc {cb data : Ptr} {l : List Call} {c : Call}
    (h : StoredInForce cb data l) (hc : c.registers = none) :
    StoredInForce cb data (l ++ [c]) := by
  intro f hf
  rw [inForce_snoc, hc, Option.getD_none]
  exact h f hf

/-- The exits of the API calls keep what is stored in force. -/
theorem storedInForce_returns {l : List Call} {a : Answers} {rotateLock : Bool}
    {v w : View} {c : Api} {r : ℤ} (h : StoredInForce v.callback v.cbdata l)
    (hr : Returns a rotateLock v c r w) :
    StoredInForce w.callback w.cbdata (l ++ [c.returned r]) := by
  cases hr with
  | @setRefused cb => exact h.snoc (by cases cb <;> rfl)
  | setFailed => exact storedInForce_none _ _
  | @set cb data _ hcb =>
      obtain ⟨f, rfl⟩ := Option.ne_none_iff_exists'.mp hcb
      intro g hg
      obtain rfl : f = g := Option.some.inj hg
      rw [inForce_snoc]
      rfl
  | unsetNone hnone => exact hnone.symm ▸ storedInForce_none _ _
  | unsetFailed => exact h.snoc rfl
  | unset => exact storedInForce_none _ _
  | pauseNone => exact h.snoc rfl
  | pauseFailed => exact h.snoc rfl
  | pause => exact h.snoc rfl
  | resumeNone => exact h.snoc rfl
  | resumeRefused => exact h.snoc rfl
  | resumeFailed => exact h.snoc rfl
  | resume => exact h.snoc rfl

/-- **What is stored is in force**, after every call and every delivery. -/
theorem kept_storedInForce : Kept StoredInForce where
  returns := storedInForce_returns
  sf := fun h hcs f hf => (inForce_sf hcs).trans (h f hf)
  reading := fun _ _ h => h.snoc rfl
  callback := fun _ _ _ h => h.snoc rfl

/-! ### Pairs -/

/-- Right after a reading, the callback gets the data that is stored for it. -/
theorem paired_afterReading :
    HoldsAfterReading StoredInForce fun pre f _ data => inForce pre = some (f, data) :=
  fun f _ _ _ _ h => h f rfl

/-- A step keeps the invocations paired, unless it meets a due deferral with other data
than those of the callback. -/
theorem paired_step {s : Rotation} (x : Input) (hwf : s.WellFormed)
    (h : s.Holds StoredInForce) :
    Paired (s.step x).log ↔
      Paired s.log ∧ (DueProperty s x → s.changedData = s.rot.cbdata) := by
  refine (eachInvocation_step kept_storedInForce paired_afterReading x hwf h).trans
    (and_congr_right fun _ => imp_congr_right fun hdue => ?_)
  obtain ⟨-, -, hset, -⟩ := hdue
  have hcb : s.rot.callback ≠ none := hwf.coherent.callback_of_cbSet hset
  obtain ⟨f, hf⟩ := Option.ne_none_iff_exists'.mp hcb
  simp [hf, h f hf, eq_comm]

/-- **Callback and data**: in a run every invocation passes a callback and data that were
set together and are in force, exactly if no due deferral is met with other data than
those of the registration in force. -/
theorem paired_iff (rotateLock : Bool) (xs : List Input) :
    Paired (Machine.run step (init rotateLock) xs).log ↔
      Machine.AtEach step (fun s x => DueProperty s x → s.changedData = s.rot.cbdata)
        (init rotateLock) xs := by
  have hrun := Machine.run_iff_atEach
    (I := fun s : Rotation => s.WellFormed ∧ s.Holds StoredInForce)
    (P := fun s => Paired s.log)
    (fun s x h => ⟨wellFormed_step s x h.1, kept_storedInForce.step x h.1 h.2⟩)
    (fun s x h => paired_step x h.1 h.2)
    ⟨wellFormed_init rotateLock, storedInForce_none _ _⟩ xs
  rw [hrun, and_iff_right]
  exact each_nil

/-- A rotation that the root window holds back, a new registration, then the property
event. -/
def deferralAcrossUnset : List Input :=
  [⟨.api (.set (some 1) (some 10)), granted, .done⟩,
   ⟨.sensor 0 true .event90, { granted with propVal := 1 }, .done⟩,
   ⟨.api .unset, granted, .done⟩,
   ⟨.api (.set (some 2) (some 20)), granted, .done⟩,
   ⟨.property 1, granted, .done⟩]

/-- **A mixed pair is passed**: the property event calls the new callback with the data of
the old one. -/
theorem not_paired_deferralAcrossUnset :
    ¬ Paired (Machine.run step (init false) deferralAcrossUnset).log := by
  intro h
  have hmixed := h (Machine.run step (init false) deferralAcrossUnset).log.dropLast
    (.callback 2 .landscapeNormal (some 10)) [] (by decide) 2 _ _ rfl
  exact absurd hmixed (by decide)

end Rotation

end AppCore
