import AppCore.RotationTrace

/-!
# Readings of the Sensor

A mode that is delivered should be the one that the sensor told last. Deliveries right
after a reading pass that reading. A deferral is delivered from `changed_m`, which the
rotation events and the unlock queries update; a rotation event that is ignored under a
lock and the query of a resume call leave it alone, and a deferral that is pending across
one of these is delivered out of date.

## Main results

* `recordsReading_step`: `changed_m` is the last reading, if that was a recorded one.
* `fresh_iff`: **every invocation passes the last reading**, exactly if no due deferral is
  met after an unrecorded reading of another mode.
-/

set_option autoImplicit false

namespace AppCore

namespace Rotation

open Trace

/-- The readings after which the handlers update `changed_m`. -/
def Source.recorded : Source → Bool
  | .event lock => !lock
  | .unlock => true
  | .resume => false

/-- The reading that an entry of the trace records. -/
def Call.reads : Call → Option (Option (Source × AppcoreRm))
  | .reading src m => some (some (src, m))
  | _ => none

/-- The last reading of a trace. -/
def lastReading (l : List Call) : Option (Source × AppcoreRm) :=
  latest Call.reads none l

/-- Every invocation in the trace passes the mode of the last reading. -/
def Fresh (l : List Call) : Prop :=
  EachInvocation (fun pre _ m _ => (lastReading pre).map Prod.snd = some m) l

/-- A deferral comes from a reading, and `changed_m` is the last recorded reading as long
as no other follows it. -/
structure RecordsReading (s : Rotation) : Prop where
  deferral : s.changedHandle ≠ none → lastReading s.log ≠ none
  recorded : ∀ src m, lastReading s.log = some (src, m) → src.recorded = true →
    s.changedM = m

/-! ### The last reading -/

/-- The last reading after one more entry. -/
@[simp] theorem lastReading_snoc (l : List Call) (c : Call) :
    lastReading (l ++ [c]) = c.reads.getD (lastReading l) :=
  latest_snoc

/-- Calls of the sensor framework are no readings. -/
theorem lastReading_frame {s t : Rotation} (h : Frame s t) :
    lastReading t.log = lastReading s.log :=
  h.latest fun c hc => by cases c <;> first | rfl | exact hc.elim

/-- API calls and the reactions of the callback leave the last reading, or query anew. -/
theorem apiClosed_lastReading (last : Option (Source × AppcoreRm)) :
    ApiClosed (fun _ => True)
      fun s => lastReading s.log = last ∨ ∃ m, lastReading s.log = some (.resume, m) where
  call := by
    intro s t a c r _ h hframe _
    have hc : (c.returned r).reads = none := by cases c <;> rfl
    rw [record, lastReading_snoc, hc, Option.getD_none, lastReading_frame hframe]
    exact h
  resumed := fun _ h hframe _ => by rwa [lastReading_frame hframe]
  query := fun m _ => .inr ⟨m, lastReading_snoc ..⟩
  told := fun h _ _ => by rwa [record, lastReading_snoc]
  mode := fun _ h => h
  returned := fun _ h => by rwa [record, lastReading_snoc]

/-- Steps without a reading that leave `changed_m` alone and add no deferral. -/
theorem RecordsReading.congr {s t : Rotation} (h : s.RecordsReading)
    (hlog : lastReading t.log = lastReading s.log) (hm : t.changedM = s.changedM)
    (hhandle : t.changedHandle ≠ none → s.changedHandle ≠ none) : t.RecordsReading where
  deferral := fun hne => hlog ▸ h.deferral (hhandle hne)
  recorded := fun src m hlast => hm ▸ h.recorded src m (hlog ▸ hlast)

/-- After a reading, that is the last one. -/
theorem recordsReading_of_last {s : Rotation} {src : Source} {m : AppcoreRm}
    (hlog : lastReading s.log = some (src, m)) (hm : src.recorded = true → s.changedM = m) :
    s.RecordsReading where
  deferral := by simp [hlog]
  recorded := by
    intro src' m' hlast hrec
    obtain ⟨rfl, rfl⟩ := Prod.mk.inj (Option.some.inj (hlog.symm.trans hlast))
    exact hm hrec

/-- Nothing is asked after a reading that is not to be recorded. -/
theorem recordsReading_of_unrecorded {s : Rotation} {m : AppcoreRm} (src : Source)
    (hsrc : src.recorded = false) (hlog : lastReading s.log = some (src, m)) :
    s.RecordsReading :=
  recordsReading_of_last hlog fun hrec => absurd (hsrc.symm.trans hrec) (by simp)

/-- API calls and the reactions of the callback take no reading that is recorded. -/
theorem apiClosed_recordsReading : ApiClosed (fun _ => True) RecordsReading where
  call := by
    intro s t a c r _ h hframe _
    refine h.congr ?_ hframe.changedM (hframe.changedHandle ▸ id)
    have hc : (c.returned r).reads = none := by cases c <;> rfl
    rw [record, lastReading_snoc, hc, Option.getD_none, lastReading_frame hframe]
  resumed := fun _ h hframe _ =>
    h.congr (lastReading_frame hframe) hframe.changedM (hframe.changedHandle ▸ id)
  query := fun _ _ => recordsReading_of_unrecorded .resume rfl (lastReading_snoc ..)
  told := fun h _ _ => h.congr (lastReading_snoc ..) rfl id
  mode := fun _ h => h.congr rfl rfl id
  returned := fun _ h => h.congr (lastReading_snoc ..) rfl id

/-- A reading that is settled is recorded, whatever the callback does in reaction. -/
theorem Settles.recordsReading {s t : Rotation} {src : Source} {m : AppcoreRm}
    {direct : Prop} {data : Ptr} {a : Answers} {ρ : Reaction}
    (hs : Settles s m direct data a ρ t) (hlog : lastReading s.log = some (src, m)) :
    t.RecordsReading := by
  cases hs with
  | told => exact recordsReading_of_last hlog fun _ => rfl
  | @deliver f =>
      have hcallback : lastReading (s.record (.callback f m data)).log = some (src, m) :=
        (lastReading_snoc ..).trans hlog
      rcases (apiClosed_lastReading _).reaction ρ.all_true (.inl hcallback) with hlast | ⟨k, hlast⟩
      · exact recordsReading_of_last hlast fun _ => rfl
      · exact recordsReading_of_unrecorded .resume rfl hlast
  | defer => exact recordsReading_of_last hlog fun _ => rfl

/-- **`changed_m` is the last recorded reading**, and a step keeps that. -/
theorem recordsReading_step {s : Rotation} (x : Input) (hwf : s.WellFormed)
    (h : s.RecordsReading) : (step s x).RecordsReading := by
  have hclosed := apiClosed_recordsReading
  have ho := step_outcome x hwf
  generalize x.event = e, step s x = t at ho
  cases ho with
  | api ho =>
      exact hclosed.apiOutcome (fun _ ht => hclosed.reaction x.reaction.all_true ht) trivial h ho
  | sensorIgnored => exact h
  | sensorLocked =>
      exact recordsReading_of_unrecorded (.event true) rfl (lastReading_snoc ..)
  | sensor _ _ hs => exact hs.recordsReading (lastReading_snoc ..)
  | lockUnfollowed => exact h.congr rfl rfl id
  | lockQuiet => exact h.congr rfl rfl id
  | unlock _ hs => exact hs.recordsReading (lastReading_snoc ..)
  | propertyIgnored => exact h
  | propertyTold => exact h.congr rfl rfl (absurd rfl)
  | @propertyDeliver f =>
      have hcallback : (s.record (.callback f s.changedM s.changedData)).RecordsReading :=
        h.congr (lastReading_snoc ..) rfl id
      have hcalls := calls_reaction x.reaction (s.record (.callback f s.changedM s.changedData))
      have hreaction := hclosed.reaction x.reaction.all_true hcallback
      exact hreaction.congr rfl hcalls.changedM.symm (absurd rfl)

/-- At first there is no reading and no deferral. -/
theorem recordsReading_init (rotateLock : Bool) : (init rotateLock).RecordsReading where
  deferral := absurd rfl
  recorded := by simp [init, lastReading]

/-! ### Fresh invocations -/

/-- The delivery of a reading needs nothing of what is stored. -/
theorem kept_true : Kept fun _ _ _ => True where
  returns := fun _ _ => trivial
  sf := fun _ _ => trivial
  reading := fun _ _ _ => trivial
  callback := fun _ _ _ _ => trivial

/-- A mode that is delivered at once is the one that was just read. -/
theorem fresh_afterReading :
    HoldsAfterReading (fun _ _ _ => True)
      fun pre _ m _ => (lastReading pre).map Prod.snd = some m := by
  intro f data l src m _
  rw [lastReading_snoc]
  rfl

/-- A step delivers the last reading, unless it meets a due deferral after an unrecorded
reading of another mode. -/
theorem fresh_step {s : Rotation} (x : Input) (hwf : s.WellFormed) (h : s.RecordsReading) :
    Fresh (step s x).log ↔
      Fresh s.log ∧ (DueProperty s x → ∀ src m, lastReading s.log = some (src, m) →
        src.recorded = false → m = s.changedM) := by
  refine (eachInvocation_step kept_true fresh_afterReading x hwf trivial).trans
    (and_congr_right fun _ => imp_congr_right fun hdue => ?_)
  obtain ⟨-, hpending, hset, -⟩ := hdue
  have hcb : s.rot.callback ≠ none := hwf.coherent.callback_of_cbSet hset
  obtain ⟨f, hf⟩ := Option.ne_none_iff_exists'.mp hcb
  obtain ⟨⟨src, m⟩, hlast⟩ := Option.ne_none_iff_exists'.mp (h.deferral hpending)
  have hrec := h.recorded src m hlast
  constructor
  · intro hfresh src' m' hlast' _
    obtain ⟨rfl, rfl⟩ := Prod.mk.inj (Option.some.inj (hlast.symm.trans hlast'))
    have hmode := hfresh f hf
    rw [hlast, Option.map_some] at hmode
    exact Option.some.inj hmode
  · intro hstale g _
    rw [hlast, Option.map_some]
    cases hsrc : src.recorded with
    | true => rw [hrec hsrc]
    | false => rw [hstale src m hlast hsrc]

/-- **No stale delivery**: in a run every invocation passes the mode of the last reading,
exactly if no due deferral is met after a reading of another mode that `changed_m` does not
record. -/
theorem fresh_iff (rotateLock : Bool) (xs : List Input) :
    Fresh (Machine.run step (init rotateLock) xs).log ↔
      Machine.AtEach step
        (fun s x => DueProperty s x → ∀ src m, lastReading s.log = some (src, m) →
          src.recorded = false → m = s.changedM)
        (init rotateLock) xs := by
  have hrun := Machine.run_iff_atEach (I := fun s : Rotation => s.WellFormed ∧ s.RecordsReading)
    (P := fun s => Fresh s.log)
    (fun s x h => ⟨wellFormed_step s x h.1, recordsReading_step x h.1 h.2⟩)
    (fun s x h => fresh_step x h.1 h.2)
    ⟨wellFormed_init rotateLock, recordsReading_init rotateLock⟩ xs
  rw [hrun, and_iff_right]
  exact each_nil

/-- A rotation that the root window holds back, another one while the rotation is locked,
then the property event. -/
def rotationUnderLock : List Input :=
  [⟨.api (.set (some 1) (some 10)), granted, .done⟩,
   ⟨.sensor 0 true .event90, { granted with propVal := 1 }, .done⟩,
   ⟨.lockChange true, granted, .done⟩,
   ⟨.sensor 0 true .event180, granted, .done⟩,
   ⟨.property 1, granted, .done⟩]

/-- **A stale mode is delivered**: the property event tells the mode before the lock, and
the sensor has told another one since. -/
theorem not_fresh_rotationUnderLock :
    ¬ Fresh (Machine.run step (init false) rotationUnderLock).log := by
  intro h
  have hstale := h (Machine.run step (init false) rotationUnderLock).log.dropLast
    (.callback 1 .landscapeNormal (some 10)) [] (by decide) 1 _ _ rfl
  exact absurd hstale (by decide)

end Rotation

end AppCore
