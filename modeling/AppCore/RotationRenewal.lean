import AppCore.RotationStep

/-!
# A New Registration

What a callback is told while it listens depends on little of the state: the mode that the
application has been told, the lock, and a deferral that is due. These make a machine of
their own, which the module refines. `appcore_set_rotation_cb` sets the lock, but neither
it nor `appcore_unset_rotation_cb` resets the mode or drops the deferral. So a new callback
is told the same after two histories exactly if these have left the same mode and the same
due deferral.

## Main results

* `delivery_step`: **refinement**, one event delivers what the machine puts out.
* `deliveries_eq`: what a new callback is told, by the machine.
* `startsClean_iff`: **when a registration starts clean**.
-/

set_option autoImplicit false

namespace AppCore

namespace Rotation

/-! ### The delivery machine -/

/-- What is told to the application: a mode and the data with it. -/
abbrev Told := AppcoreRm × Ptr

/-- An event of a registration; a sensor event comes on the connection of the callback. -/
inductive Signal
  | sensor (rotationCheck : Bool) (eventData : RotateState)
  | lockChange (lock : Bool)
  | property (atom : ℕ)
  deriving DecidableEq, Repr

/-- The event of the module, for the handle of the connection. -/
def Signal.event (handle : ℤ) : Signal → Event
  | .sensor rotationCheck e => .sensor handle rotationCheck e
  | .lockChange lock => .lockChange lock
  | .property atom => .property atom

/-- The input of the module: the callback does not call the module. -/
def Signal.input (handle : ℤ) (i : Signal × Answers) : Input :=
  ⟨i.1.event handle, i.2, .done⟩

/-- A signal is an event and not an API call. -/
theorem Signal.isEvent_input (handle : ℤ) (i : Signal × Answers) :
    (Signal.input handle i).IsEvent := by
  refine ⟨fun c => ?_, rfl⟩
  cases h : i.1 <;> simp [Signal.input, Signal.event, h]

/-- What a listening callback is owed: it has been told `mode`, and `due` will be told on a
property event. -/
structure Delivery where
  mode : AppcoreRm
  lock : Bool
  due : Option Told
  deriving DecidableEq, Repr

namespace Delivery

/-- A reading: it is told, or deferred if a handler can be added, unless it is no news. -/
def settle (m : AppcoreRm) (direct : Prop) [Decidable direct] (data : Ptr) (a : Answers)
    (d : Delivery) : Delivery × List Told :=
  if d.mode = m then ({ d with due := none }, [])
  else if direct then ({ d with mode := m, due := none }, [(m, data)])
  else ({ d with due := if a.handlerAdd = true then some (m, data) else none }, [])

/-- One event, for a registration with this data and this atom of the lock property. -/
def step (data : Ptr) (atom : ℕ) (d : Delivery) : Signal × Answers → Delivery × List Told
  | (.sensor rotationCheck e, a) =>
      if d.lock = true ∨ rotationCheck = false then (d, [])
      else d.settle (getMode e) (a.propVal = 0 ∨ a.propRet < 1) data a
  | (.lockChange true, _) => ({ d with lock := true }, [])
  | (.lockChange false, a) =>
      match a.sfCheckRotation with
      | none => ({ d with lock := false }, [])
      | some e => { d with lock := false }.settle (getMode e) (a.val = 0) data a
  | (.property k, _) =>
      match d.due with
      | some told => if k = atom then ({ d with mode := told.1, due := none }, [told]) else (d, [])
      | none => (d, [])

end Delivery

/-- The deferral that a property event would deliver. -/
def due (s : Rotation) : Option Told :=
  if s.changedHandle ≠ none ∧ s.rot.mode ≠ s.changedM then some (s.changedM, s.changedData)
  else none

/-- The state of the machine. -/
def delivery (s : Rotation) : Delivery :=
  ⟨s.rot.mode, s.rot.lock, s.due⟩

/-- What an entry of the trace tells the callback `cb`. -/
def Call.told (cb : Ptr) : Call → Option Told
  | .callback f m data => if cb = some f then some (m, data) else none
  | _ => none

/-- What a trace tells the callback. -/
def told (cb : Ptr) (l : List Call) : List Told :=
  l.filterMap (Call.told cb)

/-! ### Refinement -/

/-- A deferral of the mode that the application has is not due. -/
theorem due_of_mode {s : Rotation} (h : s.rot.mode = s.changedM) : s.due = none :=
  if_neg fun hdue => hdue.2 h

/-- Without a handler no deferral is due. -/
theorem due_of_handle {s : Rotation} (h : s.changedHandle = none) : s.due = none :=
  if_neg fun hdue => hdue.1 h

/-- A step from `s` to `t` that tells the callback the given list. -/
def Tells (s t : Rotation) (told' : List Told) : Prop :=
  ∃ l, t.log = s.log ++ l ∧ told s.rot.callback l = told'

/-- A trace that is the same tells nothing. -/
theorem tells_nil {s t : Rotation} (h : t.log = s.log) : Tells s t [] :=
  ⟨[], by simp [h], rfl⟩

/-- The end of a handler does to the machine what `Delivery.settle` says. -/
theorem delivery_settle {s : Rotation} (m : AppcoreRm) (direct : Prop) [Decidable direct]
    (data : Ptr) (a : Answers) (hset : s.rot.cbSet = true) (hcb : s.rot.callback ≠ none) :
    (s.settle id m direct data a).delivery = (s.delivery.settle m direct data a).1 ∧
      Tells s (s.settle id m direct data a) (s.delivery.settle m direct data a).2 := by
  obtain ⟨f, hf⟩ := Option.ne_none_iff_exists'.mp hcb
  rw [Rotation.settle, Delivery.settle]
  by_cases hm : s.delivery.mode = m
  · rw [if_neg fun hdue => hdue.2 hm, if_pos hm]
    refine ⟨?_, tells_nil rfl⟩
    rw [delivery, due_of_mode hm]
    rfl
  · rw [if_pos ⟨hset, hm⟩, if_neg hm]
    by_cases hdirect : direct
    · rw [if_pos hdirect, if_pos hdirect, deliver_eq m data hf]
      refine ⟨?_, [.callback f m data], rfl, by simp [told, Call.told, hf]⟩
      rw [delivery, due_of_mode rfl]
      rfl
    · obtain ⟨hrot, hlog, hdata, hhandle⟩ := defer_spec data a s
      rw [if_neg hdirect, if_neg hdirect]
      refine ⟨?_, tells_nil hlog⟩
      have hmode : s.rot.mode ≠ m := hm
      simp only [delivery, due, hrot, hdata, hhandle]
      simp [hmode]

/-- A reading before it tells the callback nothing. -/
theorem Tells.after_reading {s t u : Rotation} {told' : List Told} {src : Source}
    {m : AppcoreRm} (h : Tells t u told') (hlog : t.log = s.log ++ [.reading src m])
    (hcb : t.rot.callback = s.rot.callback) : Tells s u told' := by
  obtain ⟨l, hl, htold⟩ := h
  refine ⟨.reading src m :: l, by simp [hl, hlog], ?_⟩
  rw [← hcb, ← htold]
  rfl

/-- A callback listens: its sensor is live, and it follows the lock setting. -/
structure Listening (s : Rotation) : Prop where
  wellFormed : s.WellFormed
  callback : s.rot.callback ≠ none
  cbSet : s.rot.cbSet = true
  live : s.registration.live s.rot.handle ≠ none
  followed : s.lockRegistered ≠ none

/-- The state `t` refines what the machine does. -/
def Refines (s t : Rotation) (r : Delivery × List Told) : Prop :=
  t.delivery = r.1 ∧ Tells s t r.2

/-- A sensor event refines the machine. -/
theorem delivery_sensor {s : Rotation} (h : s.Listening) (rotationCheck : Bool)
    (e : RotateState) (a : Answers) :
    Refines s (s.sensorEvent id s.rot.handle rotationCheck e a)
      (s.delivery.step s.rot.cbdata s.atomRotationLock (.sensor rotationCheck e, a)) := by
  have hlock : s.delivery.lock = s.rot.lock := rfl
  rw [sensorEvent_eq h.wellFormed.coherent, Delivery.step, hlock]
  split
  next hignored =>
    rw [if_pos (.inr (hignored.resolve_left h.live))]
    exact ⟨rfl, tells_nil rfl⟩
  next hreaches =>
    split
    next hlock =>
      rw [if_pos (.inl hlock)]
      exact ⟨rfl, (tells_nil rfl).after_reading rfl rfl⟩
    next hlock =>
      rw [if_neg fun hignored => hignored.elim hlock fun hcheck => hreaches (.inr hcheck)]
      obtain ⟨hdelivery, htells⟩ := delivery_settle
        (s := s.record (.reading (.event false) (getMode e))) (getMode e)
        (a.propVal = 0 ∨ a.propRet < 1) s.rot.cbdata a h.cbSet h.callback
      exact ⟨hdelivery, htells.after_reading rfl rfl⟩

/-- A lock notification refines the machine. -/
theorem delivery_lockChange {s : Rotation} (h : s.Listening) (lock : Bool) (a : Answers) :
    Refines s (s.lockChange id lock a)
      (s.delivery.step s.rot.cbdata s.atomRotationLock (.lockChange lock, a)) := by
  rw [lockChange_eq h.wellFormed.coherent, if_neg h.followed, unlockQuery]
  cases lock with
  | true => exact ⟨rfl, tells_nil rfl⟩
  | false =>
      rw [if_pos ⟨rfl, h.cbSet⟩, Delivery.step]
      cases a.sfCheckRotation with
      | none => exact ⟨rfl, tells_nil rfl⟩
      | some e =>
          obtain ⟨hdelivery, htells⟩ := delivery_settle
            (s := (s.relock false).record (.reading .unlock (getMode e))) (getMode e)
            (a.val = 0) s.rot.cbdata a h.cbSet h.callback
          exact ⟨hdelivery, htells.after_reading rfl rfl⟩

/-- A property event refines the machine. -/
theorem delivery_property {s : Rotation} (h : s.Listening) (atom : ℕ) (a : Answers) :
    Refines s (s.propertyEvent id atom)
      (s.delivery.step s.rot.cbdata s.atomRotationLock (.property atom, a)) := by
  have ho := outcome_property a .done h.wellFormed atom
  have hdue : s.delivery.due = s.due := rfl
  rw [Delivery.step, hdue]
  change Outcome s a .done (.property atom) (s.propertyEvent id atom) at ho
  generalize s.propertyEvent id atom = t at ho
  cases ho with
  | propertyIgnored hignored =>
      cases hd : s.due with
      | none => exact ⟨rfl, tells_nil rfl⟩
      | some told' =>
          have hpending : s.changedHandle ≠ none := fun hnone =>
            absurd ((due_of_handle hnone).symm.trans hd) (by simp)
          dsimp only
          rw [if_neg (hignored.resolve_right hpending)]
          exact ⟨rfl, tells_nil rfl⟩
  | propertyTold _ htold =>
      have hmode : s.rot.mode = s.changedM := htold h.cbSet
      rw [due_of_mode hmode]
      refine ⟨?_, tells_nil rfl⟩
      rw [delivery, due_of_handle rfl, delivery, due_of_mode hmode]
  | @propertyDeliver f hpending hcb _ hmode =>
      have hd : s.due = some (s.changedM, s.changedData) := if_pos ⟨hpending, hmode⟩
      rw [hd]
      dsimp only
      rw [if_pos rfl]
      refine ⟨?_, [.callback f s.changedM s.changedData], rfl, by simp [told, Call.told, hcb]⟩
      rw [delivery, due_of_handle rfl]
      rfl

/-- **Refinement**: what an event does to a listening callback, the machine does. -/
theorem delivery_step {s : Rotation} (h : s.Listening) (i : Signal × Answers) :
    Refines s (step s (Signal.input s.rot.handle i))
      (s.delivery.step s.rot.cbdata s.atomRotationLock i) := by
  obtain ⟨σ, a⟩ := i
  cases σ with
  | sensor rotationCheck e => exact delivery_sensor h rotationCheck e a
  | lockChange lock => exact delivery_lockChange h lock a
  | property atom => exact delivery_property h atom a

/-! ### Episodes -/

/-- What happens to one registration: the setting has the value `lock`, a callback is set
with these answers of the outside, and events follow. -/
structure Episode where
  lock : Bool
  cb : Ptr
  data : Ptr
  answers : Answers
  signals : List (Signal × Answers)

namespace Episode

variable (E : Episode)

/-- The setting has its value before the callback is set. -/
def before (s : Rotation) : Rotation :=
  step s ⟨.lockChange E.lock, E.answers, .done⟩

/-- `appcore_set_rotation_cb` succeeds. -/
def Registers (s : Rotation) : Prop :=
  ((E.before s).setRotationCb E.cb E.data E.answers).1 = 0

/-- After `appcore_set_rotation_cb`. -/
def registered (s : Rotation) : Rotation :=
  step (E.before s) ⟨.api (.set E.cb E.data), E.answers, .done⟩

/-- What the callback is told from its registration on. -/
def deliveries (s : Rotation) : List Told :=
  let t := E.registered s
  let u := Machine.run step t (E.signals.map (Signal.input t.rot.handle))
  told E.cb (u.log.drop t.log.length)

/-- The lock as `appcore_set_rotation_cb` reads it. -/
def readLock : Bool :=
  if E.answers.vconfGetBool = true then E.lock else false

end Episode

variable {E : Episode} {s : Rotation}

/-- Between registrations, a new value of the setting is only stored. -/
theorem before_eq (hwf : s.WellFormed) (hnone : s.rot.callback = none) :
    E.before s = { s with rotateLock := E.lock } := by
  have hreg : s.lockRegistered = none := hwf.coherent.lock_of_callback hnone
  rw [Episode.before, step]
  dsimp only
  rw [lockChange]
  split
  next data hsome => exact absurd (hreg.symm.trans hsome) (by simp)
  next => rfl

/-- **A new registration** listens. The lock is read anew; the mode and the deferral are
those that the history has left. -/
theorem registered_spec (hwf : s.WellFormed) (hnone : s.rot.callback = none)
    (hE : E.Registers s) :
    (E.registered s).Listening ∧ (E.registered s).rot.callback = E.cb ∧
      (E.registered s).rot.cbdata = E.data ∧
      (E.registered s).atomRotationLock = E.answers.atom ∧
      (E.registered s).delivery = ⟨s.rot.mode, E.readLock, s.due⟩ := by
  obtain ⟨hcb, hnone', hconnect, hregister, hstart⟩ := ok_of_setRotationCb hE
  have hset := setRotationCb_of_ok E.data hcb hnone' hconnect hregister hstart
  have hbefore := wellFormed_step s ⟨.lockChange E.lock, E.answers, .done⟩ hwf
  have hwf' := wellFormed_step _ ⟨.api (.set E.cb E.data), E.answers, .done⟩ hbefore
  have heq : E.registered s =
      ((E.before s).setRotationCb E.cb E.data E.answers).2.record
        (.setRotationCb E.cb E.data ((E.before s).setRotationCb E.cb E.data E.answers).1) := rfl
  rw [hset, before_eq hwf hnone] at heq
  refine ⟨⟨hwf', ?_, ?_, ?_, ?_⟩, ?_⟩
  · rw [heq]
    exact hcb
  · rw [heq]
    rfl
  · rw [heq]
    simp [registration, Registration.live, record]
  · rw [heq]
    simp [record]
  · rw [heq]
    exact ⟨rfl, rfl, rfl, rfl⟩

/-- A listening callback listens on in the same way. -/
theorem Listening.stays {s t : Rotation} (h : s.Listening) (hwf : t.WellFormed)
    (hstays : Stays s t) : t.Listening where
  wellFormed := hwf
  callback := by
    have heq : t.rot.callback = s.rot.callback :=
      congrArg Registration.callback hstays.registration
    exact heq ▸ h.callback
  cbSet := (congrArg Registration.cbSet hstays.registration).trans h.cbSet
  live := by
    have heq : t.rot.handle = s.rot.handle := congrArg Registration.handle hstays.registration
    rw [hstays.registration, heq]
    exact h.live
  followed := by
    have heq : t.lockRegistered = s.lockRegistered :=
      congrArg Registration.lockRegistered hstays.registration
    exact heq ▸ h.followed

/-- **What events tell a listening callback**, by the machine. -/
theorem told_run {s : Rotation} (h : s.Listening) (is : List (Signal × Answers)) :
    told s.rot.callback ((Machine.run step s
        (is.map (Signal.input s.rot.handle))).log.drop s.log.length) =
      Machine.outputs (Delivery.step s.rot.cbdata s.atomRotationLock) s.delivery is := by
  have hstep : ∀ t i, t.WellFormed ∧ Stays s t ∧ s.log <+: t.log →
      Refines t (step t (Signal.input s.rot.handle i))
        (t.delivery.step s.rot.cbdata s.atomRotationLock i) := by
    rintro t i ⟨hwf, hstays, -⟩
    have hhandle : t.rot.handle = s.rot.handle :=
      congrArg Registration.handle hstays.registration
    have hdata : t.rot.cbdata = s.rot.cbdata :=
      congrArg Registration.cbdata hstays.registration
    have hrefines := delivery_step (h.stays hwf hstays) i
    rwa [hhandle, hdata, hstays.atomRotationLock] at hrefines
  have hrun := Machine.run_outputs
    (I := fun t : Rotation => t.WellFormed ∧ Stays s t ∧ s.log <+: t.log) (f := delivery)
    (e := fun t => told s.rot.callback (t.log.drop s.log.length))
    (fun t i ht => by
      obtain ⟨l, hl, -⟩ := (hstep t i ht).2
      obtain ⟨hwf, hstays, hprefix⟩ := ht
      exact ⟨wellFormed_step t _ hwf,
        hstays.trans (stays_step (Signal.isEvent_input s.rot.handle i) hwf),
        hprefix.trans ⟨l, hl.symm⟩⟩)
    (fun t i ht => (hstep t i ht).1)
    (fun t i ht => by
      obtain ⟨l, hl, htold⟩ := (hstep t i ht).2
      have hcb : t.rot.callback = s.rot.callback :=
        congrArg Registration.callback ht.2.1.registration
      rw [hcb] at htold
      rw [hl, List.drop_append_of_le_length ht.2.2.length_le, told, List.filterMap_append]
      exact congrArg _ htold)
    ⟨h.wellFormed, .refl s, List.prefix_refl _⟩ is
  rw [hrun, List.drop_length]
  rfl

/-- **What a new callback is told** depends on the history through the mode and the due
deferral that it leaves. -/
theorem deliveries_eq (hwf : s.WellFormed) (hnone : s.rot.callback = none)
    (hE : E.Registers s) :
    E.deliveries s = Machine.outputs (Delivery.step E.data E.answers.atom)
      ⟨s.rot.mode, E.readLock, s.due⟩ E.signals := by
  obtain ⟨hlistening, hcb, hdata, hatom, hdelivery⟩ := registered_spec hwf hnone hE
  have htold := told_run hlistening E.signals
  rw [hcb, hdata, hatom, hdelivery] at htold
  exact htold

/-! ### Two histories -/

/-- Every mode is that of some sensor value. -/
theorem getMode_surjective (m : AppcoreRm) : ∃ e, getMode e = m := by
  cases m with
  | unknown => exact ⟨.other 0, rfl⟩
  | portraitNormal => exact ⟨.event0, rfl⟩
  | portraitReverse => exact ⟨.event180, rfl⟩
  | landscapeNormal => exact ⟨.event90, rfl⟩
  | landscapeReverse => exact ⟨.event270, rfl⟩

/-- The mode and the due deferral show in what the machine puts out: a rotation event tells
the one, a property event the other. -/
theorem Delivery.eq_of_outputs (data : Ptr) (atom : ℕ) {m n : AppcoreRm}
    {due due' : Option Told}
    (h : ∀ is, Machine.outputs (Delivery.step data atom) ⟨m, false, due⟩ is =
      Machine.outputs (Delivery.step data atom) ⟨n, false, due'⟩ is) :
    m = n ∧ due = due' := by
  constructor
  · obtain ⟨e, he⟩ := getMode_surjective m
    have hrotation := h [(.sensor true e, granted)]
    by_contra hne
    simp [Delivery.step, Delivery.settle, granted, he, Ne.symm hne] at hrotation
  · have hproperty := h [(.property atom, granted)]
    have hdue : ∀ k d, Machine.outputs (Delivery.step data atom) ⟨k, false, d⟩
        [(.property atom, granted)] = d.toList := by
      intro k d
      cases d <;> simp [Delivery.step]
    rw [hdue, hdue] at hproperty
    simpa using congrArg List.head? hproperty

/-- A history that is over: it is empty, or its last step is a successful
`appcore_unset_rotation_cb`. -/
def Ended (rotateLock : Bool) (xs : List Input) : Prop :=
  xs = [] ∨ ∃ ys x, xs = ys ++ [x] ∧ x.event = .api .unset ∧
    ((Machine.run step (init rotateLock) ys).unsetRotationCb x.answers).1 = 0

/-- A history that is over leaves no callback. -/
theorem callback_of_ended {rotateLock : Bool} {xs : List Input} (h : Ended rotateLock xs) :
    (Machine.run step (init rotateLock) xs).rot.callback = none := by
  rcases h with rfl | ⟨ys, x, rfl, hx, hzero⟩
  · rfl
  · rw [Machine.run_snoc, step, hx]
    generalize Machine.run step (init rotateLock) ys = s at hzero ⊢
    have hreturns := returns_unsetRotationCb x.answers s
    rw [hzero] at hreturns
    dsimp only [runApi]
    generalize hv : (s.unsetRotationCb x.answers).2.view = v at hreturns
    have hcb : (s.unsetRotationCb x.answers).2.rot.callback = v.callback :=
      congrArg View.callback hv
    refine hcb.trans ?_
    cases hreturns with
    | unsetNone hnone => exact hnone
    | unset => rfl

/-- A registration that nothing holds back, with these events. -/
def probe (is : List (Signal × Answers)) : Episode :=
  ⟨false, some 1, none, granted, is⟩

/-- A registration that nothing holds back succeeds. -/
theorem registers_probe (is : List (Signal × Answers)) (hwf : s.WellFormed)
    (hnone : s.rot.callback = none) : (probe is).Registers s := by
  rw [Episode.Registers, before_eq hwf hnone, setRotationCb_of_ok]
  all_goals first | exact hnone | simp [probe, granted]

/-- **A new registration starts clean**: after two histories that are over, every new
callback is told the same by the same events, exactly if the histories have left the same
mode and the same due deferral. -/
theorem startsClean_iff {lock lock' : Bool} {xs ys : List Input} (hxs : Ended lock xs)
    (hys : Ended lock' ys) :
    let s := Machine.run step (init lock) xs
    let t := Machine.run step (init lock') ys
    (∀ E : Episode, E.Registers s → E.Registers t → E.deliveries s = E.deliveries t) ↔
      s.rot.mode = t.rot.mode ∧ s.due = t.due := by
  intro s t
  have hs : s.WellFormed := wellFormed_run lock xs
  have ht : t.WellFormed := wellFormed_run lock' ys
  have hsnone : s.rot.callback = none := callback_of_ended hxs
  have htnone : t.rot.callback = none := callback_of_ended hys
  constructor
  · intro h
    refine Delivery.eq_of_outputs none 1 fun is => ?_
    have hsprobe := registers_probe is hs hsnone
    have htprobe := registers_probe is ht htnone
    have hsame := h (probe is) hsprobe htprobe
    rw [deliveries_eq hs hsnone hsprobe, deliveries_eq ht htnone htprobe] at hsame
    exact hsame
  · rintro ⟨hmode, hdue⟩ E hEs hEt
    rw [deliveries_eq hs hsnone hEs, deliveries_eq ht htnone hEt, hmode, hdue]

/-- A callback is told a rotation, and is unset. -/
def toldAndUnset : List Input :=
  [⟨.api (.set (some 1) (some 10)), granted, .done⟩,
   ⟨.sensor 0 true .event90, granted, .done⟩,
   ⟨.api .unset, granted, .done⟩]

/-- The history is over. -/
theorem ended_toldAndUnset : Ended false toldAndUnset :=
  .inr ⟨toldAndUnset.dropLast, ⟨.api .unset, granted, .done⟩, rfl, rfl, rfl⟩

/-- The condition, for a fresh process and one that has told a callback a rotation. -/
theorem startsClean_iff_toldAndUnset :
    let s := Machine.run step (init false) []
    let t := Machine.run step (init false) toldAndUnset
    (∀ E : Episode, E.Registers s → E.Registers t → E.deliveries s = E.deliveries t) ↔
      s.rot.mode = t.rot.mode ∧ s.due = t.due :=
  startsClean_iff (.inl rfl) ended_toldAndUnset

/-- **A rotation is suppressed**: the new callback is not told the rotation, since an
earlier callback was told the same mode. -/
theorem not_startsClean_toldAndUnset :
    let s := Machine.run step (init false) []
    let t := Machine.run step (init false) toldAndUnset
    let E : Episode :=
      ⟨false, some 2, some 20, granted, [(.sensor true .event90, granted)]⟩
    Ended false [] ∧ Ended false toldAndUnset ∧ E.Registers s ∧ E.Registers t ∧
      E.deliveries s = [(.landscapeNormal, some 20)] ∧ E.deliveries t = [] :=
  ⟨.inl rfl, ended_toldAndUnset, rfl, rfl, by decide, by decide⟩

end Rotation

end AppCore
