import AppCore.RotationStep

/-!
# Invocations in the Trace

What the invocations of the callback have in common, read off the trace. A step delivers
either right after a reading, with the data that is stored for the callback, or from a
deferral that is due; so a property of invocations that the first kind has can fail only
at the second.

## Main results

* `Kept.step`: a relation between what is stored and the trace, over one step.
* `eachInvocation_step`: **the invocations of a step**.
-/

set_option autoImplicit false

namespace AppCore

namespace Rotation

/-! ### Relations between what is stored and the trace -/

/-- A relation between the stored callback, its data and the trace that API calls and
deliveries keep. -/
structure Kept (R : Ptr → Ptr → List Call → Prop) : Prop where
  returns : ∀ {a rotateLock v w c r l}, R v.callback v.cbdata l →
    Returns a rotateLock v c r w → R w.callback w.cbdata (l ++ [c.returned r])
  sf : ∀ {cb data l cs}, R cb data l → (∀ c ∈ cs, c.IsSf) → R cb data (l ++ cs)
  reading : ∀ {cb data l} src m, R cb data l → R cb data (l ++ [.reading src m])
  callback : ∀ {cb data l} f m d, R cb data l → R cb data (l ++ [.callback f m d])

/-- The relation holds of what the module has stored. -/
def Holds (R : Ptr → Ptr → List Call → Prop) (s : Rotation) : Prop :=
  R s.rot.callback s.rot.cbdata s.log

variable {R : Ptr → Ptr → List Call → Prop} (hR : Kept R)
include hR

/-- A part that leaves the stored callback and its data alone. -/
theorem Kept.frame {s t : Rotation} {v : View} (h : s.Holds R) (hframe : Frame s t)
    (hview : t.view = v) (hcb : v.callback = s.rot.callback)
    (hdata : v.cbdata = s.rot.cbdata) : t.Holds R := by
  obtain ⟨cs, hcs, hlog⟩ := hframe.log
  have hcb' : t.rot.callback = s.rot.callback := (congrArg View.callback hview).trans hcb
  have hdata' : t.rot.cbdata = s.rot.cbdata := (congrArg View.cbdata hview).trans hdata
  rw [Holds, hcb', hdata', hlog]
  exact hR.sf h hcs

/-- The exits of the API calls keep the relation. -/
theorem Kept.apiClosed : ApiClosed (fun _ => True) (Holds R) where
  call := by
    intro s t a c r _ h hframe hreturns
    obtain ⟨cs, hcs, hlog⟩ := hframe.log
    have hsf := hR.sf h hcs
    rw [← hlog] at hsf
    exact hR.returns (v := s.view) hsf hreturns
  resumed := fun _ h hframe hview => hR.frame h hframe hview rfl rfl
  query := fun m h => hR.reading .resume m h
  told := fun h _ _ => hR.callback _ _ _ h
  mode := fun _ h => h
  returned := by
    intro s a _ h
    by_cases hcb : s.view.callback = none
    · exact hR.returns (v := s.view) h (Returns.resumeNone hcb : Returns a true _ _ 0 _)
    · exact hR.returns (v := s.view) h (Returns.resume hcb : Returns a true _ _ 0 _)

/-- A reading keeps the relation. -/
theorem Kept.settles {s t : Rotation} {m : AppcoreRm} {direct : Prop} {data : Ptr}
    {a : Answers} {ρ : Reaction} (hs : Settles s m direct data a ρ t) (h : s.Holds R) :
    t.Holds R := by
  cases hs with
  | told => exact h
  | @deliver f =>
      have hcallback : (s.record (.callback f m data)).Holds R := hR.callback f m data h
      exact hR.apiClosed.reaction ρ.all_true hcallback
  | defer => exact h

/-- **One step** keeps the relation. -/
theorem Kept.step {s : Rotation} (x : Input) (hwf : s.WellFormed) (h : s.Holds R) :
    (s.step x).Holds R := by
  have ho := step_outcome x hwf
  generalize x.event = e, s.step x = t at ho
  cases ho with
  | api ho =>
      exact hR.apiClosed.apiOutcome (fun _ ht => hR.apiClosed.reaction x.reaction.all_true ht)
        trivial h ho
  | sensorIgnored => exact h
  | sensorLocked => exact hR.reading _ _ h
  | sensor _ _ hs => exact hR.settles hs (hR.reading _ _ h)
  | lockUnfollowed => exact h
  | lockQuiet => exact h
  | unlock _ hs => exact hR.settles hs (hR.reading _ _ h)
  | propertyIgnored => exact h
  | propertyTold => exact h
  | @propertyDeliver f =>
      have hcallback : (s.record (.callback f s.changedM s.changedData)).Holds R :=
        hR.callback f s.changedM s.changedData h
      exact hR.apiClosed.reaction x.reaction.all_true hcallback

/-- **A run** keeps the relation. -/
theorem Kept.run (hinit : R none none []) (rotateLock : Bool) (xs : List Input) :
    (Machine.run Rotation.step (init rotateLock) xs).Holds R :=
  (Machine.run_invariant (I := fun s : Rotation => s.WellFormed ∧ s.Holds R) Rotation.step
    (fun s x h => ⟨wellFormed_step s x h.1, hR.step x h.1 h.2⟩)
    ⟨wellFormed_init rotateLock, hinit⟩ xs).2

omit hR

/-! ### Invocations -/

/-- Every invocation in the trace satisfies `P` relative to the entries before it. -/
def EachInvocation (P : List Call → Addr → AppcoreRm → Ptr → Prop) (l : List Call) : Prop :=
  Trace.Each (fun pre c => ∀ f m data, c = .callback f m data → P pre f m data) l

variable {P : List Call → Addr → AppcoreRm → Ptr → Prop}

/-- Of an entry that is no invocation nothing is asked. -/
theorem eachInvocation_snoc {l : List Call} {c : Call} (hc : c.isCallback = false) :
    EachInvocation P (l ++ [c]) ↔ EachInvocation P l := by
  refine Trace.each_append_of_forall fun d hd pre f m data heq => ?_
  rw [List.mem_singleton.mp hd] at heq
  exact absurd hc (by simp [heq, Call.isCallback])

/-- Of an invocation `P` is asked, with the entries before it. -/
theorem eachInvocation_snoc_callback (l : List Call) (f : Addr) (m : AppcoreRm)
    (data : Ptr) :
    EachInvocation P (l ++ [.callback f m data]) ↔ EachInvocation P l ∧ P l f m data := by
  simp [EachInvocation, Trace.each_snoc]

/-- Calls of the sensor framework are no invocations. -/
theorem eachInvocation_frame {s t : Rotation} (h : Frame s t) :
    EachInvocation P t.log ↔ EachInvocation P s.log := by
  obtain ⟨cs, hcs, hlog⟩ := h.log
  rw [hlog]
  refine Trace.each_append_of_forall fun c hc pre f m data heq => ?_
  exact absurd (hcs c hc).isCallback (by simp [heq, Call.isCallback])

/-- What is assumed of `P`: it holds of an invocation right after its reading, with the
callback and data that are stored. -/
def HoldsAfterReading (R : Ptr → Ptr → List Call → Prop)
    (P : List Call → Addr → AppcoreRm → Ptr → Prop) : Prop :=
  ∀ f data l src m, R (some f) data (l ++ [.reading src m]) →
    P (l ++ [.reading src m]) f m data

variable (hR : Kept R) (hP : HoldsAfterReading R P)
include hR hP

/-- The API calls and the reactions of the callback add no invocation without `P`. -/
theorem apiClosed_eachInvocation (b : Prop) :
    ApiClosed (fun _ => True) fun s => s.Holds R ∧ (EachInvocation P s.log ↔ b) where
  call := by
    intro s t a c r hG h hframe hreturns
    refine ⟨hR.apiClosed.call hG h.1 hframe hreturns, ?_⟩
    rw [record, eachInvocation_snoc (by cases c <;> rfl), eachInvocation_frame hframe]
    exact h.2
  resumed := fun hG h hframe hview =>
    ⟨hR.apiClosed.resumed hG h.1 hframe hview, (eachInvocation_frame hframe).trans h.2⟩
  query := fun m h => ⟨hR.apiClosed.query m h.1, (eachInvocation_snoc rfl).trans h.2⟩
  told := by
    intro s l src f m h hcb hlog
    refine ⟨hR.apiClosed.told h.1 hcb hlog, ?_⟩
    have hstored := h.1
    rw [Holds, hcb, hlog] at hstored
    rw [record, eachInvocation_snoc_callback, and_iff_left]
    · exact h.2
    · rw [hlog]
      exact hP f _ l src m hstored
  mode := fun _ h => h
  returned := by
    intro s a hG h
    exact ⟨hR.apiClosed.returned (a := a) hG h.1, (eachInvocation_snoc rfl).trans h.2⟩

/-- What the callback does with the API invokes it as it should. -/
theorem eachInvocation_reaction (ρ : Reaction) {s : Rotation} (h : s.Holds R) :
    EachInvocation P (ρ.run s).log ↔ EachInvocation P s.log :=
  ((apiClosed_eachInvocation hR hP _).reaction ρ.all_true ⟨h, Iff.rfl⟩).2

/-- A reading that is settled is delivered as `P` asks for. -/
theorem eachInvocation_settles {s t : Rotation} {l : List Call} {src : Source}
    {m : AppcoreRm} {direct : Prop} {a : Answers} {ρ : Reaction}
    (hs : Settles s m direct s.rot.cbdata a ρ t) (h : s.Holds R)
    (hlog : s.log = l ++ [.reading src m]) :
    EachInvocation P t.log ↔ EachInvocation P s.log := by
  cases hs with
  | told => exact Iff.rfl
  | @deliver f hcb =>
      have htold := (apiClosed_eachInvocation hR hP (EachInvocation P s.log)).told
        ⟨h, Iff.rfl⟩ hcb hlog
      exact (eachInvocation_reaction hR hP ρ htold.1).trans htold.2
  | defer => exact Iff.rfl

/-- **Invocations of a step.** They satisfy `P`, but for the one by which a property event
meets a due deferral. -/
theorem eachInvocation_step {s : Rotation} (x : Input) (hwf : s.WellFormed)
    (h : s.Holds R) :
    EachInvocation P (s.step x).log ↔
      EachInvocation P s.log ∧ (DueProperty s x →
        ∀ f, s.rot.callback = some f → P s.log f s.changedM s.changedData) := by
  have ho := step_outcome x hwf
  obtain ⟨e, a, ρ⟩ := x
  generalize s.step _ = t at ho ⊢
  cases ho with
  | api ho =>
      have hclosed := apiClosed_eachInvocation hR hP (EachInvocation P s.log)
      have hapi := hclosed.apiOutcome (fun _ ht => hclosed.reaction ρ.all_true ht) trivial
        ⟨h, Iff.rfl⟩ ho
      rw [hapi.2]
      simp [DueProperty]
  | sensorIgnored => simp [DueProperty]
  | sensorLocked =>
      rw [record, eachInvocation_snoc rfl]
      simp [DueProperty]
  | sensor _ _ hs =>
      rw [eachInvocation_settles hR hP hs (hR.reading _ _ h) rfl, record,
        eachInvocation_snoc rfl]
      simp [DueProperty]
  | lockUnfollowed => simp [DueProperty]
  | lockQuiet => simp [DueProperty]
  | unlock _ hs =>
      rw [eachInvocation_settles hR hP hs (hR.reading _ _ h) rfl, record,
        eachInvocation_snoc rfl]
      simp [DueProperty]
  | propertyIgnored hignored =>
      rw [iff_self_and]
      rintro - ⟨heq, hpending, -⟩
      cases heq
      exact absurd (hignored.resolve_left (not_not.mpr rfl)) hpending
  | propertyTold _ htold =>
      rw [iff_self_and]
      rintro - ⟨-, -, hset, hmode⟩
      exact absurd (htold hset) hmode
  | @propertyDeliver f hpending hcb hset hmode =>
      have hdue : DueProperty s ⟨.property s.atomRotationLock, a, ρ⟩ :=
        ⟨rfl, hpending, hset, hmode⟩
      have hcallback : (s.record (.callback f s.changedM s.changedData)).Holds R :=
        hR.callback f s.changedM s.changedData h
      refine (eachInvocation_reaction hR hP ρ hcallback).trans ?_
      rw [record, eachInvocation_snoc_callback]
      simp [hdue, hcb]

end Rotation

end AppCore
