import AppCore.RotationStep
import Mathlib.Data.List.Chain

/-!
# What the Application Was Told Last

`rot.mode` is what keeps the module from telling the application a mode twice. Four places
invoke the callback, with a mode that comes from an event, from a query or from an earlier
deferral. Each compares that mode with `rot.mode` first and stores it there afterwards; a
new registration changes neither the mode nor what was told.

## Main results

* `reports_resume`, `reports_settle`: a resume call and a reading report at most one mode,
  a new one.
* `reports_step`: **one step** reports at most one mode, a new one.
* `noDuplicate_run`: in every state reached `rot.mode` is the mode reported last, and no
  mode was reported twice in a row.
-/

set_option autoImplicit false

namespace AppCore

namespace Rotation

/-- The mode that an entry of the trace reports to the application. -/
def Call.reported : Call → Option AppcoreRm
  | .callback _ m _ => some m
  | _ => none

/-- The modes passed to the callback, in order. -/
def reports (l : List Call) : List AppcoreRm :=
  l.filterMap Call.reported

/-- A call of the sensor framework reports no mode. -/
theorem Call.IsSf.reported {c : Call} (h : c.IsSf) : c.reported = none := by
  cases c <;> first | rfl | exact h.elim

/-- Entries that report nothing. -/
theorem reports_append {l cs : List Call} (h : ∀ c ∈ cs, c.reported = none) :
    reports (l ++ cs) = reports l := by
  rw [reports, List.filterMap_append, List.filterMap_eq_nil_iff.mpr h, List.append_nil]
  rfl

/-- An invocation reports its mode. -/
theorem reports_snoc_callback (l : List Call) (f : Addr) (m : AppcoreRm) (data : Ptr) :
    reports (l ++ [.callback f m data]) = reports l ++ [m] := by
  simp [reports, Call.reported]

/-! ### One step -/

/-- From `s` to `t` no mode is reported. -/
structure Quiet (s t : Rotation) : Prop where
  reports : reports t.log = reports s.log
  mode : t.rot.mode = s.rot.mode

/-- From `s` to `t` no mode is reported, or one that the application does not have. -/
inductive Reports (s t : Rotation) : Prop
  | nothing : Quiet s t → Reports s t
  | mode {m : AppcoreRm} : s.rot.mode ≠ m → reports t.log = reports s.log ++ [m] →
      t.rot.mode = m → Reports s t

/-- Calls of the sensor framework are quiet. -/
theorem Quiet.frame {s t : Rotation} (h : Frame s t) : Quiet s t := by
  obtain ⟨cs, hcs, hlog⟩ := h.log
  refine ⟨?_, h.mode⟩
  rw [hlog, reports_append fun c hc => (hcs c hc).reported]

/-- An entry that reports nothing is quiet. -/
theorem quiet_record (s : Rotation) {c : Call} (hc : c.reported = none) :
    Quiet s (s.record c) :=
  ⟨reports_append (by simpa using hc), rfl⟩

/-- What is reported after a quiet part. -/
theorem Reports.after {s t u : Rotation} (h : Reports t u) (hquiet : Quiet s t) :
    Reports s u := by
  cases h with
  | nothing hquiet' =>
      exact .nothing ⟨hquiet'.reports.trans hquiet.reports, hquiet'.mode.trans hquiet.mode⟩
  | mode hne hreports hmode =>
      refine .mode (hquiet.mode ▸ hne) ?_ hmode
      rw [hreports, hquiet.reports]

/-- What is reported before an entry that reports nothing. -/
theorem Reports.record {s t : Rotation} (h : Reports s t) {c : Call} (hc : c.reported = none) :
    Reports s (t.record c) := by
  have hquiet := quiet_record t hc
  cases h with
  | nothing hquiet' =>
      exact .nothing ⟨hquiet.reports.trans hquiet'.reports, hquiet'.mode⟩
  | mode hne hreports hmode => exact .mode hne (hquiet.reports.trans hreports) hmode

/-- A delivery reports its mode. -/
theorem reports_deliver {s : Rotation} {f : Addr} {m : AppcoreRm} (data : Ptr)
    (hcb : s.rot.callback = some f) (hne : s.rot.mode ≠ m) :
    Reports s (s.deliver id m data) := by
  rw [deliver_eq m data hcb]
  exact .mode hne (reports_snoc_callback s.log f m data) rfl

/-- **A resume call** reports at most one mode, a new one. -/
theorem reports_resume (a : Answers) (s : Rotation) : Reports s (s.runApi id .resume a) := by
  have hresumes := resumes_resumeRotationCb id a s
  rw [runApi]
  generalize s.resumeRotationCb id a = rt at hresumes
  cases hresumes with
  | call hframe => exact (Reports.nothing (.frame hframe)).record rfl
  | @query t e hframe hcb hview _ =>
      have hcb' : t.rot.callback ≠ none := fun hnone =>
        hcb ((congrArg View.callback hview).symm.trans hnone)
      obtain ⟨f, hf⟩ := Option.ne_none_iff_exists'.mp hcb'
      refine Reports.record ?_ rfl
      rw [resumeDeliver]
      have hread : Quiet t (t.record (.reading .resume (getMode e))) := quiet_record t rfl
      have hreport : ∀ u : Rotation,
          Reports (t.record (.reading .resume (getMode e))) u → Reports s u :=
        fun u hu => (hu.after hread).after (.frame hframe)
      split
      next hnew => exact hreport _ (reports_deliver _ hf hnew.1)
      next => exact hreport _ (.nothing ⟨rfl, rfl⟩)

/-- **A reading** reports at most one mode, a new one. -/
theorem reports_settle {s t : Rotation} {m : AppcoreRm} {direct : Prop} {data : Ptr}
    {a : Answers} (h : Settles s m direct data a .done t) : Reports s t := by
  cases h with
  | told => exact .nothing ⟨rfl, rfl⟩
  | @deliver f _ _ hne => exact .mode hne (reports_snoc_callback s.log f m data) rfl
  | defer => exact .nothing ⟨rfl, rfl⟩

/-- **One step** reports at most one mode, a new one. -/
theorem reports_step {s : Rotation} (x : Input) (hx : x.reaction = .done)
    (hwf : s.WellFormed) : Reports s (step s x) := by
  have ho := step_outcome x hwf
  obtain ⟨e, a, ρ⟩ := x
  obtain rfl : ρ = .done := hx
  by_cases he : e = .api .resume
  · subst he
    exact reports_resume a s
  · generalize step s _ = t at ho
    cases ho with
    | @api c t ho =>
        cases ho with
        | call hframe =>
            exact (Reports.nothing (.frame hframe)).record (by cases c <;> rfl)
        | resumeTold => exact absurd rfl he
        | resumeDeliver => exact absurd rfl he
    | sensorIgnored => exact .nothing ⟨rfl, rfl⟩
    | sensorLocked => exact .nothing (quiet_record s rfl)
    | sensor _ _ hs => exact (reports_settle hs).after (quiet_record s rfl)
    | lockUnfollowed => exact .nothing ⟨rfl, rfl⟩
    | lockQuiet => exact .nothing ⟨rfl, rfl⟩
    | unlock _ hs => exact (reports_settle hs).after ⟨(quiet_record s rfl).reports, rfl⟩
    | propertyIgnored => exact .nothing ⟨rfl, rfl⟩
    | propertyTold => exact .nothing ⟨rfl, rfl⟩
    | @propertyDeliver f _ _ _ hne =>
        exact .mode hne (reports_snoc_callback s.log f s.changedM s.changedData) rfl

/-! ### Runs -/

/-- `rot.mode` is the mode reported last, and no mode was reported twice in a row. -/
structure NoDuplicate (s : Rotation) : Prop where
  mode : s.rot.mode = (reports s.log).getLastD .unknown
  changes : (reports s.log).IsChain (· ≠ ·)

/-- What a step reports differs from what was reported before. -/
theorem NoDuplicate.reports {s t : Rotation} (h : s.NoDuplicate) (hreports : Reports s t) :
    t.NoDuplicate := by
  cases hreports with
  | nothing hquiet =>
      refine ⟨?_, ?_⟩
      · rw [hquiet.mode, hquiet.reports]
        exact h.mode
      · rw [hquiet.reports]
        exact h.changes
  | @mode m hne hlog hmode =>
      refine ⟨?_, ?_⟩
      · rw [hmode, hlog, List.getLastD_concat]
      · rw [hlog]
        refine h.changes.append (List.isChain_singleton m) fun n hn k hk => ?_
        obtain rfl : m = k := by simpa using hk
        rwa [h.mode, List.getLastD_eq_getLast?, Option.mem_def.mp hn, Option.getD_some] at hne

/-- The invariant along a run whose callbacks do not call the module. -/
theorem reported_run (rotateLock : Bool) {xs : List Input} (hxs : ∀ x ∈ xs, x.reaction = .done) :
    (Machine.run step (init rotateLock) xs).WellFormed ∧
      (Machine.run step (init rotateLock) xs).NoDuplicate := by
  have hkeeps : ∀ s x, s.WellFormed ∧ s.NoDuplicate → x.reaction = .done →
      (step s x).WellFormed ∧ (step s x).NoDuplicate := by
    rintro s x ⟨hwf, h⟩ hx
    exact ⟨wellFormed_step s x hwf, h.reports (reports_step x hx hwf)⟩
  have hinit : (init rotateLock).NoDuplicate := ⟨rfl, .nil⟩
  exact Machine.AtEach.run_invariant hkeeps ⟨wellFormed_init rotateLock, hinit⟩
    (Machine.atEach_of_forall hxs)

/-- **No duplicate report**: whatever calls fail and whatever events come, as long as the
callback does not call the module, `rot.mode` is the mode that the application was told
last, and it is never told the same mode twice in a row. -/
theorem noDuplicate_run (rotateLock : Bool) {xs : List Input}
    (hxs : ∀ x ∈ xs, x.reaction = .done) :
    (Machine.run step (init rotateLock) xs).NoDuplicate :=
  (reported_run rotateLock hxs).2

/-- A rotation is reported; the callback is replaced, and both the resume call and the
sensor come back to the same mode. -/
def reportedAndReplaced : List Input :=
  [⟨.api (.set (some 1) (some 10)), granted, .done⟩,
   ⟨.sensor 0 true .event90, granted, .done⟩,
   ⟨.api .unset, granted, .done⟩,
   ⟨.api (.set (some 2) (some 20)), granted, .done⟩,
   ⟨.sensor 1 true .event90, granted, .done⟩,
   ⟨.api .pause, granted, .done⟩,
   ⟨.api .resume, { granted with sfCheckRotation := some .event90 }, .done⟩,
   ⟨.api .resume, granted, .done⟩]

/-- Only the change at the end is reported to the second callback. -/
theorem noDuplicate_run_reportedAndReplaced :
    reports (Machine.run step (init false) reportedAndReplaced).log =
        [.landscapeNormal, .portraitNormal] ∧
      (Machine.run step (init false) reportedAndReplaced).NoDuplicate :=
  ⟨by decide, noDuplicate_run false (by simp [reportedAndReplaced])⟩

end Rotation

end AppCore
