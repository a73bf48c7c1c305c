import AppCore.EflSpec
import AppCore.Lib.Trace

/-!
# The Text Domain

An application may set its text domain with `appcore_set_i18n`, and `appcore_init` sets one
named after the application where it has not. Both go through `__set_i18n`, which may fail
at each of three calls, and only the first raises the flag `_set`.

What the two have installed is read off the reports of a history: `set` for a call of
`appcore_set_i18n` that returned 0, and `init` for a call of `appcore_init` whose i18n step
succeeded. The history may also contain any other API call.

## Main results

* `I18n.domain_setI18nStatic`: a domain is installed exactly when `__set_i18n` succeeds.
* `appcoreSetI18n_of_succeeds`: an explicit domain is installed when the calls of libc
  succeed.
* `Told.runApi`: one call, with what it reports.
* `domain_run`: **the last explicit domain is the current one**, and the last default
  without any; a failure does not stand in the way of a later default, and a default does
  not override an explicit domain.
-/

set_option autoImplicit false

namespace AppCore

namespace I18n

/-- Setting the locale leaves the text domain alone. -/
@[simp] theorem domain_setlocaleAll (locale : Option String) (ok : Bool) (i : I18n) :
    (i.setlocaleAll locale ok).domain = i.domain := by
  cases ok with
  | false => rfl
  | true =>
      simp only [setlocaleAll, if_true]
      split <;> rfl

/-- `update_lang` leaves the text domain alone. -/
@[simp] theorem domain_updateLang (a : Answers) (i : I18n) :
    (i.updateLang a).domain = i.domain := by
  rw [updateLang]
  split
  · rfl
  · dsimp only
    split
    · rw [domain_setlocaleAll, domain_setlocaleAll]
      rfl
    · rw [domain_setlocaleAll]
      rfl

/-- `update_region` leaves the text domain alone. -/
@[simp] theorem domain_updateRegion (a : Answers) (i : I18n) :
    (i.updateRegion a).domain = i.domain := by
  rw [updateRegion]
  split
  · rfl
  · exact List.foldlRecOn (motive := fun j : I18n => j.domain = i.domain) _ _ rfl fun _ hj _ _ => hj

/-- The two tries at the locale leave the text domain alone. -/
@[simp] theorem domain_initLocale (a : Answers) (i : I18n) :
    (i.initLocale a).domain = i.domain := by
  rw [initLocale]
  split <;> simp

/-- **The domain is installed exactly when `__set_i18n` succeeds**: it fails before the
domain is written, at each of its exits. -/
theorem domain_setI18nStatic (domain : Option String) (a : Answers) (i : I18n) :
    (i.setI18nStatic domain a).2.domain =
      if (i.setI18nStatic domain a).1 = 0 then domain else i.domain := by
  cases domain with
  | none => rfl
  | some domain =>
      rw [setI18nStatic]
      by_cases hlocale : a.setlocale = false ∧ a.setlocaleRetry = false
      · simp [hlocale]
      · by_cases hbind : a.bindtextdomain = false
        · simp [hlocale, hbind]
        · by_cases htext : a.textdomain = false
          · simp [hlocale, hbind, htext]
          · simp [hlocale, hbind, htext]

/-- `appcore_set_i18n` returns what `__set_i18n` does. -/
theorem appcoreSetI18n_fst (domainname : Option String) (a : Answers) (i : I18n) :
    (i.appcoreSetI18n domainname a).1 =
      (((i.updateLang a).updateRegion a).setI18nStatic domainname a).1 := by
  rw [appcoreSetI18n]
  dsimp only
  split <;> rfl

/-- `appcore_set_i18n` installs the domain and raises the flag, or it does neither. -/
theorem appcoreSetI18n_domain (domainname : Option String) (a : Answers) (i : I18n) :
    let r := i.appcoreSetI18n domainname a
    r.2.domain = (if r.1 = 0 then domainname else i.domain) ∧
      r.2.set = (if r.1 = 0 then true else i.set) := by
  have hdomain := domain_setI18nStatic domainname a ((i.updateLang a).updateRegion a)
  rw [appcoreSetI18n]
  dsimp only
  by_cases hzero : (((i.updateLang a).updateRegion a).setI18nStatic domainname a).1 = 0
  · rw [if_pos hzero] at hdomain
    simp only [hzero, hdomain, if_true, and_self]
  · rw [if_neg hzero] at hdomain
    simp only [hzero, hdomain, if_false, domain_updateRegion, domain_updateLang,
      set_setI18nStatic, set_updateRegion, set_updateLang, and_self]

/-- `set_i18n` installs the domain when it succeeds, but not over an explicit one. -/
theorem domain_setI18n (domainname : Option String) (a : Answers) (i : I18n) :
    (i.setI18n domainname a).2.domain =
      if i.set = false ∧ (i.setI18n domainname a).1 = 0 then domainname else i.domain := by
  rw [setI18n]
  cases hset : i.set with
  | true => simp
  | false =>
      have hdomain := domain_setI18nStatic domainname a ((i.updateLang a).updateRegion a)
      simpa using hdomain

end I18n

/-- What a call reports that has set the text domain. -/
inductive DomainReport
  | set (domain : Option String)
  | init (name : Option String)
  deriving DecidableEq, Repr

/-- The domain of the last report of `appcore_set_i18n`, if there is one. -/
def lastSet (r : List DomainReport) : Option (Option String) :=
  Trace.latest (fun x =>
    match x with
    | .set domain => some (some domain)
    | .init _ => none) none r

/-- The name in the last report of `appcore_init`, if there is one. -/
def lastInit (r : List DomainReport) : Option (Option String) :=
  Trace.latest (fun x =>
    match x with
    | .set _ => none
    | .init name => some (some name)) none r

section Reports

variable (r : List DomainReport)

/-- An explicit domain is the last one. -/
@[simp] theorem lastSet_snoc_set (domain : Option String) :
    lastSet (r ++ [.set domain]) = some domain := Trace.latest_snoc

/-- A default is no explicit domain. -/
@[simp] theorem lastSet_snoc_init (name : Option String) :
    lastSet (r ++ [.init name]) = lastSet r := Trace.latest_snoc

/-- A default is the last one. -/
@[simp] theorem lastInit_snoc_init (name : Option String) :
    lastInit (r ++ [.init name]) = some name := Trace.latest_snoc

end Reports

namespace Process

/-- What an API call reports: `appcore_set_i18n` when it returns 0, and `appcore_init` when
it gets to its i18n step and this succeeds. -/
def domainReport (p : Process) : ApiCall → Option DomainReport
  | .setI18n domainname a =>
      if (p.i18n.appcoreSetI18n domainname a).1 = 0 then some (.set domainname) else none
  | .init name ops a =>
      if p.core.state = 0 ∧ ops.bind UiOps.cbApp ≠ none then
        if (p.i18n.setI18n name a.i18n).1 = 0 then some (.init name) else none
      else none
  | _ => none

/-- The reports of a history of API calls. -/
def domainReports (p : Process) (hist : List ApiCall) : List DomainReport :=
  Machine.outputs (fun p c => (p.runApi c, (p.domainReport c).toList)) p hist

/-- The flag and the domain are what the reports tell. -/
structure Told (r : List DomainReport) (p : Process) : Prop where
  set : p.i18n.set = true ↔ lastSet r ≠ none
  domain : p.i18n.domain = ((lastSet r).or (lastInit r)).join

variable {p q : Process} {r : List DomainReport}

/-- A call that reports nothing and leaves both alone. -/
theorem Told.congr (h : Told r p) (hset : q.i18n.set = p.i18n.set)
    (hdomain : q.i18n.domain = p.i18n.domain) : Told (r ++ []) q := by
  rw [List.append_nil]
  exact ⟨by rw [hset, h.set], by rw [hdomain, h.domain]⟩

/-- A call that does not touch the locale reports nothing. -/
theorem Told.keep (h : Told r p) {c : ApiCall} (hc : c.KeepsI18n) :
    Told (r ++ []) (p.runApi c) :=
  h.congr (by rw [i18n_runApi hc]) (by rw [i18n_runApi hc])

/-- The flag and the domain after `appcore_init`: those after its i18n step, if it gets so
far. -/
theorem i18n_appcoreInit (name : Option String) (ops : Option UiOps) (a : InitAnswers)
    (p : Process) :
    (p.appcoreInit name ops a).2.i18n =
      if p.core.state = 0 ∧ ops.bind UiOps.cbApp ≠ none then (p.i18n.setI18n name a.i18n).2
      else p.i18n := by
  rw [appcoreInit_eq]
  by_cases hguard : p.core.state ≠ 0 ∨ ops.bind UiOps.cbApp = none
  · have hturned : ¬ (p.core.state = 0 ∧ ops.bind UiOps.cbApp ≠ none) := by tauto
    rw [if_pos hguard, if_neg hturned]
  · have hreached : p.core.state = 0 ∧ ops.bind UiOps.cbApp ≠ none := by tauto
    rw [if_neg hguard, if_pos hreached]
    dsimp only
    split_ifs <;> rfl

/-- The i18n step of `appcore_init` and its report. -/
theorem Told.setI18n (h : Told r p) (name : Option String) (a : I18n.Answers)
    (hq : q.i18n = (p.i18n.setI18n name a).2) :
    Told (r ++ (if (p.i18n.setI18n name a).1 = 0 then some (.init name) else none).toList) q := by
  have hset : q.i18n.set = p.i18n.set := by rw [hq, I18n.set_setI18n]
  have hdomain := p.i18n.domain_setI18n name a
  rw [← hq] at hdomain
  split
  · rename_i hzero
    refine ⟨?_, ?_⟩
    · rw [hset, h.set, Option.toList_some, lastSet_snoc_init]
    · rw [Option.toList_some, lastSet_snoc_init, lastInit_snoc_init, hdomain]
      cases hlast : lastSet r with
      | none =>
          have hflag : p.i18n.set = false := by
            rw [← Bool.not_eq_true, h.set, hlast]
            simp
          rw [if_pos ⟨hflag, hzero⟩]
          rfl
      | some domain =>
          have hflag : p.i18n.set = true := h.set.mpr (by simp [hlast])
          rw [if_neg (by simp [hflag]), h.domain, hlast]
          rfl
  · rename_i hfail
    rw [if_neg fun hboth => hfail hboth.2] at hdomain
    exact h.congr hset hdomain

/-- **An API call and its report.** -/
theorem Told.runApi (h : Told r p) (c : ApiCall) :
    Told (r ++ (p.domainReport c).toList) (p.runApi c) := by
  cases c with
  | setI18n domainname a =>
      obtain ⟨hdomain, hset⟩ := p.i18n.appcoreSetI18n_domain domainname a
      rw [domainReport]
      by_cases hzero : (p.i18n.appcoreSetI18n domainname a).1 = 0
      · rw [if_pos hzero] at hdomain hset ⊢
        refine ⟨iff_of_true hset ?_, ?_⟩
        · simp
        · rw [Option.toList_some, lastSet_snoc_set]
          exact hdomain
      · rw [if_neg hzero] at hdomain hset ⊢
        exact h.congr hset hdomain
  | init name ops a =>
      have hi18n : (p.runApi (.init name ops a)).i18n = _ := i18n_appcoreInit name ops a p
      rw [domainReport]
      by_cases hguard : p.core.state = 0 ∧ ops.bind UiOps.cbApp ≠ none
      · rw [if_pos hguard] at hi18n
        rw [if_pos hguard]
        exact h.setI18n name a.i18n hi18n
      · rw [if_neg hguard] at hi18n
        rw [if_neg hguard]
        exact h.congr (by rw [hi18n]) (by rw [hi18n])
  | exit => exact h.keep (c := .exit) trivial
  | setEventCallback event cb data => exact h.keep (c := .setEventCallback event cb data) trivial
  | setSystemResourceReclaiming enable =>
      exact h.keep (c := .setSystemResourceReclaiming enable) trivial
  | flushMemory => exact h.keep (c := .flushMemory) trivial
  | rotation c a ρ => exact h.keep (c := .rotation c a ρ) trivial

/-- **The reports tell the flag and the domain** after any history. -/
theorem Told.run (h : Told r p) (hist : List ApiCall) :
    Told (r ++ p.domainReports hist) (Machine.run (fun p c => p.runApi c) p hist) := by
  induction hist generalizing p r with
  | nil => exact h.congr rfl rfl
  | cons c hist ih =>
      have hrest := ih (h.runApi c)
      rw [List.append_assoc] at hrest
      exact hrest

/-- The calls that the i18n step of `appcore_init` makes succeed, where a second `setlocale`
may make up for the first one. -/
def I18nStepSucceeds (a : I18n.Answers) : Prop :=
  (a.setlocale = true ∨ a.setlocaleRetry = true) ∧ a.bindtextdomain = true ∧ a.textdomain = true

/-- The three calls of `__set_i18n` succeed together. -/
theorem setI18nStatic_of_succeeds {name : String} {a : I18n.Answers} (ha : I18nStepSucceeds a)
    (i : I18n) : (i.setI18nStatic (some name) a).1 = 0 := by
  obtain ⟨hlocale, hbind, htext⟩ := ha
  rw [I18n.setI18nStatic, if_neg (by rcases hlocale with h | h <;> simp [h]), hbind, htext]
  rfl

/-- **An explicit domain is installed** when the calls of libc succeed: `appcore_set_i18n`
returns 0, and the flag keeps later defaults away. -/
theorem appcoreSetI18n_of_succeeds {name : String} {a : I18n.Answers} (ha : I18nStepSucceeds a)
    (i : I18n) :
    let r := i.appcoreSetI18n (some name) a
    r.1 = 0 ∧ r.2.domain = some name ∧ r.2.set = true := by
  intro r
  have hzero : r.1 = 0 := by
    rw [show r.1 = _ from i.appcoreSetI18n_fst (some name) a]
    exact setI18nStatic_of_succeeds ha _
  obtain ⟨hdomain, hset⟩ := i.appcoreSetI18n_domain (some name) a
  exact ⟨hzero, hdomain.trans (if_pos hzero), hset.trans (if_pos hzero)⟩

/-- The i18n step of `appcore_init` succeeds with its calls, or has nothing to do. -/
theorem setI18n_of_succeeds {name : String} {a : I18n.Answers} (ha : I18nStepSucceeds a)
    (i : I18n) : (i.setI18n (some name) a).1 = 0 := by
  rw [I18n.setI18n]
  split
  · rfl
  · exact setI18nStatic_of_succeeds ha _

/-- **The text domain after any history** of API calls in a fresh process: that of the last
`appcore_set_i18n` which returned 0, or else the name in the last `appcore_init` whose i18n
step succeeded. Without the former, `appcore_init` installs its default if its calls
succeed; after it, no `appcore_init` changes the locale or the domain any more. -/
theorem domain_run (env : EnvVar → Option String) (locale : LcCategory → String)
    (rotateLock : Bool) (hist : List ApiCall) :
    let p : Process := .fresh env locale rotateLock
    let q := Machine.run (fun p c => p.runApi c) p hist
    let r := p.domainReports hist
    q.i18n.domain = ((lastSet r).or (lastInit r)).join ∧
      (lastSet r = none → q.core.state = 0 → ∀ name ops a, ops.bind UiOps.cbApp ≠ none →
        I18nStepSucceeds a.i18n →
        (q.appcoreInit (some name) ops a).2.i18n.domain = some name) ∧
      (lastSet r ≠ none → ∀ name ops a, (q.appcoreInit name ops a).2.i18n = q.i18n) := by
  intro p q r
  have hfresh : Told [] p := ⟨by simp [p, Process.fresh, lastSet], rfl⟩
  have h : Told r q := hfresh.run hist
  refine ⟨h.domain, fun hnone hstate name ops a hops ha => ?_, fun hset name ops a => ?_⟩
  · have hflag : q.i18n.set = false := by
      rw [← Bool.not_eq_true, h.set, hnone]
      simp
    rw [i18n_appcoreInit, if_pos ⟨hstate, hops⟩, I18n.domain_setI18n,
      if_pos ⟨hflag, setI18n_of_succeeds ha _⟩]
  · have hflag : q.i18n.set = true := h.set.mpr hset
    rw [i18n_appcoreInit, I18n.setI18n, if_pos hflag, ite_self]

/-- Every call of the i18n step succeeds. -/
def i18nGranted : I18n.Answers :=
  ⟨some "ko_KR", none, none, some "ko_KR", true, true, true, true, true, true⟩

/-- An explicit domain that `bindtextdomain` refuses. -/
def refusedSet : List ApiCall :=
  [.setI18n (some "own") { i18nGranted with bindtextdomain := false }]

/-- The same domain refused and then taken. -/
def takenSet : List ApiCall :=
  refusedSet ++ [.setI18n (some "own") i18nGranted]

/-- After a refused domain the default is installed; after one that was taken it is not. -/
theorem domain_run_refusedAndTaken :
    let p : Process := .fresh (fun _ => none) (fun _ => "C") false
    let ops : Option UiOps := some ⟨none, some .doApp⟩
    let a : InitAnswers := ⟨i18nGranted, 0, 0⟩
    let q := Machine.run (fun p c => p.runApi c) p refusedSet
    let r := Machine.run (fun p c => p.runApi c) p takenSet
    (q.appcoreInit (some "app") ops a).2.i18n.domain = some "app" ∧
      (r.appcoreInit (some "app") ops a).2.i18n.domain = some "own" := by
  intro p ops a q r
  have hrefused := domain_run (fun _ => none) (fun _ => "C") false refusedSet
  have htaken := domain_run (fun _ => none) (fun _ => "C") false takenSet
  constructor
  · exact hrefused.2.1 rfl rfl "app" ops a (by simp [ops]) ⟨.inl rfl, rfl, rfl⟩
  · have hkept : (r.appcoreInit (some "app") ops a).2.i18n = r.i18n :=
      htaken.2.2 (by decide) (some "app") ops a
    rw [hkept]
    exact htaken.1

end Process

end AppCore
