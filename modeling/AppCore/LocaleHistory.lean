import AppCore.CoreHistory
import AppCore.LocaleChange
import AppCore.TextDomain

/-!
# The Locale over a History

`update_lang`, `update_region` and `__set_i18n` read settings from vconf, write them into the
environment and call `setlocale`. What they do to the locale is a list of changes: a
language or a region is written, or `setlocale` makes the environment effective, or one
named locale for every category. `Settings` keeps what a list of changes has left behind:
the language and the region that were written last, and which of them were in the
environment when the locales were last taken from it.

A run of the system makes the changes of its history of API calls and notifications, with
the API calls that their callbacks make.

## Main results

* `Shows.updateLang`, `Shows.updateRegion`, `Shows.setI18nStatic`: the changes that the
  functions of `appcore-i18n.c` make.
* `shows_act`, `shows_run`: **the process shows the settings** that the changes leave, over
  one input and over a history.
* `locale_system`: **the environment and the effective locale** after any run of the system.
-/

set_option autoImplicit false

namespace AppCore

/-! ### Settings -/

/-- A change of the locale. -/
inductive LocaleChange
  | language (lang : String)
  | region (region : String)
  /-- `setlocale(LC_ALL, "")`. -/
  | environment
  /-- `setlocale(LC_ALL, l)`. -/
  | named (l : String)
  deriving DecidableEq, Repr

/-- Where the effective locale is from: it is that of the start, or was taken from the
environment when this had the language and the region, or was named. -/
inductive Taken
  | inherited
  | environment (lang region : Option String)
  | named (l : String)
  deriving DecidableEq, Repr

/-- What changes leave behind. -/
structure Settings where
  lang : Option String
  region : Option String
  taken : Taken
  deriving DecidableEq, Repr

namespace Settings

/-- Before the first change. -/
def init : Settings :=
  ⟨none, none, .inherited⟩

/-- One change. -/
def step (s : Settings) : LocaleChange → Settings
  | .language lang => { s with lang := some lang }
  | .region region => { s with region := some region }
  | .environment => { s with taken := .environment s.lang s.region }
  | .named l => { s with taken := .named l }

end Settings

/-- The change sets the effective locale. -/
def LocaleChange.setsLocale : LocaleChange → Bool
  | .environment => true
  | .named _ => true
  | _ => false

/-- The language that was written last. -/
def lastLanguage (cs : List LocaleChange) : Option String :=
  Trace.latest (fun c =>
    match c with
    | .language lang => some (some lang)
    | _ => none) none cs

/-- The region that was written last. -/
def lastRegion (cs : List LocaleChange) : Option String :=
  Trace.latest (fun c =>
    match c with
    | .region region => some (some region)
    | _ => none) none cs

namespace Settings

/-- The settings have the language and the region that were written last. -/
theorem run_init (cs : List LocaleChange) :
    (Machine.run step init cs).lang = lastLanguage cs ∧
      (Machine.run step init cs).region = lastRegion cs := by
  induction cs using List.reverseRecOn with
  | nil => exact ⟨rfl, rfl⟩
  | append_singleton cs c ih =>
      obtain ⟨hlang, hregion⟩ := ih
      rw [Machine.run_snoc, lastLanguage, lastRegion, Trace.latest_snoc, Trace.latest_snoc]
      cases c with
      | language lang => exact ⟨rfl, hregion⟩
      | region region => exact ⟨hlang, rfl⟩
      | environment => exact ⟨hlang, hregion⟩
      | named l => exact ⟨hlang, hregion⟩

/-- What is only written does not change where the effective locale is from. -/
theorem taken_run {cs : List LocaleChange} (hcs : ∀ c ∈ cs, c.setsLocale = false)
    {s : Settings} : (Machine.run step s cs).taken = s.taken := by
  induction cs generalizing s with
  | nil => rfl
  | cons c cs ih =>
      obtain ⟨hc, hcs⟩ := List.forall_mem_cons.mp hcs
      rw [Machine.run_cons, ih hcs]
      cases c with
      | language lang => rfl
      | region region => rfl
      | environment => exact absurd hc (by simp [LocaleChange.setsLocale])
      | named l => exact absurd hc (by simp [LocaleChange.setsLocale])

end Settings

namespace I18n

variable {env : EnvVar → Option String} {lang region : Option String}

/-- The environment `env` with a language and a region written into it. -/
def written (env : EnvVar → Option String) (lang region : Option String) :
    EnvVar → Option String
  | .lang => lang.or (env .lang)
  | .lcAll => env .lcAll
  | .lc c => if c = .messages then lang.or (env (.lc c)) else region.or (env (.lc c))

/-- Where nothing was written the environment is that of the start. -/
theorem written_none : written env none none = env := by
  funext v
  cases v with
  | lang => rfl
  | lcAll => rfl
  | lc c => exact ite_self _

/-- The last language stays. -/
theorem setLang_written (l : String) :
    setLang l (written env lang region) = written env (some l) region := by
  funext v
  cases v with
  | lang => rfl
  | lcAll => rfl
  | lc c =>
      rw [setLang, written, written]
      split <;> rfl

/-- The last region stays. -/
theorem setRegion_written (r : String) :
    setRegion r (written env lang region) = written env lang (some r) := by
  funext v
  cases v with
  | lang => rfl
  | lcAll => rfl
  | lc c =>
      rw [setRegion, written, written]
      by_cases hc : c = .messages
      · rw [if_pos hc, if_neg (not_not.mpr hc ∘ mem_regionCategories.mp), if_pos hc]
      · rw [if_neg hc, if_neg hc, if_pos (mem_regionCategories.mpr hc), Option.some_or]

end I18n

/-- The effective locale, when the process has started with `env` and `locale`. -/
def Taken.locale (env : EnvVar → Option String) (locale : LcCategory → String) :
    Taken → LcCategory → String
  | .inherited => locale
  | .environment lang region => I18n.envLocale (I18n.written env lang region)
  | .named l => fun _ => l

/-! ### The changes that the functions make -/

namespace I18n.Answers

variable (a : I18n.Answers)

/-- A call of `setlocale(LC_ALL, locale)`. -/
def takes (locale : Option String) (ok : Bool) : List LocaleChange :=
  if ok = true then
    locale.elim [] fun l => if l = "" then [.environment] else [.named l]
  else []

/-- `setlocale` for the environment, and once more for the language if that fails. -/
def takesTwice (ok : Bool) (retry : Option String) (retryOk : Bool) : List LocaleChange :=
  takes (some "") ok ++ if ok = false then takes retry retryOk else []

/-- `update_lang`. -/
def languageChanges : List LocaleChange :=
  match a.langset with
  | none => []
  | some lang =>
      .language lang :: takesTwice a.updateSetlocale a.updateLangsetRetry a.updateSetlocaleRetry

/-- `update_region`. -/
def regionChanges : List LocaleChange :=
  match a.regionformat with
  | none => []
  | some region => [.region region]

/-- `update_lang`, `update_region` and `__set_i18n`. -/
def setI18nChanges (domain : Option String) : List LocaleChange :=
  a.languageChanges ++ a.regionChanges ++
    if domain = none then [] else takesTwice a.setlocale a.langsetRetry a.setlocaleRetry

end I18n.Answers

/-- The module shows the settings, in a process that has started with `env` and `locale`. -/
structure Shows (env : EnvVar → Option String) (locale : LcCategory → String) (i : I18n)
    (s : Settings) : Prop where
  env_eq : i.env = I18n.written env s.lang s.region
  locale_eq : i.locale = s.taken.locale env locale

namespace Shows

open I18n.Answers (takes takesTwice)

variable {env : EnvVar → Option String} {locale : LcCategory → String} {i : I18n} {s : Settings}

/-- A call of `setlocale` takes the locale from the environment or names it, if it succeeds. -/
theorem setlocaleAll (h : Shows env locale i s) (l : Option String) (ok : Bool) :
    Shows env locale (i.setlocaleAll l ok) (Machine.run Settings.step s (takes l ok)) := by
  cases ok with
  | false => exact h
  | true =>
      simp only [I18n.setlocaleAll, takes, if_true]
      split
      · exact h
      · refine ⟨h.env_eq, ?_⟩
        change I18n.envLocale i.env = I18n.envLocale _
        rw [h.env_eq]
      · rename_i l hl
        rw [Option.elim_some, if_neg hl]
        exact ⟨h.env_eq, rfl⟩

/-- A first try from the environment, and a second one by name. -/
theorem setlocaleTwice (h : Shows env locale i s) (ok : Bool) (retry : Option String)
    (retryOk : Bool) :
    Shows env locale
      (if ok = false then (i.setlocaleAll (some "") ok).setlocaleAll retry retryOk
        else i.setlocaleAll (some "") ok)
      (Machine.run Settings.step s (takesTwice ok retry retryOk)) := by
  have hfirst := h.setlocaleAll (some "") ok
  rw [takesTwice, Machine.run_append]
  split
  · exact hfirst.setlocaleAll retry retryOk
  · exact hfirst

/-- `update_lang` writes the language and takes the locales. -/
theorem updateLang (h : Shows env locale i s) (a : I18n.Answers) :
    Shows env locale (i.updateLang a) (Machine.run Settings.step s a.languageChanges) := by
  rw [I18n.updateLang, I18n.Answers.languageChanges]
  cases a.langset with
  | none => exact h
  | some lang =>
      have hset : Shows env locale ((i.setenv .lang lang).setenv (.lc .messages) lang)
          (s.step (.language lang)) := by
        refine ⟨?_, h.locale_eq⟩
        rw [I18n.env_setenv_setenv, h.env_eq, I18n.setLang_written]
        rfl
      exact hset.setlocaleTwice a.updateSetlocale a.updateLangsetRetry a.updateSetlocaleRetry

/-- `update_region` writes the region and leaves the locales as they are. -/
theorem updateRegion (h : Shows env locale i s) (a : I18n.Answers) :
    Shows env locale (i.updateRegion a) (Machine.run Settings.step s a.regionChanges) := by
  cases hregion : a.regionformat with
  | none =>
      rw [I18n.updateRegion, I18n.Answers.regionChanges, hregion]
      exact h
  | some region =>
      rw [I18n.updateRegion_eq hregion, I18n.Answers.regionChanges, hregion]
      refine ⟨?_, h.locale_eq⟩
      dsimp only
      rw [h.env_eq, I18n.setRegion_written]
      rfl

/-- `__set_i18n` takes the locales when it is given a domain, whatever comes of it. -/
theorem setI18nStatic (h : Shows env locale i s) (domain : Option String) (a : I18n.Answers) :
    Shows env locale (i.setI18nStatic domain a).2
      (Machine.run Settings.step s
        (if domain = none then []
        else takesTwice a.setlocale a.langsetRetry a.setlocaleRetry)) := by
  cases domain with
  | none => exact h
  | some domain =>
      have hinit : Shows env locale (i.initLocale a) _ :=
        h.setlocaleTwice a.setlocale a.langsetRetry a.setlocaleRetry
      rw [I18n.setI18nStatic]
      split
      · exact hinit
      · split
        · exact hinit
        · split
          · exact hinit
          · exact ⟨hinit.env_eq, hinit.locale_eq⟩

/-- The common body of `appcore_set_i18n` and `set_i18n`. -/
theorem setI18nBody (h : Shows env locale i s) (domain : Option String) (a : I18n.Answers) :
    Shows env locale (((i.updateLang a).updateRegion a).setI18nStatic domain a).2
      (Machine.run Settings.step s (a.setI18nChanges domain)) := by
  rw [I18n.Answers.setI18nChanges, Machine.run_append, Machine.run_append]
  exact ((h.updateLang a).updateRegion a).setI18nStatic domain a

/-- `appcore_set_i18n` makes its changes whether its last step succeeds or not. -/
theorem appcoreSetI18n (h : Shows env locale i s) (domain : Option String) (a : I18n.Answers) :
    Shows env locale (i.appcoreSetI18n domain a).2
      (Machine.run Settings.step s (a.setI18nChanges domain)) := by
  have hbody := h.setI18nBody domain a
  rw [I18n.appcoreSetI18n]
  dsimp only
  split
  · exact ⟨hbody.env_eq, hbody.locale_eq⟩
  · exact hbody

/-- `set_i18n` changes nothing once a domain was set through the API. -/
theorem setI18n (h : Shows env locale i s) (domain : Option String) (a : I18n.Answers) :
    Shows env locale (i.setI18n domain a).2
      (Machine.run Settings.step s (if i.set = true then [] else a.setI18nChanges domain)) := by
  rw [I18n.setI18n]
  split
  · exact h
  · exact h.setI18nBody domain a

end Shows

/-! ### Histories -/

namespace Process

/-- The changes that an API call makes: `appcore_init` gets to its i18n step only when it is
not in use and has a callback, and leaves an explicit domain alone. -/
def apiChanges (p : Process) : ApiCall → List LocaleChange
  | .setI18n domainname a => a.setI18nChanges domainname
  | .init name ops a =>
      if p.core.state = 0 ∧ ops.bind UiOps.cbApp ≠ none ∧ p.i18n.set = false then
        a.i18n.setI18nChanges name
      else []
  | _ => []

/-- The changes that API calls make one after the other. -/
def callsChanges (p : Process) (cs : List ApiCall) : List LocaleChange :=
  Machine.outputs (fun p c => (p.runApi c, p.apiChanges c)) p cs

/-- The changes that are made before the callback of a notification. -/
def noticeChanges (n : Notification) : List LocaleChange :=
  match n.name with
  | some .langset => n.i18n.languageChanges
  | some .regionformat => n.i18n.regionChanges
  | _ => []

/-- The changes that the callback of an event makes, if there is one. -/
def deliveryChanges (p : Process) (op : SysOp) (n : Notification) : List LocaleChange :=
  match op.func with
  | none => []
  | some fn => (p.call (.sysCallback fn op.data)).callsChanges n.calls

/-- The changes that an input makes: a notification reaches `__vconf_cb` if that follows the
key. -/
def localeChanges (p : Process) : CoreInput → List LocaleChange
  | .api c => p.apiChanges c
  | .vconf n =>
      if n.name.all (fun k => decide (k ∈ p.vconf)) = true then
        noticeChanges n ++
          n.event.elim [] fun e => (p.updateBefore n).deliveryChanges (p.core.sops e.slot) n
      else []

/-- The changes of a history. -/
def changes (p : Process) (hist : List CoreInput) : List LocaleChange :=
  Machine.outputs (fun p x => (p.act x.action, p.localeChanges x)) p hist

variable {env : EnvVar → Option String} {locale : LcCategory → String} {p : Process}
  {s : Settings}

/-- One API call. -/
theorem shows_runApi (h : Shows env locale p.i18n s) (c : ApiCall) :
    Shows env locale (p.runApi c).i18n (Machine.run Settings.step s (p.apiChanges c)) := by
  cases c with
  | setI18n domainname a => exact h.appcoreSetI18n domainname a
  | init name ops a =>
      have hi18n : (p.runApi (.init name ops a)).i18n = _ := i18n_appcoreInit name ops a p
      rw [hi18n, apiChanges]
      by_cases hguard : p.core.state = 0 ∧ ops.bind UiOps.cbApp ≠ none
      · rw [if_pos hguard]
        have hstep := h.setI18n name a.i18n
        cases hset : p.i18n.set with
        | false => simpa [hguard, hset] using hstep
        | true => simpa [hset] using hstep
      · rw [if_neg hguard, if_neg (by tauto)]
        exact h
  | exit => rw [i18n_runApi (c := .exit) trivial]; exact h
  | setEventCallback event cb data =>
      rw [i18n_runApi (c := .setEventCallback event cb data) trivial]
      exact h
  | setSystemResourceReclaiming enable => exact h
  | flushMemory =>
      rw [i18n_runApi (c := .flushMemory) trivial]
      exact h
  | rotation c a ρ => exact h

/-- The API calls of a callback change the locale as they are made. -/
theorem shows_calls (h : Shows env locale p.i18n s) (cs : List ApiCall) :
    Shows env locale (cs.foldl (fun p c => p.runApi c) p).i18n
      (Machine.run Settings.step s (p.callsChanges cs)) := by
  induction cs generalizing p s with
  | nil => exact h
  | cons c cs ih =>
      rw [callsChanges, Machine.outputs_cons, Machine.run_append]
      exact ih (shows_runApi h c)

/-- Of the invocation of an event callback only its API calls change the locale. -/
theorem shows_deliver (h : Shows env locale p.i18n s) (op : SysOp) (n : Notification) :
    Shows env locale (p.deliver op n).i18n
      (Machine.run Settings.step s (p.deliveryChanges op n)) := by
  rw [deliver, deliveryChanges]
  cases op.func with
  | none => exact h
  | some fn => exact shows_calls (p := p.call (.sysCallback fn op.data)) h n.calls

/-- The changes that come before the event callback. -/
theorem shows_updateBefore (h : Shows env locale p.i18n s) (n : Notification) :
    Shows env locale (p.updateBefore n).i18n (Machine.run Settings.step s (noticeChanges n)) := by
  rw [updateBefore, noticeChanges]
  cases n.name with
  | none => exact h
  | some key =>
      cases key with
      | langset => exact h.updateLang n.i18n
      | regionformat => exact h.updateRegion n.i18n
      | _ => exact h

/-- The flush after a notification leaves the locale alone. -/
theorem i18n_postAfter (n : Notification) (p : Process) : (p.postAfter n).i18n = p.i18n := by
  rw [postAfter]
  split
  · exact congrArg Platform.i18n (platform_cbApp .lowmemPost none n.answers p)
  · rfl

/-- **One input** makes its changes. -/
theorem shows_act (h : Shows env locale p.i18n s) (x : CoreInput) :
    Shows env locale (p.act x.action).i18n (Machine.run Settings.step s (p.localeChanges x)) := by
  cases x with
  | api c => exact shows_runApi h c
  | vconf n =>
      rw [CoreInput.action, act, localeChanges]
      split
      · rw [vconfCb_eq, route, i18n_postAfter, Machine.run_append]
        have hbefore := shows_updateBefore h n
        cases n.event with
        | none => exact hbefore
        | some e => exact shows_deliver hbefore (p.core.sops e.slot) n
      · exact h

/-- **A history** makes its changes. -/
theorem shows_run (h : Shows env locale p.i18n s) (hist : List CoreInput) :
    Shows env locale (Machine.run act p (hist.map CoreInput.action)).i18n
      (Machine.run Settings.step s (p.changes hist)) := by
  induction hist generalizing p s with
  | nil => exact h
  | cons x hist ih =>
      rw [changes, Machine.outputs_cons, Machine.run_append]
      exact ih (shows_act h x)

end Process

namespace System

variable {w : ℕ}

/-- The changes of a run. -/
def localeChanges (s : System) (is : List (Input w)) : List LocaleChange :=
  s.process.changes (s.coreHistory is)

/-- **The locale after any run of the system.** The last language that was written is in
`LANG` and `LC_MESSAGES`, the last region in the variables of the other categories, and
`LC_ALL` is left alone. The effective locale is what the environment named when the locales
were last taken from it, unless they were named since or never set: what is written after
that has no effect. -/
theorem locale_system (s : System) (is : List (Input w)) :
    let t := Machine.run step s is
    let cs := s.localeChanges is
    t.process.i18n.env =
        I18n.written s.process.i18n.env (lastLanguage cs) (lastRegion cs) ∧
      (∀ pre post, cs = pre ++ .environment :: post → (∀ c ∈ post, c.setsLocale = false) →
        t.process.i18n.locale = I18n.envLocale
          (I18n.written s.process.i18n.env (lastLanguage pre) (lastRegion pre))) ∧
      (∀ pre l post, cs = pre ++ .named l :: post → (∀ c ∈ post, c.setsLocale = false) →
        ∀ c, t.process.i18n.locale c = l) ∧
      ((∀ c ∈ cs, c.setsLocale = false) → t.process.i18n.locale = s.process.i18n.locale) := by
  intro t cs
  have h : Shows s.process.i18n.env s.process.i18n.locale t.process.i18n
      (Machine.run Settings.step .init cs) := by
    have hi18n : t.process.i18n = _ := congrArg Central.i18n (central_system s is)
    rw [hi18n]
    exact Process.shows_run ⟨I18n.written_none.symm, rfl⟩ (s.coreHistory is)
  obtain ⟨hlang, hregion⟩ := Settings.run_init cs
  refine ⟨?_, fun pre post hcs hpost => ?_, fun pre l post hcs hpost c => ?_, fun hnone => ?_⟩
  · rw [h.env_eq, hlang, hregion]
  · obtain ⟨hpre, hpre'⟩ := Settings.run_init pre
    rw [h.locale_eq, hcs, Machine.run_append, Machine.run_cons, Settings.taken_run hpost]
    rw [Settings.step, Taken.locale, hpre, hpre']
  · rw [h.locale_eq, hcs, Machine.run_append, Machine.run_cons, Settings.taken_run hpost]
    rfl
  · rw [h.locale_eq, Settings.taken_run hnone]
    rfl

open Process (plain goodCall fullOps changeNotice)

/-- A call, in which the language is changed to Korean and then the region to the United
States. -/
def regionLater : List (Input 64) :=
  [.action (.enter (goodCall fullOps [])) noDisplay,
   .action (.vconf (changeNotice .langset "ko_KR" "en_US")) noDisplay,
   .action (.vconf (changeNotice .regionformat "ko_KR" "en_US")) noDisplay]

/-- The region is in the environment, but the effective locale is the Korean one still. -/
theorem locale_system_regionLater :
    let t := Machine.run step (init plain 77) regionLater
    t.process.i18n.env (.lc .time) = some "en_US" ∧ t.process.i18n.locale .time = "ko_KR" := by
  obtain ⟨henv, htaken, -, -⟩ := locale_system (init plain 77) regionLater
  refine ⟨congrFun henv (.lc .time) |>.trans (by decide), ?_⟩
  have hlocale := htaken [.environment, .language "ko_KR"] [.region "en_US"] (by decide) (by decide)
  exact congrFun hlocale .time |>.trans (by decide)

end System

end AppCore
