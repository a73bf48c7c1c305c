import AppCore.EventRouting

/-!
# Changes of the Language and of the Region

A change of the language and a change of the region reach `update_lang` and
`update_region` before the callback of the application. The two write different variables
of the environment, so that they leave the same environment in either order. But only
`update_lang` calls `setlocale` afterwards: what the region has written takes effect with
the next change of the language, and not before.

The locales are assumed to be available, that is, `setlocale` succeeds. Which locale libc
finds for a category under a name is a parameter, `named`: two names may stand for the same
locale, and the effective locales are compared, not their names.

## Main results

* `I18n.updateLang_eq`: what `update_lang` does when the locales are available.
* `I18n.setRegion_setLang`: the environment does not depend on the order.
* `changes_commute_iff`: **when the effective locale does not depend on the order either**.
-/

set_option autoImplicit false

namespace AppCore

namespace I18n

/-- The name of a locale that the variable of a category gives when `LANG` is `lang`. An
empty value counts as unset. -/
def localeName (lang : String) (value : Option String) : String :=
  ((value.filter fun v => decide (v ≠ "")).or
    ((some lang).filter fun v => decide (v ≠ ""))).getD "C"

variable {lang region : String} {env : EnvVar → Option String}

/-- The two changes write different variables. -/
theorem setRegion_setLang :
    setRegion region (setLang lang env) = setLang lang (setRegion region env) := by
  funext v
  cases v with
  | lang => rfl
  | lcAll => rfl
  | lc c =>
      rw [setRegion, setLang, setLang, setRegion]
      by_cases hc : c = .messages
      · rw [if_neg (not_not.mpr hc ∘ mem_regionCategories.mp), if_pos hc, if_pos hc]
      · rw [if_pos (mem_regionCategories.mpr hc), if_neg hc, if_pos (mem_regionCategories.mpr hc)]

/-- The name for a category after a change of the language. -/
theorem envLocale_setLang (hall : env .lcAll = none) (c : LcCategory) :
    envLocale (setLang lang env) c =
      localeName lang (if c = .messages then some lang else env (.lc c)) := by
  simp only [envLocale, setLang, hall, localeName, Option.filter_none, Option.none_or]

/-- `update_lang` writes its two variables and lets the environment take effect. -/
theorem updateLang_eq {a : Answers} (hlang : a.langset = some lang)
    (havailable : a.updateSetlocale = true) (i : I18n) :
    i.updateLang a =
      { i with env := setLang lang i.env, locale := envLocale (setLang lang i.env) } := by
  rw [updateLang, hlang]
  dsimp only
  rw [havailable, if_neg (by simp), setlocaleAll, if_pos rfl, ← env_setenv_setenv]
  rfl

end I18n

/-- A notification that the language is now `lang`. The callback of the application does
not change the locale by itself. -/
structure LanguageNotice (lang : String) (n : Notification) : Prop where
  name : n.name = some .langset
  langset : n.i18n.langset = some lang
  available : n.i18n.updateSetlocale = true
  calls : ∀ c ∈ n.calls, c.KeepsI18n

/-- A notification that the region is now `region`. -/
structure RegionNotice (region : String) (n : Notification) : Prop where
  name : n.name = some .regionformat
  regionformat : n.i18n.regionformat = some region
  calls : ∀ c ∈ n.calls, c.KeepsI18n

namespace Process

variable {L : Type*} (named : LcCategory → String → L)

/-- The two processes have the same environment and the same effective locale in every
category, where `named` is the locale that libc finds for a category under a name. -/
def SameLocale (p q : Process) : Prop :=
  p.i18n.env = q.i18n.env ∧ ∀ c, named c (p.i18n.locale c) = named c (q.i18n.locale c)

/-! ### The notifications -/

variable {n : Notification}

/-- The callback finds the locale updated and leaves it. -/
theorem i18n_deliver (hcalls : ∀ c ∈ n.calls, c.KeepsI18n) (op : SysOp) (p : Process) :
    (p.deliver op n).i18n = p.i18n := by
  rw [deliver]
  split
  · rfl
  · refine foldl_runApi (I := fun q => q.i18n = p.i18n) ?_ ?_
    · intro c hc q hq
      rw [i18n_runApi (hcalls c hc), hq]
    · rfl

/-- A notification of the language does what `update_lang` does. -/
theorem i18n_language {lang : String} (hn : LanguageNotice lang n) (p : Process) :
    (p.vconfCb n).i18n = p.i18n.updateLang n.i18n := by
  rw [vconfCb_eq, route, Notification.event, updateBefore, postAfter, hn.name]
  exact i18n_deliver hn.calls _ _

/-- A notification of the region does what `update_region` does. -/
theorem i18n_region {region : String} (hn : RegionNotice region n) (p : Process) :
    (p.vconfCb n).i18n = p.i18n.updateRegion n.i18n := by
  rw [vconfCb_eq, route, Notification.event, updateBefore, postAfter, hn.name]
  exact i18n_deliver hn.calls _ _

/-! ### The two orders -/

variable {p : Process} {lang region : String} {nl nr : Notification}

/-- The language first: the region is in the environment only. -/
theorem i18n_language_region (hnl : LanguageNotice lang nl) (hnr : RegionNotice region nr) :
    ((p.vconfCb nl).vconfCb nr).i18n =
      { p.i18n with
        env := I18n.setRegion region (I18n.setLang lang p.i18n.env)
        locale := I18n.envLocale (I18n.setLang lang p.i18n.env) } := by
  rw [i18n_region hnr, i18n_language hnl, I18n.updateLang_eq hnl.langset hnl.available,
    I18n.updateRegion_eq hnr.regionformat]

/-- The region first: both take effect. -/
theorem i18n_region_language (hnl : LanguageNotice lang nl) (hnr : RegionNotice region nr) :
    ((p.vconfCb nr).vconfCb nl).i18n =
      { p.i18n with
        env := I18n.setLang lang (I18n.setRegion region p.i18n.env)
        locale := I18n.envLocale (I18n.setLang lang (I18n.setRegion region p.i18n.env)) } := by
  rw [i18n_language hnl, i18n_region hnr, I18n.updateLang_eq hnl.langset hnl.available,
    I18n.updateRegion_eq hnr.regionformat]

/-- **When the two changes commute**: when every category that the region sets has, by the
variables of before, the locale of the region already. -/
theorem changes_commute_iff (hall : p.i18n.env .lcAll = none) (hnl : LanguageNotice lang nl)
    (hnr : RegionNotice region nr) :
    SameLocale named ((p.vconfCb nl).vconfCb nr) ((p.vconfCb nr).vconfCb nl) ↔
      ∀ c ∈ I18n.regionCategories,
        named c (I18n.localeName lang (p.i18n.env (.lc c))) =
          named c (I18n.localeName lang (some region)) := by
  have hall' : I18n.setRegion region p.i18n.env .lcAll = none := hall
  rw [SameLocale, i18n_language_region hnl hnr, i18n_region_language hnl hnr]
  dsimp only
  rw [and_iff_right I18n.setRegion_setLang]
  refine forall_congr' fun c => ?_
  rw [I18n.envLocale_setLang hall, I18n.envLocale_setLang hall', I18n.mem_regionCategories]
  by_cases hc : c = .messages
  · simp [hc]
  · rw [if_neg hc, if_neg hc, I18n.setRegion, if_pos (I18n.mem_regionCategories.mpr hc)]
    simp [hc]

/-- Locales by their names, but for the two names of the portable locale. -/
def portableNamed (_ : LcCategory) (name : String) : String :=
  if name = "POSIX" then "C" else name

/-- A notification of the key when the new language is `lang` and the new region `region`. -/
def changeNotice (key : VconfKey) (lang region : String) : Notification where
  name := some key
  int := 0
  sysmanBatCriticalLow := 1
  i18n := ⟨some lang, none, none, some region, true, true, true, true, true, true⟩
  answers := ⟨true, 1, true⟩
  calls := []

/-- Every category has the portable locale, and the region is the portable one under its
other name. -/
theorem changes_commute_otherName :
    let p : Process := .fresh (fun v => if v = .lcAll then none else some "POSIX")
      (fun _ => "C") false
    let nl := changeNotice .langset "ko_KR" "C"
    let nr := changeNotice .regionformat "ko_KR" "C"
    SameLocale portableNamed ((p.vconfCb nl).vconfCb nr) ((p.vconfCb nr).vconfCb nl) :=
  (changes_commute_iff portableNamed rfl ⟨rfl, rfl, rfl, by simp [changeNotice]⟩
    ⟨rfl, rfl, by simp [changeNotice]⟩).mpr (by decide)

/-- Korean, and then the region of the United States: the time is formatted in the Korean
way still, where the other order has changed it. -/
theorem not_changes_commute_otherRegion :
    let p : Process := .fresh (fun _ => none) (fun _ => "C") false
    let nl := changeNotice .langset "ko_KR" "en_US"
    let nr := changeNotice .regionformat "ko_KR" "en_US"
    ((p.vconfCb nl).vconfCb nr).i18n.locale .time = "ko_KR" ∧
      ((p.vconfCb nr).vconfCb nl).i18n.locale .time = "en_US" ∧
      ¬ SameLocale portableNamed ((p.vconfCb nl).vconfCb nr) ((p.vconfCb nr).vconfCb nl) := by
  refine ⟨by decide, by decide, fun h => ?_⟩
  have htime := h.2 .time
  exact absurd htime (by decide)

end Process

end AppCore
