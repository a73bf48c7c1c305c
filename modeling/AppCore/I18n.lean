import Mathlib.Data.Int.Notation
import Mathlib.Logic.Function.Basic
import Mathlib.Tactic.SplitIfs

/-!
# Internationalization

The functions of `appcore-i18n.c` over one state record: the sticky flag `_set`, the part
of the environment that names locales, the name by which each category got its effective
locale, and the current text domain. Which locale libc finds under a name is not modelled
here: two names may stand for one locale, as `POSIX` and `C` do. The results of
`vconf_get_str`, `setlocale`, `bindtextdomain` and `textdomain` are arguments, `Answers`; a
call that fails changes nothing.
-/

set_option autoImplicit false

namespace AppCore

/-- The locale categories of libc. -/
inductive LcCategory
  | ctype
  | numeric
  | time
  | collate
  | monetary
  | messages
  | paper
  | name
  | address
  | telephone
  | measurement
  | identification
  deriving DecidableEq, Repr

/-- The environment variables that name a locale. -/
inductive EnvVar
  | lang
  | lcAll
  | lc (c : LcCategory)
  deriving DecidableEq, Repr

/-- `_set` of `appcore-i18n.c`, and what its functions set in the process. -/
structure I18n where
  set : Bool
  env : EnvVar → Option String
  /-- The name by which the effective locale of each category was set. -/
  locale : LcCategory → String
  domain : Option String

namespace I18n

/-- The answers to the calls that one i18n function makes. `langset` and `regionformat`
are the strings read from vconf, `updateLangsetRetry` and `langsetRetry` the ones read again
for a second `setlocale`, in `update_lang` and in `__set_i18n`; each Boolean tells whether
its call succeeds. -/
structure Answers where
  langset : Option String
  updateLangsetRetry : Option String
  langsetRetry : Option String
  regionformat : Option String
  updateSetlocale : Bool
  updateSetlocaleRetry : Bool
  setlocale : Bool
  setlocaleRetry : Bool
  bindtextdomain : Bool
  textdomain : Bool
  deriving DecidableEq, Repr

/-- `setenv(var, value, 1)`. -/
def setenv (var : EnvVar) (value : String) (i : I18n) : I18n :=
  { i with env := Function.update i.env var (some value) }

/-- The name of a locale that the environment gives for a category: `LC_ALL`, else the
variable of the category, else `LANG`, else `"C"`; an empty value counts as unset. -/
def envLocale (env : EnvVar → Option String) (c : LcCategory) : String :=
  let value (var : EnvVar) := (env var).filter fun v => decide (v ≠ "")
  (((value .lcAll).or (value (.lc c))).or (value .lang)).getD "C"

/-- `setlocale(LC_ALL, locale)`: NULL only asks, the empty string takes the names of the
locales from the environment, any other string names the locale of every category. -/
def setlocaleAll (locale : Option String) (ok : Bool) (i : I18n) : I18n :=
  if ok = true then
    match locale with
    | none => i
    | some "" => { i with locale := envLocale i.env }
    | some l => { i with locale := fun _ => l }
  else i

/-- `update_lang`. -/
def updateLang (a : Answers) (i : I18n) : I18n :=
  match a.langset with
  | none => i
  | some lang =>
      let i := (i.setenv .lang lang).setenv (.lc .messages) lang
      let i := i.setlocaleAll (some "") a.updateSetlocale
      if a.updateSetlocale = false then
        i.setlocaleAll a.updateLangsetRetry a.updateSetlocaleRetry
      else i

/-- The categories that `update_region` sets, in its order. -/
def regionCategories : List LcCategory :=
  [.ctype, .numeric, .time, .collate, .monetary, .paper, .name, .address, .telephone,
   .measurement, .identification]

/-- `update_region`. -/
def updateRegion (a : Answers) (i : I18n) : I18n :=
  match a.regionformat with
  | none => i
  | some region => regionCategories.foldl (fun i c => i.setenv (.lc c) region) i

/-- The two attempts of `__set_i18n` at `setlocale`. -/
def initLocale (a : Answers) (i : I18n) : I18n :=
  let i := i.setlocaleAll (some "") a.setlocale
  if a.setlocale = false then i.setlocaleAll a.langsetRetry a.setlocaleRetry else i

/-- The static `__set_i18n`. -/
def setI18nStatic (domain : Option String) (a : Answers) (i : I18n) : ℤ × I18n :=
  match domain with
  | none => (-1, i)
  | some domain =>
      let i := i.initLocale a
      if a.setlocale = false ∧ a.setlocaleRetry = false then (-1, i)
      else if a.bindtextdomain = false then (-1, i)
      else if a.textdomain = false then (-1, i)
      else (0, { i with domain := some domain })

/-- `appcore_set_i18n`. The directory only goes to `bindtextdomain`. -/
def appcoreSetI18n (domainname : Option String) (a : Answers) (i : I18n) : ℤ × I18n :=
  let i := (i.updateLang a).updateRegion a
  let r := i.setI18nStatic domainname a
  if r.1 = 0 then (r.1, { r.2 with set := true }) else r

/-- `set_i18n`: nothing to do once a domain was set through the API. -/
def setI18n (domainname : Option String) (a : Answers) (i : I18n) : ℤ × I18n :=
  if i.set = true then (0, i)
  else ((i.updateLang a).updateRegion a).setI18nStatic domainname a

/-! ### The sticky flag

Of the functions here only `appcore_set_i18n` writes `_set`. -/

/-- Writing a variable leaves the flag alone. -/
@[simp] theorem set_setenv (var : EnvVar) (value : String) (i : I18n) :
    (i.setenv var value).set = i.set := rfl

/-- Setting the locale leaves the flag alone. -/
@[simp] theorem set_setlocaleAll (locale : Option String) (ok : Bool) (i : I18n) :
    (i.setlocaleAll locale ok).set = i.set := by
  cases ok with
  | false => rfl
  | true =>
      simp only [setlocaleAll, if_true]
      split <;> rfl

/-- `update_lang` leaves the flag alone. -/
@[simp] theorem set_updateLang (a : Answers) (i : I18n) : (i.updateLang a).set = i.set := by
  rw [updateLang]
  split
  · rfl
  · dsimp only
    split <;> simp

/-- `update_region` leaves the flag alone. -/
@[simp] theorem set_updateRegion (a : Answers) (i : I18n) :
    (i.updateRegion a).set = i.set := by
  rw [updateRegion]
  split
  · rfl
  · exact List.foldlRecOn (motive := fun j : I18n => j.set = i.set) _ _ rfl fun _ hj _ _ => hj

/-- The two tries at the locale leave the flag alone. -/
@[simp] theorem set_initLocale (a : Answers) (i : I18n) : (i.initLocale a).set = i.set := by
  rw [initLocale]
  split <;> simp

/-- `__set_i18n` leaves the flag to its callers. -/
@[simp] theorem set_setI18nStatic (domain : Option String) (a : Answers) (i : I18n) :
    (i.setI18nStatic domain a).2.set = i.set := by
  cases domain with
  | none => rfl
  | some domain =>
      rw [setI18nStatic]
      split_ifs <;> simp

/-- `set_i18n` leaves the sticky flag alone. -/
@[simp] theorem set_setI18n (domainname : Option String) (a : Answers) (i : I18n) :
    (i.setI18n domainname a).2.set = i.set := by
  rw [setI18n]
  split <;> simp

/-- The result of `__set_i18n` is decided by the arguments and the answers alone. -/
theorem setI18nStatic_fst (domain : Option String) (a : Answers) (i j : I18n) :
    (i.setI18nStatic domain a).1 = (j.setI18nStatic domain a).1 := by
  cases domain with
  | none => rfl
  | some domain =>
      rw [setI18nStatic, setI18nStatic]
      split_ifs <;> rfl

/-- The result of `set_i18n` depends on the state through the flag only. -/
theorem setI18n_fst (domainname : Option String) (a : Answers) {i j : I18n}
    (h : i.set = j.set) : (i.setI18n domainname a).1 = (j.setI18n domainname a).1 := by
  rw [setI18n, setI18n, h]
  split
  · rfl
  · exact setI18nStatic_fst _ _ _ _

/-! ### What is written

`update_lang` and `update_region` write different variables of the environment. -/

/-- The environment after a change of the language. -/
def setLang (lang : String) (env : EnvVar → Option String) : EnvVar → Option String
  | .lang => some lang
  | .lcAll => env .lcAll
  | .lc c => if c = .messages then some lang else env (.lc c)

/-- The environment after a change of the region. -/
def setRegion (region : String) (env : EnvVar → Option String) : EnvVar → Option String
  | .lang => env .lang
  | .lcAll => env .lcAll
  | .lc c => if c ∈ regionCategories then some region else env (.lc c)

/-- The region sets every category but the one for messages. -/
theorem mem_regionCategories {c : LcCategory} : c ∈ regionCategories ↔ c ≠ .messages := by
  cases c <;> decide

/-- `update_lang` writes two variables. -/
theorem env_setenv_setenv (i : I18n) (l : String) :
    ((i.setenv .lang l).setenv (.lc .messages) l).env = setLang l i.env := by
  funext v
  cases v with
  | lang => rfl
  | lcAll => rfl
  | lc c =>
      by_cases hc : c = .messages
      · simp [setenv, setLang, hc]
      · simp [setenv, setLang, hc]

/-- Setting the locale reads the environment and does not write it. -/
@[simp] theorem env_setlocaleAll (locale : Option String) (ok : Bool) (i : I18n) :
    (i.setlocaleAll locale ok).env = i.env := by
  cases ok with
  | false => rfl
  | true =>
      simp only [setlocaleAll, if_true]
      split <;> rfl

/-- After `update_lang` the environment has the language, whatever `setlocale` answers. -/
theorem env_updateLang {a : Answers} {lang : String} (hlang : a.langset = some lang) (i : I18n) :
    (i.updateLang a).env = setLang lang i.env := by
  rw [updateLang, hlang, ← env_setenv_setenv]
  dsimp only
  split <;> simp

/-- Writing one value to the variables of several categories. -/
theorem foldl_setenv (region : String) (cs : List LcCategory) (i : I18n) :
    cs.foldl (fun i c => i.setenv (.lc c) region) i =
      { i with env := fun v => if v ∈ cs.map EnvVar.lc then some region else i.env v } := by
  induction cs generalizing i with
  | nil => simp
  | cons c cs ih =>
      rw [List.foldl_cons, ih]
      congr 1
      funext v
      by_cases hv : v = .lc c
      · simp [setenv, hv]
      · simp [setenv, hv]

/-- `update_region` writes the variables of its categories and leaves it at that. -/
theorem updateRegion_eq {a : Answers} {region : String} (hregion : a.regionformat = some region)
    (i : I18n) : i.updateRegion a = { i with env := setRegion region i.env } := by
  rw [updateRegion, hregion]
  dsimp only
  rw [foldl_setenv]
  congr 1
  funext v
  cases v with
  | lang => simp [setRegion]
  | lcAll => simp [setRegion]
  | lc c => simp [setRegion]

end I18n

end AppCore
