import AppCore.I18n
import AppCore.Rotation
import AppCore.WinList
import Mathlib.Data.Finset.Basic
import Mathlib.Tactic.Tauto

/-!
# The Process, and the Core Module

`Process` is the state of a process that uses the library: the statics of `appcore.c`,
`appcore-efl.c`, `appcore-i18n.c` and `appcore-rotation.c`, and what these modules hold
outside, that is the vconf keys `__vconf_cb` follows, the AUL handler, and the live event
handlers and timers of Ecore. The trace `calls` records what the library calls: the
callbacks of the application, and the outside functions whose calls matter to it.

The second half models `appcore.c`: the table of system events, the registration of
event callbacks, and `appcore_init` with `appcore_exit`. A vconf notification call
succeeds, and a call on a null pointer is recorded as `fault`.
-/

set_option autoImplicit false

namespace AppCore

/-- A vconf key: the five keys of the table `evtops`, or another. -/
inductive VconfKey
  | sysmanLowMemory
  | sysmanBatteryStatusLow
  | langset
  | regionformat
  | regionformatTime1224
  | other (name : String)
  deriving DecidableEq, Repr

/-- What a `mfcb` pointer points to. -/
inductive MfCb
  | eflMemoryFlushCb
  deriving DecidableEq, Repr

/-- `struct ui_priv`. -/
structure UiPriv where
  name : Option String
  state : AppState
  hshow : Option ℕ
  hhide : Option ℕ
  hvchange : Option ℕ
  mftimer : Option ℕ
  ops : Option AppcoreOps
  mfcb : Option MfCb
  deriving DecidableEq, Repr

/-- A zeroed `struct ui_priv`. -/
def UiPriv.zero : UiPriv :=
  ⟨none, .none, none, none, none, none, none, none⟩

/-- A zeroed `struct appcore`. -/
def Appcore.zero : Appcore :=
  ⟨0, none, fun _ => ⟨none, none⟩⟩

/-- An entry of the trace: a callback of the application with its arguments, or a call to
the outside. -/
inductive Call
  | create (fn : Addr) (data : Ptr)
  | terminate (fn : Addr) (data : Ptr)
  | pause (fn : Addr) (data : Ptr)
  | resume (fn : Addr) (data : Ptr)
  | reset (fn : Addr) (b data : Ptr)
  | cbApp (fn : Addr) (e : AppEvent) (data : Ptr)
  | sysCallback (fn : Addr) (data : Ptr)
  | sysmanInformBackgrd
  | sysmanInformForegrd
  | elmInit
  | elmRun
  | elmExit
  | elmShutdown
  | elmCacheAllFlush
  | mallocTrim
  | ecoreTimerAdd (h : Option ℕ)
  | ecoreTimerDel (h : ℕ)
  | ecoreTimerExpired (h : ℕ)
  | appcoreFlushMemory
  | fault
  deriving DecidableEq, Repr

/-- The state of a process that uses the library. -/
structure Process where
  /-- `appcore.c`, with the keys `__vconf_cb` follows and whether the AUL handler is
  initialised. -/
  core : Appcore
  vconf : Finset VconfKey
  aul : Bool
  /-- `appcore-i18n.c` and `appcore-rotation.c`. -/
  i18n : I18n
  rotation : Rotation
  /-- `appcore-efl.c`, with the live timers and event handlers. -/
  priv : UiPriv
  bActive : Bool
  gWinnodeList : List WinNode
  resourceReclaiming : Bool
  timers : List ℕ
  nextTimer : ℕ
  handlers : List ℕ
  nextHandler : ℕ
  calls : List Call

/-- A fresh process: the statics as the loader sets them, nothing held outside. What the
process inherits (the environment, the locale, the lock setting) is free. -/
def Process.fresh (env : EnvVar → Option String) (locale : LcCategory → String)
    (rotateLock : Bool) : Process where
  core := .zero
  vconf := ∅
  aul := false
  i18n := ⟨false, env, locale, none⟩
  rotation := .init rotateLock
  priv := .zero
  bActive := true
  gWinnodeList := []
  resourceReclaiming := true
  timers := []
  nextTimer := 1
  handlers := []
  nextHandler := 1
  calls := []

namespace Process

/-- Append an entry to the trace. -/
def call (c : Call) (p : Process) : Process :=
  { p with calls := p.calls ++ [c] }

/-! ### The table of system events -/

/-- `enum cb_type`. -/
inductive CbType
  | none
  | sysnoti
  | appnoti
  | vconf
  deriving DecidableEq, Repr

/-- The vconf handlers named in the table. -/
inductive Vcb
  | sysLowmemPost
  | sysLowmem
  | sysLowbatt
  | sysLangchgPre
  | sysLangchg
  | sysRegionchgPre
  | sysRegionchg
  deriving DecidableEq, Repr

/-- `struct evt_ops`, as far as vconf entries use it. -/
structure EvtOps where
  type : CbType
  vkey : VconfKey
  vcbPre : Option Vcb
  vcb : Option Vcb
  vcbPost : Option Vcb
  deriving DecidableEq, Repr

/-- The table `evtops`. -/
def evtops : List EvtOps :=
  [⟨.vconf, .sysmanLowMemory, none, some .sysLowmem, some .sysLowmemPost⟩,
   ⟨.vconf, .sysmanBatteryStatusLow, none, some .sysLowbatt, none⟩,
   ⟨.vconf, .langset, some .sysLangchgPre, some .sysLangchg, none⟩,
   ⟨.vconf, .regionformat, some .sysRegionchgPre, some .sysRegionchg, none⟩,
   ⟨.vconf, .regionformatTime1224, none, some .sysRegionchg, none⟩]

/-- The values of `enum appcore_event` in the table `to_ae`. -/
def toAe : SysEvent → ℤ
  | .unknown => 0
  | .lowmem => 1
  | .lowbat => 2
  | .langchg => 3
  | .regionchg => 4

/-- The internal events in the order of their values. -/
def sysEvents : List SysEvent :=
  [.unknown, .lowmem, .lowbat, .langchg, .regionchg]

/-- `appcore_set_event_callback`. -/
def setEventCallback (event : ℤ) (cb data : Ptr) (p : Process) : ℤ × Process :=
  match sysEvents.find? fun se => decide (event = toAe se) with
  | none => (-1, p)
  | some .unknown => (-1, p)
  | some se => (0, { p with core.sops := Function.update p.core.sops se ⟨cb, data⟩ })

/-! ### `appcore_init` and `appcore_exit` -/

/-- `__add_vconf`: its notification results are dropped, and it returns zero. -/
def addVconf (p : Process) : ℤ × Process :=
  (0, evtops.foldl (fun p eo =>
    match eo.type with
    | .vconf => { p with vconf := insert eo.vkey p.vconf }
    | _ => p) p)

/-- `__del_vconf`. -/
def delVconf (p : Process) : Process :=
  evtops.foldl (fun p eo =>
    match eo.type with
    | .vconf => { p with vconf := p.vconf.erase eo.vkey }
    | _ => p) p

/-- `__clear` of `core`. -/
def clear (p : Process) : Process :=
  { p with core := .zero }

/-- The answers to the calls of `appcore_init`. -/
structure InitAnswers where
  i18n : I18n.Answers
  aulLaunchInit : ℤ
  aulLaunchArgvHandler : ℤ
  deriving DecidableEq, Repr

/-- `aul_launch_init`: the handler is initialised unless the call fails. -/
def aulLaunchInit (a : InitAnswers) (p : Process) : Process :=
  if a.aulLaunchInit < 0 then p else { p with aul := true }

/-- The exit `err` of `appcore_init`. -/
def initErr (p : Process) : ℤ × Process :=
  (-1, p.delVconf.clear)

/-- `appcore_init`. The directory that `__get_dir_name` builds only goes to
`bindtextdomain`. -/
def appcoreInit (name : Option String) (ops : Option UiOps) (a : InitAnswers)
    (p : Process) : ℤ × Process :=
  if p.core.state ≠ 0 then (-1, p)
  else if ops.bind UiOps.cbApp = none then (-1, p)
  else
    let i := p.i18n.setI18n name a.i18n
    let p : Process := { p with i18n := i.2 }
    if i.1 = -1 then (-1, p)
    else
      let v := p.addVconf
      let p := v.2
      if v.1 = -1 then p.initErr
      else
        let p := p.aulLaunchInit a
        if a.aulLaunchInit < 0 then p.initErr
        else if a.aulLaunchArgvHandler < 0 then p.initErr
        else (0, { p with core.ops := ops, core.state := 1 })

/-- `appcore_exit`. -/
def appcoreExit (p : Process) : Process :=
  let p := if p.core.state ≠ 0 then p.delVconf.clear else p
  { p with aul := false }

/-! ### The keys of the table -/

/-- The keys that `__vconf_cb` follows while the core is initialised. -/
def vconfKeys : Finset VconfKey :=
  {.sysmanLowMemory, .sysmanBatteryStatusLow, .langset, .regionformat,
   .regionformatTime1224}

/-- `__add_vconf` follows every key of the table and changes nothing else. -/
theorem addVconf_eq (p : Process) :
    p.addVconf = (0, { p with vconf := vconfKeys ∪ p.vconf }) := by
  simp only [addVconf, evtops, List.foldl_cons, List.foldl_nil, Prod.mk.injEq, true_and]
  congr 1
  ext k
  simp only [vconfKeys, Finset.mem_insert, Finset.mem_union, Finset.mem_singleton]
  tauto

/-- `__del_vconf` drops every key of the table and changes nothing else. -/
theorem delVconf_eq (p : Process) : p.delVconf = { p with vconf := p.vconf \ vconfKeys } := by
  simp only [delVconf, evtops, List.foldl_cons, List.foldl_nil]
  congr 1
  ext k
  simp only [vconfKeys, Finset.mem_erase, Finset.mem_sdiff, Finset.mem_insert,
    Finset.mem_singleton]
  tauto

/-- The exit `err` drops the keys of the table, also those followed before, and zeroes
`core`. -/
theorem initErr_eq (p : Process) :
    p.initErr = (-1, { p with vconf := p.vconf \ vconfKeys, core := .zero }) := by
  rw [initErr, delVconf_eq]
  rfl

/-- **What `appcore_init` does**, exit by exit. -/
theorem appcoreInit_eq (name : Option String) (ops : Option UiOps) (a : InitAnswers)
    (p : Process) :
    p.appcoreInit name ops a =
      if p.core.state ≠ 0 ∨ ops.bind UiOps.cbApp = none then (-1, p)
      else
        let i := p.i18n.setI18n name a.i18n
        if i.1 = -1 then (-1, { p with i18n := i.2 })
        else if a.aulLaunchInit < 0 then
          (-1, { p with i18n := i.2, vconf := p.vconf \ vconfKeys, core := .zero })
        else if a.aulLaunchArgvHandler < 0 then
          (-1, { p with i18n := i.2, vconf := p.vconf \ vconfKeys, core := .zero, aul := true })
        else
          (0, { p with
            i18n := i.2
            vconf := vconfKeys ∪ p.vconf
            aul := true
            core := ⟨1, ops, p.core.sops⟩ }) := by
  rw [appcoreInit]
  by_cases hstate : p.core.state ≠ 0
  · rw [if_pos hstate, if_pos (Or.inl hstate)]
  · by_cases hops : ops.bind UiOps.cbApp = none
    · rw [if_neg hstate, if_pos hops, if_pos (Or.inr hops)]
    · rw [if_neg hstate, if_neg hops, if_neg (not_or.mpr ⟨hstate, hops⟩)]
      dsimp only
      by_cases hi : (p.i18n.setI18n name a.i18n).1 = -1
      · rw [if_pos hi, if_pos hi]
      · have hzero : ¬ ((0 : ℤ) = -1) := by decide
        rw [if_neg hi, if_neg hi, addVconf_eq, if_neg hzero]
        by_cases hinit : a.aulLaunchInit < 0
        · simp only [aulLaunchInit, hinit, if_true, initErr_eq, Finset.union_sdiff_left]
        · simp only [aulLaunchInit, hinit, if_false, initErr_eq, Finset.union_sdiff_left]

/-- **What `appcore_exit` does.** -/
theorem appcoreExit_eq (p : Process) :
    p.appcoreExit =
      if p.core.state ≠ 0 then
        { p with vconf := p.vconf \ vconfKeys, core := .zero, aul := false }
      else { p with aul := false } := by
  rw [appcoreExit, delVconf_eq]
  split <;> rfl

end Process

end AppCore
