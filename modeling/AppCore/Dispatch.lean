import AppCore.Efl

/-!
# From the System to the Callbacks

The dispatchers of `appcore.c`: `__vconf_cb`, which looks a changed key up in the table of
system events and runs the handlers of its row, and `__aul_handler`, which passes the
requests of the AUL daemon on to `cb_app`. Both are registered with the address of `core`
as their data, so their guards against a null `data` are left out.

A notification is a value of `Notification`. It carries what the handlers read, the answers
of the outside, and the API calls that the event callback of the application makes if the
notification leads to one. The results of the handlers, which `__vconf_do` drops, are left
out. `VCONFKEY_SYSMAN_BAT_CRITICAL_LOW` is a constant of vconf and not in the source, so a
notification carries its value.
-/

set_option autoImplicit false

namespace AppCore

/-- A notification of vconf. -/
structure Notification where
  name : Option VconfKey
  int : ℤ
  sysmanBatCriticalLow : ℤ
  i18n : I18n.Answers
  answers : Answers
  calls : List ApiCall

/-- `enum aul_type`, as far as `__aul_handler` tells its values apart. -/
inductive AulType
  | start
  | resume
  | terminate
  | other
  deriving DecidableEq, Repr

namespace Process

/-- `ac->ops->cb_app(event, ac->ops->data, b)`, which looks at neither pointer. -/
def cbApp (event : AppEvent) (b : Ptr) (a : Answers) (p : Process) : Process :=
  match p.core.ops with
  | none => p.call .fault
  | some ops =>
      match ops.cbApp with
      | none => p.call .fault
      | some .doApp => p.doApp event b a
      | some (.other fn) => p.call (.cbApp fn event ops.data)

/-! ### Requests of the AUL daemon -/

/-- `__app_terminate`. -/
def appTerminate (a : Answers) (p : Process) : ℤ × Process :=
  match p.core.ops with
  | none => (-1, p)
  | some ops => if ops.cbApp = none then (0, p) else (0, p.cbApp .terminate none a)

/-- `__app_reset`. The idle handler it adds only measures time. -/
def appReset (b : Ptr) (a : Answers) (p : Process) : ℤ × Process :=
  match p.core.ops with
  | none => (-1, p)
  | some ops => if ops.cbApp = none then (0, p) else (0, p.cbApp .reset b a)

/-- `__aul_handler`. The branch `AUL_RESUME` runs the callback of `appcore_set_open_cb` and
raises the window, which changes nothing here. -/
def aulHandler (type : AulType) (b : Ptr) (a : Answers) (p : Process) : Process :=
  match type with
  | .start => (p.appReset b a).2
  | .resume => p
  | .terminate => (p.appTerminate a).2
  | .other => p

/-! ### Notifications of vconf -/

/-- `__sys_do`: the callback stored for the event, with the API calls it makes.
`__sys_do_default` does nothing. -/
def sysDo (event : SysEvent) (n : Notification) (p : Process) : Process :=
  let op := p.core.sops event
  match op.func with
  | none => p
  | some fn => n.calls.foldl (fun p c => p.runApi c) (p.call (.sysCallback fn op.data))

/-- `__sys_lowmem_post`. -/
def sysLowmemPost (n : Notification) (p : Process) : Process :=
  p.cbApp .lowmemPost none n.answers

/-- `__sys_lowmem`. -/
def sysLowmem (n : Notification) (p : Process) : Process :=
  p.sysDo .lowmem n

/-- `__sys_lowbatt`. -/
def sysLowbatt (n : Notification) (p : Process) : Process :=
  if n.int ≤ n.sysmanBatCriticalLow then p.sysDo .lowbat n else p

/-- `__sys_langchg_pre`. -/
def sysLangchgPre (n : Notification) (p : Process) : Process :=
  { p with i18n := p.i18n.updateLang n.i18n }

/-- `__sys_langchg`. -/
def sysLangchg (n : Notification) (p : Process) : Process :=
  p.sysDo .langchg n

/-- `__sys_regionchg_pre`. -/
def sysRegionchgPre (n : Notification) (p : Process) : Process :=
  { p with i18n := p.i18n.updateRegion n.i18n }

/-- `__sys_regionchg`. -/
def sysRegionchg (n : Notification) (p : Process) : Process :=
  p.sysDo .regionchg n

/-- The handler that a cell of the table names. -/
def Vcb.run (v : Vcb) (n : Notification) (p : Process) : Process :=
  match v with
  | .sysLowmemPost => p.sysLowmemPost n
  | .sysLowmem => p.sysLowmem n
  | .sysLowbatt => p.sysLowbatt n
  | .sysLangchgPre => p.sysLangchgPre n
  | .sysLangchg => p.sysLangchg n
  | .sysRegionchgPre => p.sysRegionchgPre n
  | .sysRegionchg => p.sysRegionchg n

/-- `__vconf_do`: the handlers of a row, in the order of their columns. -/
def vconfDo (eo : EvtOps) (n : Notification) (p : Process) : Process :=
  (eo.vcbPre.toList ++ eo.vcb.toList ++ eo.vcbPost.toList).foldl (fun p v => v.run n p) p

/-- `__vconf_cb`. -/
def vconfCb (n : Notification) (p : Process) : Process :=
  match n.name with
  | none => p
  | some name =>
      evtops.foldl (fun p eo =>
        match eo.type with
        | .vconf => if name = eo.vkey then p.vconfDo eo n else p
        | _ => p) p

/-! ### Rules for notifications

A property that the handlers keep is kept by a notification. What the handlers have in
common is `__sys_do`; the table decides the rest. -/

section Rules

variable {I : Process → Prop}

/-- What each API call of a callback keeps, the callback keeps. -/
theorem foldl_runApi {cs : List ApiCall} (hapi : ∀ c ∈ cs, ∀ p, I p → I (p.runApi c))
    {p : Process} (hp : I p) : I (cs.foldl (fun p c => p.runApi c) p) := by
  induction cs generalizing p with
  | nil => exact hp
  | cons c cs ih =>
      exact ih (fun d hd => hapi d (List.mem_cons_of_mem c hd)) (hapi c List.mem_cons_self p hp)

variable {n : Notification}

/-- What the entry of the event callback and its API calls keep, `__sys_do` keeps. -/
theorem sysDo_rule (hcall : ∀ fn data p, I p → I (p.call (.sysCallback fn data)))
    (hapi : ∀ c ∈ n.calls, ∀ p, I p → I (p.runApi c)) (event : SysEvent) {p : Process}
    (hp : I p) : I (p.sysDo event n) := by
  rw [sysDo]
  split
  · exact hp
  · exact foldl_runApi hapi (hcall _ _ p hp)

/-- **Rule for notifications.** A property is kept by `__vconf_cb` if it survives the entry
of an event callback, the API calls that the callback makes, changes of the locale, and
the unguarded call of `cb_app` after a low-memory callback. -/
theorem vconfCb_rule (hcall : ∀ fn data p, I p → I (p.call (.sysCallback fn data)))
    (hapi : ∀ c ∈ n.calls, ∀ p, I p → I (p.runApi c))
    (hi18n : ∀ i p, I p → I { p with i18n := i })
    (hpost : ∀ p, I p → I (p.cbApp .lowmemPost none n.answers)) {p : Process} (hp : I p) :
    I (p.vconfCb n) := by
  have hsys (event : SysEvent) (p : Process) (h : I p) : I (p.sysDo event n) :=
    sysDo_rule hcall hapi event h
  have hrun (v : Vcb) (p : Process) (h : I p) : I (v.run n p) := by
    cases v with
    | sysLowmemPost => exact hpost p h
    | sysLowmem => exact hsys .lowmem p h
    | sysLowbatt =>
        rw [Vcb.run, sysLowbatt]
        split
        · exact hsys .lowbat p h
        · exact h
    | sysLangchgPre => exact hi18n _ p h
    | sysLangchg => exact hsys .langchg p h
    | sysRegionchgPre => exact hi18n _ p h
    | sysRegionchg => exact hsys .regionchg p h
  have hdo (eo : EvtOps) (p : Process) (h : I p) : I (p.vconfDo eo n) :=
    List.foldlRecOn _ _ h fun q hq v _ => hrun v q hq
  rw [vconfCb]
  split
  · exact hp
  · refine List.foldlRecOn _ _ hp fun q hq eo _ => ?_
    split
    · split
      · exact hdo eo q hq
      · exact hq
    · exact hq

end Rules

end Process

end AppCore
