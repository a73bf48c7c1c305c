import Mathlib.Data.Fintype.Basic
import Mathlib.Data.Int.Notation

/-!
# The Types of the Public and the Internal Header

The enumerations and the callback tables of `appcore-common.h` and `appcore-internal.h`,
under the source's words. A function or data pointer is an opaque address: the library
compares it with NULL, stores it and passes it on, and never looks behind it.
-/

set_option autoImplicit false

namespace AppCore

/-- The address of a function or of data. -/
abbrev Addr := ℕ

/-- A pointer that may be NULL. -/
abbrev Ptr := Option Addr

/-- `enum app_state`. -/
inductive AppState
  | none
  | created
  | running
  | paused
  | dying
  deriving DecidableEq, Repr

/-- `enum app_event`, without the bound `AE_MAX` that no caller passes. -/
inductive AppEvent
  | unknown
  | create
  | terminate
  | pause
  | resume
  | reset
  | lowmemPost
  | memFlush
  deriving DecidableEq, Repr

/-- `enum sys_event`, without the bound `SE_MAX`. -/
inductive SysEvent
  | unknown
  | lowmem
  | lowbat
  | langchg
  | regionchg
  deriving DecidableEq, Repr

instance : Fintype SysEvent where
  elems := {.unknown, .lowmem, .lowbat, .langchg, .regionchg}
  complete := fun e => by cases e <;> decide

/-- `enum appcore_rm`. -/
inductive AppcoreRm
  | unknown
  | portraitNormal
  | portraitReverse
  | landscapeNormal
  | landscapeReverse
  deriving DecidableEq, Repr

/-- `struct appcore_ops`: the life-cycle callbacks of an application and the data passed
to each of them. -/
structure AppcoreOps where
  data : Ptr
  create : Ptr
  terminate : Ptr
  pause : Ptr
  resume : Ptr
  reset : Ptr
  deriving DecidableEq, Repr

/-- What a `cb_app` pointer points to: `__do_app` of the EFL module, or a function of
someone who uses the core module directly. -/
inductive CbApp
  | doApp
  | other (fn : Addr)
  deriving DecidableEq, Repr

/-- `struct ui_ops`. -/
structure UiOps where
  data : Ptr
  cbApp : Option CbApp
  deriving DecidableEq, Repr

/-- `struct sys_op`. -/
structure SysOp where
  func : Ptr
  data : Ptr
  deriving DecidableEq, Repr

/-- `struct appcore`. -/
structure Appcore where
  state : ℤ
  ops : Option UiOps
  sops : SysEvent → SysOp
  deriving DecidableEq

end AppCore
