import AppCore.Lib.Scanf
import AppCore.Measure
import Mathlib.Data.List.Basic

/-!
# The Start Time in the Environment

`__get_envtime` of `appcore-measure.c`, which reads a start time from an environment
variable, and `appcore_measure_time_from`, which measures from it. The value is scanned as
`"%u/%u"`, and as `"%u %u"` where this fails, into a `struct timeval` on the stack that
nobody has written before. The pointers to its fields are narrowed to `int *`.

A field is a `long` of `w` bits and the machine is little-endian: what is stored through an
`int *` is the lower 32 bits of the field, and the others keep what the stack had there.

## Main results

* `toInt_storeInt_eq_iff`: when a field is the number that was stored in it.
* `getEnvtime_printed`: **what is left in the fields**, for either separator.
* `readsBack_iff`: **when the time is read back exactly**.
* `ReadsBack.neverWraps`: measuring from it.
* `measureTimeFrom_congr`: **what of the stack the measured time depends on**.
-/

set_option autoImplicit false

namespace AppCore

open Scanf

/-- `ENV_START`. -/
def envStart : String :=
  "APP_START_TIME"

variable {w : ℕ}

/-- Store an `int` through an `int *` to the `long` `field`. -/
def storeInt (field : BitVec w) (v : ℤ) : BitVec w :=
  BitVec.ofNat w (field.toNat / 2 ^ 32 * 2 ^ 32 + (BitVec.ofInt 32 v).toNat)

namespace Timeval

/-- Store what a scan has converted in `tv_sec` and `tv_usec`, as far as it came. -/
def store (t : Timeval w) : List ℤ → Timeval w
  | [] => t
  | [sec] => { t with tvSec := storeInt t.tvSec sec }
  | sec :: usec :: _ =>
      { tvSec := storeInt t.tvSec sec, tvUsec := storeInt t.tvUsec usec }

end Timeval

/-- `sscanf` of `s` with two `%u` and `between` in between, to the fields of `t`. -/
def sscanf (s : String) (between : Directive) (t : Timeval w) : ℤ × Timeval w :=
  let x := scan [.unsigned, between, .unsigned] s.toList
  (x.result, t.store x.values)

/-- `__get_envtime`, of the variable `name` or `ENV_START`. -/
def getEnvtime (getenv : String → Option String) (name : Option String) (t : Timeval w) :
    ℤ × Timeval w :=
  match getenv (name.getD envStart) with
  | none => (-1, t)
  | some s =>
      let (r, t) := sscanf s (.literal '/') t
      let (r, t) := if r ≠ 2 then sscanf s .space t else (r, t)
      if r ≠ 2 then (-1, t) else (0, t)

/-- `__get_time_from`, at the time `now`, with `stack` in the place of its `s`. -/
def getTimeFrom (getenv : String → Option String) (name : Option String)
    (now stack : Timeval w) : BitVec 32 :=
  let (r, s) := getEnvtime getenv name stack
  if r = -1 then 0 else s.getMsec now

/-- `appcore_measure_time_from`. -/
def measureTimeFrom (getenv : String → Option String) (envnm : Option String)
    (now stack : Timeval w) : BitVec 32 :=
  getTimeFrom getenv envnm now stack

/-! ### Storing -/

/-- Of the field only the upper bits matter. -/
theorem storeInt_congr {field field' : BitVec w}
    (h : field.toNat / 2 ^ 32 = field'.toNat / 2 ^ 32) (v : ℤ) :
    storeInt field v = storeInt field' v := by
  rw [storeInt, storeInt, h]

section Storing

variable (hw : 32 ≤ w)
include hw

/-- The value of a field into which an `int` was stored. -/
theorem toNat_storeInt (field : BitVec w) (v : ℤ) :
    (storeInt field v).toNat = field.toNat / 2 ^ 32 * 2 ^ 32 + (BitVec.ofInt 32 v).toNat := by
  obtain ⟨k, rfl⟩ : ∃ k, w = 32 + k := ⟨w - 32, by omega⟩
  have hfield := field.isLt
  have hv := (BitVec.ofInt 32 v).isLt
  rw [Nat.pow_add] at hfield
  have hupper : field.toNat / 2 ^ 32 < 2 ^ k := Nat.div_lt_of_lt_mul hfield
  rw [storeInt, BitVec.toNat_ofNat, Nat.pow_add]
  apply Nat.mod_eq_of_lt
  omega

/-- The second of two stores counts, and the upper half stays what it was. -/
theorem storeInt_storeInt (field : BitVec w) (v v' : ℤ) :
    storeInt (storeInt field v) v' = storeInt field v' := by
  have hv := (BitVec.ofInt 32 v).isLt
  apply BitVec.eq_of_toNat_eq
  rw [toNat_storeInt hw, toNat_storeInt hw, toNat_storeInt hw]
  omega

/-- A number below `2 ^ 31` is added to the upper half. -/
theorem toNat_storeInt_natCast (field : BitVec w) {n : ℕ} (hn : n < 2 ^ 31) :
    (storeInt field n).toNat = field.toNat / 2 ^ 32 * 2 ^ 32 + n := by
  rw [toNat_storeInt hw, BitVec.ofInt_natCast, BitVec.toNat_ofNat, Nat.mod_eq_of_lt (by omega)]

/-- A small number stored in a field with a clear upper half is the number. -/
theorem storeInt_of_lt {field : BitVec w} {n : ℕ} (hn : n < 2 ^ 31)
    (hfield : field.toNat < 2 ^ 32) :
    storeInt field n = BitVec.ofNat w n := by
  have hpow : 2 ^ 32 ≤ 2 ^ w := Nat.pow_le_pow_right (by decide) hw
  apply BitVec.eq_of_toNat_eq
  rw [toNat_storeInt_natCast hw field hn, BitVec.toNat_ofNat, Nat.mod_eq_of_lt (by omega)]
  omega

/-- **When a field is the number that was stored in it**: its upper half was zero. -/
theorem toInt_storeInt_eq_iff (field : BitVec w) {n : ℕ} (hn : n < 2 ^ 31) :
    (storeInt field n).toInt = n ↔ field.toNat < 2 ^ 32 := by
  constructor
  · intro h
    have hlt := (storeInt field n).isLt
    have hnat := toNat_storeInt_natCast hw field hn
    have hval : (storeInt field n).toNat = n := by
      rw [BitVec.toInt_eq_toNat_cond] at h
      split at h <;> omega
    omega
  · intro hfield
    rw [storeInt_of_lt hw hn hfield]
    exact Timeval.toInt_ofNat_of_int hw hn

/-- What an attempt has stored does not count after two more stores. -/
theorem store_store (t : Timeval w) (values : List ℤ) (sec usec : ℤ) :
    (t.store values).store [sec, usec] = t.store [sec, usec] := by
  match values with
  | [] => rfl
  | [_] => rw [Timeval.store, Timeval.store, Timeval.store, storeInt_storeInt hw]
  | _ :: _ :: _ =>
      rw [Timeval.store, Timeval.store, Timeval.store, storeInt_storeInt hw, storeInt_storeInt hw]

/-- The lower half is what was stored. -/
theorem setWidth_storeInt (field : BitVec w) (v : ℤ) :
    (storeInt field v).setWidth 32 = BitVec.ofInt 32 v := by
  have hv := (BitVec.ofInt 32 v).isLt
  apply BitVec.eq_of_toNat_eq
  rw [BitVec.toNat_setWidth, toNat_storeInt hw]
  omega

end Storing

/-! ### Scanning a time -/

/-- Seconds and microseconds in decimal, with `sep` in between. -/
def timeText (sep : Char) (sec usec : ℕ) : String :=
  toString sec ++ String.singleton sep ++ toString usec

/-- The text of a time is the two numbers with the character between them. -/
theorem toList_timeText (sep : Char) (sec usec : ℕ) :
    (timeText sep sec usec).toList = printed sep sec [usec] := by
  simp [timeText, printed]

/-- A scan in the format in which the numbers were printed converts both. -/
theorem sscanf_printed {between : Directive} {sep : Char} (h : Separates between sep)
    (sec usec : ℕ) (t : Timeval w) :
    sscanf (timeText sep sec usec) between t = (2, t.store [sec, usec]) := by
  have hscan : scan [.unsigned, between, .unsigned] (printed sep sec [usec]) =
      ⟨[(sec : ℤ), (usec : ℤ)], false⟩ := scan_printed h sec [usec]
  rw [sscanf, toList_timeText, hscan]
  rfl

/-- With another separator it converts the seconds, and stores them. -/
theorem sscanf_printed_of_ne {c sep : Char} (h : sep ≠ c) (hsep : sep.isDigit = false)
    (sec usec : ℕ) (t : Timeval w) :
    sscanf (timeText sep sec usec) (.literal c) t = (1, t.store [sec]) := by
  rw [sscanf, toList_timeText, scan_printed_of_ne h hsep]
  rfl

/-! ### Reading the time -/

section Attempts

variable {getenv : String → Option String} {name : Option String} {s : String}
  (henv : getenv (name.getD envStart) = some s) {r : ℤ} {t t₁ t₂ : Timeval w}
include henv

/-- Where the first format reads both numbers there is no second try. -/
theorem getEnvtime_of_first (h₁ : sscanf s (.literal '/') t = (2, t₁)) :
    getEnvtime getenv name t = (0, t₁) := by
  rw [getEnvtime, henv]
  simp [h₁]

/-- The second attempt scans into what the first has left. -/
theorem getEnvtime_of_second (h₁ : sscanf s (.literal '/') t = (r, t₁)) (hr : r ≠ 2)
    (h₂ : sscanf s .space t₁ = (2, t₂)) : getEnvtime getenv name t = (0, t₂) := by
  rw [getEnvtime, henv]
  simp [h₁, hr, h₂]

end Attempts

section Printed

variable (hw : 32 ≤ w) {getenv : String → Option String} {name : Option String} {sep : Char}
  {sec usec : ℕ} (hsep : sep = '/' ∨ sep = ' ')
  (henv : getenv (name.getD envStart) = some (timeText sep sec usec))
include hw hsep henv

/-- **What is left in the fields**: with either separator both numbers are stored over what
the stack had there. -/
theorem getEnvtime_printed (t : Timeval w) :
    getEnvtime getenv name t = (0, t.store [sec, usec]) := by
  rcases hsep with rfl | rfl
  · exact getEnvtime_of_first henv
      (sscanf_printed (separates_literal (by decide : '/'.isDigit = false)) sec usec t)
  · -- the first attempt stores the seconds and fails at the space
    rw [← store_store hw t [(sec : ℤ)]]
    exact getEnvtime_of_second henv
      (sscanf_printed_of_ne (by decide : ' ' ≠ '/') (by decide) sec usec t) (by decide)
      (sscanf_printed (separates_space (by decide : isSpace ' ' = true)) sec usec _)

end Printed

/-! ### The stack -/

/-- The upper halves of the fields are zero, as they are where a `long` has 32 bits. -/
def Timeval.UpperZero (t : Timeval w) : Prop :=
  t.tvSec.toNat < 2 ^ 32 ∧ t.tvUsec.toNat < 2 ^ 32

instance (t : Timeval w) : Decidable t.UpperZero :=
  inferInstanceAs (Decidable (_ ∧ _))

/-- A field of 32 bits has no upper half. -/
theorem Timeval.upperZero_int (t : Timeval 32) : t.UpperZero :=
  ⟨t.tvSec.isLt, t.tvUsec.isLt⟩

/-- The time in the environment is read back: `__get_envtime` succeeds, the fields are the
numbers, and `appcore_measure_time_from` measures from them. -/
structure ReadsBack (getenv : String → Option String) (name : Option String) (sec usec : ℕ)
    (t : Timeval w) : Prop where
  succeeds : (getEnvtime getenv name t).1 = 0
  tvSec : (getEnvtime getenv name t).2.tvSec.toInt = sec
  tvUsec : (getEnvtime getenv name t).2.tvUsec.toInt = usec
  measured : ∀ now, measureTimeFrom getenv name now t =
    Timeval.getMsec ⟨BitVec.ofNat w sec, BitVec.ofNat w usec⟩ now

section ReadsBack

variable (hw : 32 ≤ w) {getenv : String → Option String} {name : Option String} {sep : Char}
  {sec usec : ℕ} (hsep : sep = '/' ∨ sep = ' ')
  (henv : getenv (name.getD envStart) = some (timeText sep sec usec))
  (hsec : sec < 2 ^ 31) (husec : usec < 2 ^ 31) {t : Timeval w}
include hw hsep henv

/-- The time measured is the one since the start that was read. -/
theorem measureTimeFrom_printed (now stack : Timeval w) :
    measureTimeFrom getenv name now stack =
      (stack.store [(sec : ℤ), (usec : ℤ)]).getMsec now := by
  rw [measureTimeFrom, getTimeFrom, getEnvtime_printed hw hsep henv]
  rfl

include hsec husec

/-- With a clear upper half every start reads back. -/
theorem Timeval.UpperZero.readsBack (h : t.UpperZero) : ReadsBack getenv name sec usec t := by
  have hread := getEnvtime_printed hw hsep henv t
  have hfields : t.store [(sec : ℤ), (usec : ℤ)] =
      ⟨BitVec.ofNat w sec, BitVec.ofNat w usec⟩ := by
    rw [Timeval.store, storeInt_of_lt hw hsec h.1, storeInt_of_lt hw husec h.2]
  rw [hfields] at hread
  refine ⟨?_, ?_, ?_, fun now => ?_⟩
  · rw [hread]
  · rw [hread]
    exact Timeval.toInt_ofNat_of_int hw hsec
  · rw [hread]
    exact Timeval.toInt_ofNat_of_int hw husec
  · rw [measureTimeFrom_printed hw hsep henv, hfields]

/-- **When the time is read back exactly**: only the lower halves of the fields are written,
so the upper halves must have been zero before. -/
theorem readsBack_iff : ReadsBack getenv name sec usec t ↔ t.UpperZero := by
  constructor
  · intro h
    have hread := getEnvtime_printed hw hsep henv t
    have htvSec := h.tvSec
    have htvUsec := h.tvUsec
    rw [hread, Timeval.store] at htvSec htvUsec
    exact ⟨(toInt_storeInt_eq_iff hw _ hsec).mp htvSec,
      (toInt_storeInt_eq_iff hw _ husec).mp htvUsec⟩
  · exact Timeval.UpperZero.readsBack hw hsep henv hsec husec

end ReadsBack

/-- On a stack of zeros the time in `APP_START_TIME` is read back. -/
theorem readsBack_zeros :
    ReadsBack (fun _ => some "12 500000") none 12 500000 (⟨0, 0⟩ : Timeval 64) :=
  (readsBack_iff (by decide) (Or.inr rfl) (by decide) (by decide) (by decide)).mpr
    (by decide)

/-- With a bit in the upper half of the microseconds, `"1 0"` is not read back, and a second
later a negative time is measured. -/
theorem not_readsBack_upper :
    let getenv : String → Option String := fun _ => some "1 0"
    let stack : Timeval 64 := ⟨0, 0x100000000⟩
    (getEnvtime getenv none stack).1 = 0 ∧
      (getEnvtime getenv none stack).2.tvUsec.toInt = 2 ^ 32 ∧
      (measureTimeFrom getenv none ⟨2, 0⟩ stack).toInt = -4293966 ∧
      (measureTimeFrom getenv none ⟨2, 0⟩ (⟨0, 0⟩ : Timeval 64)).toInt = 1000 ∧
      ¬ ReadsBack getenv none 1 0 stack := by
  intro getenv stack
  have henv : getenv ((none : Option String).getD envStart) = some (timeText ' ' 1 0) := by
    decide
  have hread := getEnvtime_printed (by decide) (Or.inr rfl) henv stack
  have hmeasured := measureTimeFrom_printed (w := 64) (by decide) (Or.inr rfl) henv ⟨2, 0⟩
  refine ⟨?_, ?_, ?_, ?_, fun h => ?_⟩
  · rw [hread]
  · rw [hread]
    decide
  · rw [hmeasured]
    decide
  · rw [hmeasured]
    decide
  · have husec := h.tvUsec
    rw [hread] at husec
    revert husec
    decide

/-- Where a `long` has 32 bits the time is read back whatever the stack holds. -/
theorem readsBack_int {getenv : String → Option String} {name : Option String} {sep : Char}
    {sec usec : ℕ} (hsep : sep = '/' ∨ sep = ' ')
    (henv : getenv (name.getD envStart) = some (timeText sep sec usec))
    (hsec : sec < 2 ^ 31) (husec : usec < 2 ^ 31) (t : Timeval 32) :
    ReadsBack getenv name sec usec t :=
  t.upperZero_int.readsBack (by decide) hsep henv hsec husec

/-- A time that is read back is measured from without wrapping, while the distance fits in
an `int`. -/
theorem ReadsBack.neverWraps (hw : 32 ≤ w) {getenv : String → Option String}
    {name : Option String} {sec usec : ℕ} {t : Timeval w}
    (h : ReadsBack getenv name sec usec t) (husec : usec < 2 ^ 31) {e₁ e₂ : Timeval w}
    (h₁ : e₁.Normalised) (h₂ : e₂.Normalised)
    (hle₁ : Timeval.NotAfter ⟨BitVec.ofNat w sec, BitVec.ofNat w usec⟩ e₁)
    (hle₂ : e₁.NotAfter e₂)
    (hfit : Timeval.FitsInt ⟨BitVec.ofNat w sec, BitVec.ofNat w usec⟩ e₂) :
    0 ≤ (measureTimeFrom getenv name e₁ t).toInt ∧
      (measureTimeFrom getenv name e₁ t).toInt ≤ (measureTimeFrom getenv name e₂ t).toInt := by
  have hnonneg : 0 ≤ (BitVec.ofNat w usec).toInt := by
    rw [Timeval.toInt_ofNat_of_int hw husec]
    omega
  rw [h.measured, h.measured]
  exact hfit.neverWraps hw hnonneg h₂ (hle₁.trans hle₂) e₁ h₁ hle₁ hle₂

/-! ### The measured time -/

/-- `sscanf` counts the two numbers it has stored. -/
theorem sscanf_eq_two {s : String} {between : Directive} {t : Timeval w}
    (h : (sscanf s between t).1 = 2) :
    ∃ sec usec, ∀ t : Timeval w, sscanf s between t = (2, t.store [sec, usec]) := by
  have hresult : (scan [.unsigned, between, .unsigned] s.toList).result = 2 := h
  have hlength := hresult
  rw [Scanned.result] at hlength
  split at hlength
  · omega
  · obtain ⟨sec, usec, hvalues⟩ := List.length_eq_two.mp (by exact_mod_cast hlength)
    refine ⟨sec, usec, fun t => ?_⟩
    rw [sscanf, hresult, hvalues]

/-- For any string, `__get_envtime` fails whatever the stack holds, or it stores the same two
numbers. -/
theorem getEnvtime_stack (hw : 32 ≤ w) (getenv : String → Option String)
    (name : Option String) :
    (∀ t : Timeval w, (getEnvtime getenv name t).1 = -1) ∨
      ∃ sec usec, ∀ t : Timeval w, getEnvtime getenv name t = (0, t.store [sec, usec]) := by
  cases henv : getenv (name.getD envStart) with
  | none =>
      left
      intro t
      rw [getEnvtime, henv]
  | some s =>
      -- what a scan returns does not depend on where it stores
      have hfst : ∀ (between : Directive) (t t' : Timeval w),
          (sscanf s between t).1 = (sscanf s between t').1 := fun _ _ _ => rfl
      by_cases hfirst : (sscanf s (.literal '/') (⟨0, 0⟩ : Timeval w)).1 = 2
      · right
        obtain ⟨sec, usec, hread⟩ := sscanf_eq_two hfirst
        exact ⟨sec, usec, fun t => getEnvtime_of_first henv (hread t)⟩
      · by_cases hsecond : (sscanf s .space (⟨0, 0⟩ : Timeval w)).1 = 2
        · right
          obtain ⟨sec, usec, hread⟩ := sscanf_eq_two hsecond
          refine ⟨sec, usec, fun t => ?_⟩
          rw [← store_store hw t (scan [.unsigned, .literal '/', .unsigned] s.toList).values]
          exact getEnvtime_of_second henv rfl hfirst (hread _)
        · left
          intro t
          rw [hfst _ _ t] at hfirst
          rw [hfst _ _ (sscanf s (.literal '/') t).2] at hsecond
          rw [getEnvtime, henv]
          simp [hfirst, hsecond]

/-- The seconds count modulo `2 ^ 32`. -/
theorem Timeval.getMsec_congr (hw : 32 ≤ w) {s s' : Timeval w}
    (hsec : s.tvSec.setWidth 32 = s'.tvSec.setWidth 32) (husec : s.tvUsec = s'.tvUsec)
    (e : Timeval w) : getMsec s e = getMsec s' e := by
  have hsub : ∀ s : Timeval w, (e.tvSec - s.tvSec).setWidth 32 =
      e.tvSec.setWidth 32 - s.tvSec.setWidth 32 := by
    intro s
    rw [BitVec.eq_sub_iff_add_eq, ← BitVec.setWidth_add _ _ hw, BitVec.sub_add_cancel]
  rw [getMsec, getMsec, husec, BitVec.setWidth_add _ _ hw, BitVec.setWidth_add _ _ hw,
    BitVec.setWidth_mul _ _ hw, BitVec.setWidth_mul _ _ hw, hsub, hsub, hsec]

/-- **The measured time does not depend on the stack**, for any string, but for the upper half
of the microseconds: that of the seconds is lost in the conversion to an `int`. -/
theorem measureTimeFrom_congr (hw : 32 ≤ w) (getenv : String → Option String)
    (envnm : Option String) (now : Timeval w) {stack stack' : Timeval w}
    (h : stack.tvUsec.toNat / 2 ^ 32 = stack'.tvUsec.toNat / 2 ^ 32) :
    measureTimeFrom getenv envnm now stack = measureTimeFrom getenv envnm now stack' := by
  rw [measureTimeFrom, measureTimeFrom, getTimeFrom, getTimeFrom]
  rcases getEnvtime_stack (w := w) hw getenv envnm with hfail | ⟨sec, usec, hread⟩
  · simp [hfail]
  · rw [hread, hread]
    refine Timeval.getMsec_congr hw ?_ ?_ now
    · rw [Timeval.store, Timeval.store, setWidth_storeInt hw, setWidth_storeInt hw]
    · exact storeInt_congr h usec

end AppCore
