import Mathlib.Algebra.Group.Int.Defs
import Mathlib.Algebra.Group.Nat.Defs

/-!
# Measuring Time

`__get_msec` of `appcore-measure.c`, which computes the elapsed milliseconds between two
timevals from the seconds and the microseconds separately, at the widths of C: the fields
are `long`s of `w` bits, 32 or 64, and the result is a 32-bit `int`. The `500` in it is there
to round to the nearest millisecond, but the division of C truncates towards zero.

The result is that of unbounded integers, `elapsed`, wrapped at the width of an `int`.
`elapsed` is never negative and grows with the clock; what is returned does so for about 24
days and 20 hours.

## Main results

* `toInt_getMsec`: the result, with the widths resolved.
* `getMsec_rounds_iff`: **when the elapsed time is rounded to the nearest millisecond**.
* `elapsed_nonneg`, `elapsed_mono`: the formula is right where nothing wraps.
* `neverWraps_iff`: **how long the measured time does not wrap**.
* `measureTime_mono`: the same of `appcore_measure_time`.
-/

set_option autoImplicit false

namespace AppCore

/-- `struct timeval`, with `long` fields of `w` bits. -/
structure Timeval (w : ℕ) where
  tvSec : BitVec w
  tvUsec : BitVec w
  deriving DecidableEq, Repr

namespace Timeval

variable {w : ℕ}

/-- `__get_msec`. -/
def getMsec (s e : Timeval w) : BitVec 32 :=
  ((e.tvSec - s.tvSec) * 1000 + (e.tvUsec - s.tvUsec + 500).sdiv 1000).setWidth 32

/-- The microseconds are less than a second. -/
def Normalised (t : Timeval w) : Prop :=
  0 ≤ t.tvUsec.toInt ∧ t.tvUsec.toInt < 1000000

instance (t : Timeval w) : Decidable t.Normalised :=
  inferInstanceAs (Decidable (_ ∧ _))

/-- The microseconds from `s` to `e`. -/
def distance (s e : Timeval w) : ℤ :=
  (e.tvSec.toInt - s.tvSec.toInt) * 1000000 + e.tvUsec.toInt - s.tvUsec.toInt

/-! ### The widths -/

/-- What is between two values of a field is one itself. -/
theorem toInt_ofInt_of_between {x y : BitVec w} {n : ℤ} (hlo : x.toInt ≤ n)
    (hhi : n ≤ y.toInt) : (BitVec.ofInt w n).toInt = n := by
  have hx := BitVec.le_two_mul_toInt (x := x)
  have hy := BitVec.two_mul_toInt_lt (x := y)
  rw [BitVec.toInt_ofInt]
  apply Int.bmod_eq_of_le
  · push_cast
    omega
  · push_cast
    omega

section Widths

variable (hw : 32 ≤ w)
include hw

/-- What fits in an `int` does not wrap in a `long`. -/
theorem bmod_of_int {x : ℤ} (hlo : -2 ^ 31 ≤ x) (hhi : x < 2 ^ 31) : x.bmod (2 ^ w) = x := by
  have hpow : 2 ^ 32 ≤ 2 ^ w := Nat.pow_le_pow_right (by decide) hw
  apply Int.bmod_eq_of_le
  · omega
  · omega

/-- A number that fits in an `int` fits in a `long`. -/
theorem toInt_ofNat_of_int {n : ℕ} (hn : n < 2 ^ 31) : (BitVec.ofNat w n).toInt = n := by
  rw [BitVec.toInt_ofNat']
  exact bmod_of_int hw (by omega) (by omega)

/-- The conversion of a `long` to an `int`. -/
theorem toInt_narrow (x : BitVec w) : (x.setWidth 32).toInt = x.toInt.bmod (2 ^ 32) := by
  rw [BitVec.toInt_setWidth, BitVec.toInt_eq_toNat_bmod,
    Int.bmod_bmod_of_dvd (Nat.pow_dvd_pow 2 hw)]

variable {s e : Timeval w} (hs : 0 ≤ s.tvUsec.toInt) (he : e.Normalised)
include hs he

/-- The microseconds do not wrap, also where those of the start are more than a second. -/
theorem toInt_usec :
    (e.tvUsec - s.tvUsec + 500).toInt = e.tvUsec.toInt - s.tvUsec.toInt + 500 := by
  obtain ⟨he₀, he₁⟩ := he
  have hpow : (2 : ℤ) ^ 32 ≤ 2 ^ w := by
    exact_mod_cast Nat.pow_le_pow_right (by decide : 0 < 2) hw
  have hlt := BitVec.two_mul_toInt_lt (x := s.tvUsec)
  have h500 : (500 : BitVec w).toInt = 500 := toInt_ofNat_of_int hw (by decide)
  rw [BitVec.toInt_add, BitVec.toInt_sub, h500, Int.bmod_add_bmod]
  apply Int.bmod_eq_of_le
  · push_cast
    omega
  · push_cast
    omega

/-- **The result, with the widths resolved**: it wraps at the width of an `int`, wherever
the seconds wrap before. -/
theorem toInt_getMsec :
    (getMsec s e).toInt =
      ((e.tvSec.toInt - s.tvSec.toInt) * 1000 +
        (e.tvUsec.toInt - s.tvUsec.toInt + 500).tdiv 1000).bmod (2 ^ 32) := by
  have h1000 : (1000 : BitVec w).toInt = 1000 := toInt_ofNat_of_int hw (by decide)
  rw [getMsec, toInt_narrow hw, BitVec.toInt_add, BitVec.toInt_mul, BitVec.toInt_sub,
    BitVec.toInt_sdiv, toInt_usec hw hs he, h1000, Int.bmod_mul_bmod, Int.bmod_add_bmod,
    Int.add_bmod_bmod, Int.bmod_bmod_of_dvd (Nat.pow_dvd_pow 2 hw)]

end Widths

/-! ### The rounding -/

/-- The division of C is off by one below zero, unless it comes out even. -/
theorem tdiv_eq (x : ℤ) :
    x.tdiv 1000 = if 0 ≤ x ∨ 1000 ∣ x then x / 1000 else x / 1000 + 1 := by
  rw [Int.tdiv_eq_ediv]
  split
  · simp
  · simp

/-- The rounded distance, from the seconds and the microseconds separately. -/
theorem distance_rounded (s e : Timeval w) :
    (distance s e + 500) / 1000 =
      (e.tvSec.toInt - s.tvSec.toInt) * 1000 +
        (e.tvUsec.toInt - s.tvUsec.toInt + 500) / 1000 := by
  rw [distance]
  omega

/-- **When the elapsed time is rounded to the nearest millisecond**, halves up: unless the
microseconds of the end are more than 500 below those of the start, by something else than
whole milliseconds and a half. -/
theorem getMsec_rounds_iff (hw : 32 ≤ w) {s e : Timeval w} (hs : s.Normalised)
    (he : e.Normalised) (hle : 0 ≤ distance s e)
    (hint : (distance s e + 500) / 1000 < 2 ^ 31) :
    (getMsec s e).toInt = (distance s e + 500) / 1000 ↔
      s.tvUsec.toInt ≤ e.tvUsec.toInt + 500 ∨
        (1000 : ℤ) ∣ e.tvUsec.toInt - s.tvUsec.toInt + 500 := by
  have hnonneg : 0 ≤ (distance s e + 500) / 1000 := by omega
  rw [toInt_getMsec hw hs.1 he, tdiv_eq]
  rw [distance_rounded] at hint hnonneg ⊢
  by_cases heven : 0 ≤ e.tvUsec.toInt - s.tvUsec.toInt + 500 ∨
      (1000 : ℤ) ∣ e.tvUsec.toInt - s.tvUsec.toInt + 500
  · rw [if_pos heven]
    refine iff_of_true (Int.bmod_eq_of_le (by omega) (by omega)) ?_
    exact heven.imp (fun h => by omega) id
  · rw [if_neg heven, ← Int.add_assoc]
    refine iff_of_false (fun heq => ?_) fun h => heven (h.imp (fun h => by omega) id)
    -- one more is another residue, also where it wraps
    have hmod := Int.bmod_emod (x := (e.tvSec.toInt - s.tvSec.toInt) * 1000 +
      (e.tvUsec.toInt - s.tvUsec.toInt + 500) / 1000 + 1) (m := 2 ^ 32)
    rw [heq] at hmod
    omega

/-- A second and half a millisecond are 1001 milliseconds. -/
theorem getMsec_rounds_half :
    (getMsec (⟨1, 200⟩ : Timeval 64) ⟨2, 700⟩).toInt =
      (distance (⟨1, 200⟩ : Timeval 64) ⟨2, 700⟩ + 500) / 1000 :=
  (getMsec_rounds_iff (by decide) (by decide) (by decide) (by decide) (by decide)).mpr (by decide)

/-- From 1.6 to 2 seconds it is 400 milliseconds exactly, and 401 are returned. -/
theorem not_getMsec_rounds_nextSecond :
    let s : Timeval 64 := ⟨1, 600000⟩
    let e : Timeval 64 := ⟨2, 0⟩
    s.Normalised ∧ e.Normalised ∧ 0 ≤ distance s e ∧ (distance s e + 500) / 1000 = 400 ∧
      (getMsec s e).toInt = 401 := by
  decide

/-! ### The range -/

/-- The formula of `__get_msec` over the unbounded integers. -/
def elapsed (s e : Timeval w) : ℤ :=
  (e.tvSec.toInt - s.tvSec.toInt) * 1000 +
    (e.tvUsec.toInt - s.tvUsec.toInt + 500).tdiv 1000

/-- The distance in milliseconds fits in an `int`, as `__get_msec` rounds it: up where the
microseconds of `e` are more than 500 below those of `s`. -/
def FitsInt (s e : Timeval w) : Prop :=
  distance s e + (if e.tvUsec.toInt + 500 < s.tvUsec.toInt then 1499 else 500) < 2 ^ 31 * 1000

instance (s e : Timeval w) : Decidable (FitsInt s e) :=
  inferInstanceAs (Decidable (_ < _))

/-- `s` is no later than `e`. -/
def NotAfter (s e : Timeval w) : Prop :=
  0 ≤ distance s e

instance (s e : Timeval w) : Decidable (NotAfter s e) :=
  inferInstanceAs (Decidable (_ ≤ _))

/-- Up to `e₂` what is measured from `s` is not negative, and it is not more than at
`e₂`. -/
def NeverWraps (s e₂ : Timeval w) : Prop :=
  ∀ e₁ : Timeval w, e₁.Normalised → s.NotAfter e₁ → e₁.NotAfter e₂ →
    0 ≤ (getMsec s e₁).toInt ∧ (getMsec s e₁).toInt ≤ (getMsec s e₂).toInt

section Range

variable {s e e₁ e₂ : Timeval w}

/-- No time is after itself. -/
theorem NotAfter.refl (s : Timeval w) : s.NotAfter s := by
  rw [NotAfter, distance]
  omega

/-- The order of times is transitive. -/
theorem NotAfter.trans (h₁ : s.NotAfter e₁) (h₂ : e₁.NotAfter e₂) : s.NotAfter e₂ := by
  rw [NotAfter, distance] at h₁ h₂ ⊢
  omega

/-- The distance fits in an `int` when the elapsed time does. -/
theorem fitsInt_iff : FitsInt s e ↔ elapsed s e < 2 ^ 31 := by
  rw [FitsInt, elapsed, tdiv_eq, distance]
  split
  · split <;> omega
  · split <;> omega

/-- No time has passed at the start, and none is lost to the rounding later. -/
theorem elapsed_nonneg (hle : s.NotAfter e) : 0 ≤ elapsed s e := by
  rw [NotAfter, distance] at hle
  rw [elapsed, tdiv_eq]
  split <;> omega

/-- The microseconds may fall by a second at most when a second has passed. -/
theorem elapsed_mono (h₁ : e₁.Normalised) (h₂ : e₂.Normalised) (hle : e₁.NotAfter e₂) :
    elapsed s e₁ ≤ elapsed s e₂ := by
  obtain ⟨h₁₀, h₁₁⟩ := h₁
  obtain ⟨h₂₀, h₂₁⟩ := h₂
  rw [NotAfter, distance] at hle
  rw [elapsed, elapsed, tdiv_eq, tdiv_eq]
  split <;> split <;> omega

/-- A clock that is out of the range of an `int` was just out of it before: so many seconds
ago that the milliseconds are less than a second above. -/
theorem exists_wrapped (hs : 0 ≤ s.tvUsec.toInt) (he : e.Normalised)
    (hlo : 2 ^ 31 ≤ elapsed s e) :
    ∃ e₁ : Timeval w, e₁.Normalised ∧ s.NotAfter e₁ ∧ e₁.NotAfter e ∧
      2 ^ 31 ≤ elapsed s e₁ ∧ elapsed s e₁ < 2 ^ 31 + 1000 := by
  have hlt := he.2
  obtain ⟨k, hk⟩ : ∃ k, k = (elapsed s e - 2 ^ 31) / 1000 := ⟨_, rfl⟩
  rw [elapsed, tdiv_eq] at hk hlo
  obtain ⟨e₁, hsec, husec⟩ : ∃ e₁ : Timeval w,
      e₁.tvSec.toInt = e.tvSec.toInt - k ∧ e₁.tvUsec = e.tvUsec := by
    refine ⟨⟨BitVec.ofInt w (e.tvSec.toInt - k), e.tvUsec⟩, ?_, rfl⟩
    apply toInt_ofInt_of_between (x := s.tvSec) (y := e.tvSec)
    · split at hk <;> omega
    · split at hk <;> omega
  refine ⟨e₁, ?_, ?_, ?_, ?_, ?_⟩
  · rwa [Normalised, husec]
  · rw [NotAfter, distance, hsec, husec]
    split at hk <;> omega
  · rw [NotAfter, distance, hsec, husec]
    split at hk <;> omega
  · rw [elapsed, tdiv_eq, hsec, husec]
    split at hk <;> omega
  · rw [elapsed, tdiv_eq, hsec, husec]
    split at hk <;> omega

section Returned

variable (hw : 32 ≤ w) (hs : 0 ≤ s.tvUsec.toInt)
include hw hs

/-- What fits in an `int` is returned as it is. -/
theorem toInt_getMsec_of_lt (he : e.Normalised) (hle : s.NotAfter e)
    (hlt : elapsed s e < 2 ^ 31) : (getMsec s e).toInt = elapsed s e := by
  have hnonneg := elapsed_nonneg hle
  rw [toInt_getMsec hw hs he]
  exact Int.bmod_eq_of_le (by rw [elapsed] at hnonneg; omega) (by rw [elapsed] at hlt; omega)

/-- What has just left the range of an `int` is returned as a negative number. -/
theorem toInt_getMsec_neg (he : e.Normalised) (hlo : 2 ^ 31 ≤ elapsed s e)
    (hhi : elapsed s e < 2 ^ 32) : (getMsec s e).toInt < 0 := by
  rw [toInt_getMsec hw hs he, ← elapsed, Int.bmod_def]
  omega

/-- As long as the distance fits in an `int`, what is returned grows with the clock. -/
theorem FitsInt.neverWraps (h₂ : e₂.Normalised) (hle : s.NotAfter e₂) (hfit : FitsInt s e₂) :
    NeverWraps s e₂ := by
  intro e₁ h₁ hle₁ hle₂
  rw [fitsInt_iff] at hfit
  have hmono : elapsed s e₁ ≤ elapsed s e₂ := elapsed_mono h₁ h₂ hle₂
  rw [toInt_getMsec_of_lt hw hs h₁ hle₁ (by omega), toInt_getMsec_of_lt hw hs h₂ hle hfit]
  exact ⟨elapsed_nonneg hle₁, hmono⟩

/-- **How long the measured time does not wrap**: as long as the distance fits in an `int`, at
either width of the fields. The microseconds of the start may be more than a second. -/
theorem neverWraps_iff (h₂ : e₂.Normalised) (hle : s.NotAfter e₂) :
    NeverWraps s e₂ ↔ FitsInt s e₂ := by
  constructor
  · intro h
    rw [fitsInt_iff]
    apply Int.not_le.mp
    intro hwrap
    obtain ⟨e₁, h₁, hle₁, hle₂, hlo, hhi⟩ := exists_wrapped hs h₂ hwrap
    have hneg := toInt_getMsec_neg hw hs h₁ hlo (by omega)
    have hnonneg := (h e₁ h₁ hle₁ hle₂).1
    omega
  · exact FitsInt.neverWraps hw hs h₂ hle

end Returned

/-- For the first 99 seconds nothing wraps. -/
theorem neverWraps_seconds : NeverWraps (⟨1, 0⟩ : Timeval 64) ⟨100, 0⟩ :=
  (neverWraps_iff (by decide) (by decide) (by decide) (by decide)).mpr (by decide)

/-- After 2147484 seconds, 24 days and 20 hours, a negative time is measured. -/
theorem not_neverWraps_days :
    let s : Timeval 64 := ⟨1, 0⟩
    let e : Timeval 64 := ⟨2147485, 0⟩
    s.Normalised ∧ e.Normalised ∧ s.NotAfter e ∧ (getMsec s e).toInt = -2147483296 ∧
      ¬ NeverWraps s e := by
  refine ⟨by decide, by decide, by decide, by decide, fun h => ?_⟩
  have hneg := (h ⟨2147485, 0⟩ (by decide) (by decide) (by decide)).1
  revert hneg
  decide

end Range

/-! ### Measuring -/

/-- `__get_time`, at the time `now`. A start at zero is one that was never set. -/
def getTime (s now : Timeval w) : BitVec 32 :=
  if s.tvSec = 0 ∧ s.tvUsec = 0 then 0 else getMsec s now

/-- `appcore_measure_start`: the `tv_s` after it. -/
def measureStart (now : Timeval w) : Timeval w :=
  now

/-- `appcore_measure_time`, with the `tv_s` before it. -/
def measureTime (tvS now : Timeval w) : BitVec 32 :=
  getTime tvS now

section Calls

variable (hw : 32 ≤ w) {start : Timeval w} (hs : start.Normalised)
include hw hs

/-- As long as the distance fits, the measured time is not negative and grows with the clock. -/
theorem measureTime_le {e₁ e₂ : Timeval w} (h₁ : e₁.Normalised) (h₂ : e₂.Normalised)
    (hle₁ : start.NotAfter e₁) (hle₂ : e₁.NotAfter e₂) (hfit : FitsInt start e₂) :
    0 ≤ (measureTime (measureStart start) e₁).toInt ∧
      (measureTime (measureStart start) e₁).toInt ≤
        (measureTime (measureStart start) e₂).toInt := by
  have hle : start.NotAfter e₂ := hle₁.trans hle₂
  unfold measureTime measureStart getTime
  split
  · simp
  · exact hfit.neverWraps hw hs.1 h₂ hle e₁ h₁ hle₁ hle₂

/-- After `appcore_measure_start` one call of `appcore_measure_time` after the other returns
zero or more and no less than the calls before it, while the distance fits in an `int`. -/
theorem measureTime_mono {calls : List (Timeval w)} (hclock : calls.Pairwise NotAfter)
    (hcalls : ∀ e ∈ calls, e.Normalised ∧ start.NotAfter e ∧ FitsInt start e) :
    (∀ e ∈ calls, 0 ≤ (measureTime (measureStart start) e).toInt) ∧
      (calls.map fun e => (measureTime (measureStart start) e).toInt).Pairwise (· ≤ ·) := by
  constructor
  · intro e he
    obtain ⟨hnorm, hle, hfit⟩ := hcalls e he
    exact (measureTime_le hw hs hnorm hnorm hle (NotAfter.refl e) hfit).1
  · rw [List.pairwise_map]
    refine hclock.imp_of_mem fun {e₁ e₂} he₁ he₂ hle₂ => ?_
    obtain ⟨h₁, hle₁, -⟩ := hcalls e₁ he₁
    obtain ⟨h₂, -, hfit⟩ := hcalls e₂ he₂
    exact (measureTime_le hw hs h₁ h₂ hle₁ hle₂ hfit).2

end Calls

end Timeval

end AppCore
