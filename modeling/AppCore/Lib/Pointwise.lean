import AppCore.Lib.Machine
import Mathlib.Logic.Function.Basic

/-!
# Machines that Act Pointwise

A machine over functions `κ → β` acts pointwise if each input concerns at most one key and
what it leaves there depends on what was there only. Such a machine is a family of machines,
one for each key, that run independently of one another.

## Main results

* `Pointwise.run_apply`: the value at a key after a run is that of the run of its own
  inputs.
* `Pointwise.run_congr`: **the order of inputs with different keys does not matter**.
-/

set_option autoImplicit false

namespace Machine

variable {ι κ β : Type*} [DecidableEq κ]

/-- An input changes at most the value at its key, by `upd`. -/
def Pointwise (step : (κ → β) → ι → κ → β) (key : ι → Option κ) (upd : ι → β → β) : Prop :=
  ∀ m i k, step m i k = if key i = some k then upd i (m k) else m k

variable {step : (κ → β) → ι → κ → β} {key : ι → Option κ} {upd : ι → β → β}

/-- The value at a key depends on the inputs with this key only. -/
theorem Pointwise.run_apply (h : Pointwise step key upd) (m : κ → β) (is : List ι) (k : κ) :
    run step m is k =
      run (fun b i => upd i b) (m k) (is.filter fun i => decide (key i = some k)) := by
  induction is generalizing m with
  | nil => rfl
  | cons i is ih =>
      rw [run_cons, ih, h]
      by_cases hk : key i = some k
      · rw [if_pos hk, List.filter_cons_of_pos (by simp [hk]), run_cons]
      · rw [if_neg hk, List.filter_cons_of_neg (by simp [hk])]

/-- **Order.** Two lists with the same inputs for each key, in the same order, lead to the
same function. -/
theorem Pointwise.run_congr (h : Pointwise step key upd) (m : κ → β) {is js : List ι}
    (heq : ∀ k, (is.filter fun i => decide (key i = some k)) =
      js.filter fun i => decide (key i = some k)) : run step m is = run step m js := by
  funext k
  rw [h.run_apply, h.run_apply, heq]

end Machine
