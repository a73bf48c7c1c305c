import Mathlib.Data.List.Induction
import AppCore.Lib.Machine

/-!
# Properties of Append-Only Traces

A trace is the list of what a system did, oldest entry first. This module gives four ways
to read one: `Each`, a property of every entry relative to the entries before it,
`latest`, the value last written to a register by the entries of a trace, and `withBefore`
and `withPast`, each entry with the one right before it or with all of them. They unfold one
entry at a time, and `Machine.run_iff_atEach` carries such a one-entry unfolding over to the
runs of a machine that keeps a trace.

## Main results

* `each_append`, `each_snoc`: the unfolding of `Each`.
* `latest_append`, `latest_snoc`, `latest_eq_of_forall_none`: the unfolding of `latest`.
* `withBefore_snoc`, `withPast_snoc`: the unfolding of `withBefore` and `withPast`.
* `Machine.run_iff_atEach`: a trace property that each step extends by a condition on
  the state before the step is, over a run, that condition at each step.
-/

set_option autoImplicit false

namespace Trace

variable {ω β : Type*}

/-- `Each P l`: every entry of the trace satisfies `P` relative to the entries before
it. -/
def Each (P : List ω → ω → Prop) (l : List ω) : Prop :=
  ∀ pre x post, l = pre ++ x :: post → P pre x

/-- Nothing is asked of the empty trace. -/
@[simp] theorem each_nil {P : List ω → ω → Prop} : Each P [] := by
  intro pre x post h
  simp at h

/-- One more entry: the trace so far, and the new entry relative to it. -/
theorem each_snoc {P : List ω → ω → Prop} {l : List ω} {x : ω} :
    Each P (l ++ [x]) ↔ Each P l ∧ P l x := by
  constructor
  · intro h
    refine ⟨fun pre y post hl => h pre y (post ++ [x]) (by simp [hl]), h l x [] rfl⟩
  · rintro ⟨hl, hx⟩ pre y post heq
    rcases List.eq_nil_or_concat post with rfl | ⟨post, z, rfl⟩
    · obtain ⟨rfl, hy⟩ := List.append_inj' heq rfl
      obtain rfl : x = y := by simpa using hy
      exact hx
    · have heq' : l ++ [x] = (pre ++ y :: post) ++ [z] := by simpa using heq
      obtain ⟨hpre, -⟩ := List.append_inj' heq' rfl
      exact hl pre y post hpre

/-- Of the later part it is asked with the earlier part before it. -/
theorem each_append {P : List ω → ω → Prop} {l m : List ω} :
    Each P (l ++ m) ↔ Each P l ∧ Each (fun pre => P (l ++ pre)) m := by
  induction m using List.reverseRecOn with
  | nil => simp
  | append_singleton m x ih => rw [← List.append_assoc, each_snoc, each_snoc, ih, and_assoc]

/-- Entries about which `P` says nothing do not matter. -/
theorem each_append_of_forall {P : List ω → ω → Prop} {l m : List ω}
    (hm : ∀ x ∈ m, ∀ pre, P pre x) : Each P (l ++ m) ↔ Each P l := by
  rw [each_append, and_iff_left_iff_imp]
  rintro - pre x post rfl
  exact hm x (by simp) _

/-- The value of a register after a trace: `f x = some b` says that the entry `x` writes
`b`, and `f x = none` that it leaves the register alone. -/
def latest (f : ω → Option β) (b : β) (l : List ω) : β :=
  l.foldl (fun b x => (f x).getD b) b

/-- Without an entry there is the default. -/
@[simp] theorem latest_nil {f : ω → Option β} {b : β} : latest f b [] = b := rfl

/-- The first entry may replace the default. -/
@[simp] theorem latest_cons {f : ω → Option β} {b : β} {x : ω} {l : List ω} :
    latest f b (x :: l) = latest f ((f x).getD b) l := rfl

/-- The default of the later part is the latest of the earlier one. -/
theorem latest_append {f : ω → Option β} {b : β} {l m : List ω} :
    latest f b (l ++ m) = latest f (latest f b l) m := by
  simp only [latest, List.foldl_append]

/-- One more entry writes the register, or leaves it alone. -/
theorem latest_snoc {f : ω → Option β} {b : β} {l : List ω} {x : ω} :
    latest f b (l ++ [x]) = (f x).getD (latest f b l) := by
  rw [latest_append, latest_cons, latest_nil]

/-- Entries that do not write the register leave its value. -/
theorem latest_eq_of_forall_none {f : ω → Option β} {b : β} {l : List ω}
    (h : ∀ x ∈ l, f x = none) : latest f b l = b := by
  induction l with
  | nil => rfl
  | cons x l ih =>
      rw [latest_cons, h x (by simp), Option.getD_none]
      exact ih fun y hy => h y (by simp [hy])

/-- Each entry with the one right before it; before the first comes `p`. -/
def withBefore (p : Option ω) : List ω → List (Option ω × ω)
  | [] => []
  | x :: l => (p, x) :: withBefore (some x) l

/-- One more entry comes after the last. -/
theorem withBefore_snoc {p : Option ω} {l : List ω} {x : ω} :
    withBefore p (l ++ [x]) = withBefore p l ++ [(l.getLast?.or p, x)] := by
  induction l generalizing p with
  | nil => rfl
  | cons y l ih =>
      rw [List.cons_append, withBefore, ih, withBefore, List.cons_append, List.getLast?_cons]
      cases l.getLast? <;> rfl

/-- Each entry with the entries before it; before the first come those of `past`. -/
def withPast (past : List ω) : List ω → List (List ω × ω)
  | [] => []
  | x :: l => (past, x) :: withPast (past ++ [x]) l

/-- One more entry comes after all others. -/
theorem withPast_snoc {past l : List ω} {x : ω} :
    withPast past (l ++ [x]) = withPast past l ++ [(past ++ l, x)] := by
  induction l generalizing past with
  | nil => simp [withPast]
  | cons y l ih => simp [withPast, ih]

end Trace

namespace Machine

variable {σ ι : Type*} {step : σ → ι → σ}

/-- **Trace properties over runs.** If under an invariant each step extends the property
`P` of the state by the condition `Q` on the state before the step and the input, then
after a run `P` holds exactly when it held at first and `Q` holds at each step. -/
theorem run_iff_atEach {I P : σ → Prop} {Q : σ → ι → Prop}
    (hstep : ∀ s i, I s → I (step s i))
    (hP : ∀ s i, I s → (P (step s i) ↔ P s ∧ Q s i)) {s : σ} (hs : I s)
    (is : List ι) : P (run step s is) ↔ P s ∧ AtEach step Q s is := by
  induction is generalizing s with
  | nil => simp
  | cons i is ih => rw [run_cons, ih (hstep s i hs), hP s i hs, atEach_cons, and_assoc]

end Machine
