import Mathlib.Data.List.Induction

/-!
# Runs of a Deterministic Machine

A deterministic machine is a step function `step : σ → ι → σ`; everything the outside
world decides during a step is part of the input. This module fixes the run of a machine
over a list of inputs and the proof rules that the rest of a development uses on it: an
invariant is preserved along a run, a property of single steps holds at each step, a
state map commutes with runs, and a past-time operator.

## Main results

* `run_invariant`: an invariant of the step function is an invariant of every run.
* `AtEach.run_invariant`: an invariant that needs a guard on each step.
* `AtEach.congr`: properties of steps that agree under a guarded invariant.
* `run_map`: **refinement by an abstraction function**, lifted from steps to runs.
* `AtEach.run_rel`: **simulation**, two machines stay related.
* `run_outputs`: refinement of a machine with outputs, what a run emits.
* `since_snoc`: the one-step unfolding of the past-time operator `Since`.
* `since_map`: `Since` along a refinement.
* `since_of_entered`: what holds now and did not hold at first was entered by a step and
  has held ever since.
-/

set_option autoImplicit false

namespace Machine

variable {σ τ ι : Type*} (step : σ → ι → σ)

/-- The state reached from `s` by the inputs `is`, in order. -/
def run (s : σ) (is : List ι) : σ :=
  is.foldl step s

/-- No input, no change. -/
@[simp] theorem run_nil (s : σ) : run step s [] = s := rfl

/-- The first input is handled first. -/
@[simp] theorem run_cons (s : σ) (i : ι) (is : List ι) :
    run step s (i :: is) = run step (step s i) is := rfl

/-- A run over one list after another. -/
theorem run_append (s : σ) (is js : List ι) :
    run step s (is ++ js) = run step (run step s is) js := by
  simp only [run, List.foldl_append]

/-- A run that ends with the input `i` makes its last step there. -/
@[simp] theorem run_snoc (s : σ) (is : List ι) (i : ι) :
    run step s (is ++ [i]) = step (run step s is) i := by
  simp only [run_append, run_cons, run_nil]

/-! ### Invariants -/

/-- **Invariant rule.** What every step preserves, every run preserves. -/
theorem run_invariant {I : σ → Prop} (hstep : ∀ s i, I s → I (step s i))
    {s : σ} (hs : I s) (is : List ι) : I (run step s is) := by
  induction is generalizing s with
  | nil => exact hs
  | cons i is ih => exact ih (hstep s i hs)

/-- `AtEach P s is`: at each step of the run of `is` from `s`, the state before the step
and the input satisfy `P`. -/
def AtEach (P : σ → ι → Prop) : σ → List ι → Prop
  | _, [] => True
  | s, i :: is => P s i ∧ AtEach P (step s i) is

variable {step}

/-- There is no input of which anything is asked. -/
@[simp] theorem atEach_nil {P : σ → ι → Prop} {s : σ} : AtEach step P s [] := trivial

/-- What is asked of the first input is asked in the first state. -/
@[simp] theorem atEach_cons {P : σ → ι → Prop} {s : σ} {i : ι} {is : List ι} :
    AtEach step P s (i :: is) ↔ P s i ∧ AtEach step P (step s i) is := Iff.rfl

/-- What is asked of the later inputs is asked after the earlier ones. -/
theorem atEach_append {P : σ → ι → Prop} {s : σ} {is js : List ι} :
    AtEach step P s (is ++ js) ↔ AtEach step P s is ∧ AtEach step P (run step s is) js := by
  induction is generalizing s with
  | nil => simp
  | cons i is ih => rw [List.cons_append, atEach_cons, atEach_cons, ih, run_cons, and_assoc]

/-- A property of the inputs alone. -/
theorem atEach_of_forall {Q : ι → Prop} {s : σ} {is : List ι} (h : ∀ i ∈ is, Q i) :
    AtEach step (fun _ i => Q i) s is := by
  induction is generalizing s with
  | nil => trivial
  | cons i is ih => exact ⟨h i (by simp), ih fun j hj => h j (by simp [hj])⟩

/-- **Guarded invariant rule.** What every guarded step preserves, every run whose steps
all meet the guard preserves. -/
theorem AtEach.run_invariant {I : σ → Prop} {G : σ → ι → Prop}
    (hstep : ∀ s i, I s → G s i → I (step s i)) {s : σ} (hs : I s) {is : List ι}
    (hG : AtEach step G s is) : I (run step s is) := by
  induction is generalizing s with
  | nil => exact hs
  | cons i is ih => exact ih (hstep s i hs hG.1) hG.2

/-- Two properties of steps that agree in every invariant state, on inputs that meet a
guard, agree along the runs whose steps meet it. -/
theorem AtEach.congr {I : σ → Prop} {G P Q : σ → ι → Prop}
    (hstep : ∀ s i, I s → G s i → I (step s i))
    (hPQ : ∀ s i, I s → G s i → (P s i ↔ Q s i)) {s : σ} (hs : I s) {is : List ι}
    (hG : AtEach step G s is) : AtEach step P s is ↔ AtEach step Q s is := by
  induction is generalizing s with
  | nil => exact Iff.rfl
  | cons i is ih => exact and_congr (hPQ s i hs hG.1) (ih (hstep s i hs hG.1) hG.2)

/-! ### Refinement -/

/-- **Refinement.** A state map that commutes with single steps commutes with runs. -/
theorem run_map {astep : τ → ι → τ} {f : σ → τ}
    (habs : ∀ s i, f (step s i) = astep (f s) i) (s : σ) (is : List ι) :
    f (run step s is) = run astep (f s) is := by
  induction is generalizing s with
  | nil => rfl
  | cons i is ih => rw [run_cons, run_cons, ih, habs]

/-- **Simulation.** A relation between the states of two machines that guarded steps keep
relates the states that two runs over corresponding inputs reach. -/
theorem AtEach.run_rel {κ : Type*} (astep : τ → κ → τ) (f : ι → κ) {R : σ → τ → Prop}
    {G : σ → ι → Prop} (hstep : ∀ s t i, R s t → G s i → R (step s i) (astep t (f i)))
    {s : σ} {t : τ} (hs : R s t) {is : List ι} (hG : AtEach step G s is) :
    R (run step s is) (run astep t (is.map f)) := by
  induction is generalizing s t with
  | nil => exact hs
  | cons i is ih => exact ih (hstep s t i hs hG.1) hG.2

/-! ### Outputs -/

variable {κ ω : Type*}

/-- What a machine whose steps return outputs puts out along a run. -/
def outputs (ostep : τ → κ → τ × List ω) : τ → List κ → List ω
  | _, [] => []
  | t, k :: ks => (ostep t k).2 ++ outputs ostep (ostep t k).1 ks

/-- No input, no output. -/
@[simp] theorem outputs_nil (ostep : τ → κ → τ × List ω) (t : τ) :
    outputs ostep t [] = [] := rfl

/-- The output of the first input comes first. -/
@[simp] theorem outputs_cons (ostep : τ → κ → τ × List ω) (t : τ) (k : κ) (ks : List κ) :
    outputs ostep t (k :: ks) = (ostep t k).2 ++ outputs ostep (ostep t k).1 ks := rfl

/-- **Refinement with outputs.** If under an invariant a step commutes with a step that
returns outputs, and what is read off the state grows by these, then over a run it grows by
the outputs of the run. -/
theorem run_outputs {ostep : τ → κ → τ × List ω} {I : σ → Prop} {f : σ → τ}
    {e : σ → List ω} {g : κ → ι} (hI : ∀ s k, I s → I (step s (g k)))
    (hf : ∀ s k, I s → f (step s (g k)) = (ostep (f s) k).1)
    (he : ∀ s k, I s → e (step s (g k)) = e s ++ (ostep (f s) k).2)
    {s : σ} (hs : I s) (ks : List κ) :
    e (run step s (ks.map g)) = e s ++ outputs ostep (f s) ks := by
  induction ks generalizing s with
  | nil => simp
  | cons k ks ih =>
      rw [List.map_cons, run_cons, ih (hI s k hs), he s k hs, hf s k hs, outputs_cons,
        List.append_assoc]

/-! ### Past time -/

variable (step) in
/-- `Since φ ψ s is`: the run of `is` from `s` made a step satisfying `ψ`, and `φ` has
held in every state from the one right after that step to the last. -/
def Since (φ : σ → Prop) (ψ : σ → ι → Prop) (s : σ) (is : List ι) : Prop :=
  ∃ pre i post, is = pre ++ i :: post ∧ ψ (run step s pre) i ∧
    ∀ k, k <+: post → φ (run step s (pre ++ i :: k))

variable {φ : σ → Prop} {ψ : σ → ι → Prop} {s : σ}

/-- Nothing has happened before the first input. -/
theorem not_since_nil : ¬ Since step φ ψ s [] := by
  rintro ⟨pre, i, post, h, -⟩
  simp at h

/-- The state in which `Since φ ψ` is read satisfies `φ`. -/
theorem Since.now {is : List ι} (h : Since step φ ψ s is) : φ (run step s is) := by
  obtain ⟨pre, i, post, rfl, -, hφ⟩ := h
  exact hφ post (List.prefix_refl post)

/-- **One-step unfolding**: after one more input, `φ` holds and either that step is the
one looked for, or `Since` held before it. -/
theorem since_snoc {is : List ι} {i : ι} :
    Since step φ ψ s (is ++ [i]) ↔
      φ (step (run step s is) i) ∧ (ψ (run step s is) i ∨ Since step φ ψ s is) := by
  constructor
  · intro h
    refine ⟨by simpa using h.now, ?_⟩
    obtain ⟨pre, j, post, heq, hψ, hφ⟩ := h
    rcases List.eq_nil_or_concat post with rfl | ⟨post, k, rfl⟩
    · obtain ⟨rfl, hj⟩ := List.append_inj' heq rfl
      obtain rfl : i = j := by simpa using hj
      exact Or.inl hψ
    · have heq' : is ++ [i] = (pre ++ j :: post) ++ [k] := by simpa using heq
      obtain ⟨rfl, -⟩ := List.append_inj' heq' rfl
      refine Or.inr ⟨pre, j, post, rfl, hψ, fun l hl => hφ l ?_⟩
      exact hl.trans (by simp)
  · rintro ⟨hnow, hψ | ⟨pre, j, post, rfl, hψ, hφ⟩⟩
    · refine ⟨is, i, [], rfl, hψ, fun l hl => ?_⟩
      obtain rfl : l = [] := List.prefix_nil.mp hl
      simpa using hnow
    · refine ⟨pre, j, post ++ [i], by simp, hψ, fun l hl => ?_⟩
      rcases List.prefix_concat_iff.mp (by simpa using hl) with rfl | hl
      · have hsplit : pre ++ j :: (post ++ [i]) = (pre ++ j :: post) ++ [i] := by simp
        rw [hsplit, run_snoc]
        exact hnow
      · exact hφ l hl

/-- `Since` of a refined machine is `Since` of the abstract one. -/
theorem since_map {astep : τ → ι → τ} {f : σ → τ}
    (habs : ∀ s i, f (step s i) = astep (f s) i) {φ : τ → Prop} {ψ : τ → ι → Prop}
    {s : σ} {is : List ι} :
    Since step (fun t => φ (f t)) (fun t i => ψ (f t) i) s is ↔
      Since astep φ ψ (f s) is := by
  simp only [Since, run_map habs]

/-- What holds in the last state of a run and did not hold in the first was **entered**
by some step, and has held ever since. -/
theorem since_of_entered {is : List ι} (h₀ : ¬ φ s) (h : φ (run step s is)) :
    Since step φ (fun t i => ¬ φ t ∧ φ (step t i)) s is := by
  induction is using List.reverseRecOn with
  | nil => exact absurd h h₀
  | append_singleton is i ih =>
      rw [run_snoc] at h
      rw [since_snoc]
      refine ⟨h, ?_⟩
      by_cases hφ : φ (run step s is)
      · exact Or.inr (ih hφ)
      · exact Or.inl ⟨hφ, h⟩

end Machine
