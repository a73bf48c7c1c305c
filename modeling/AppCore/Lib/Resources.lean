import Mathlib.Data.List.Basic

/-!
# Traces of Acquired and Released Resources

A trace whose entries may acquire or release a resource. `settle` follows it with the list
of what is held, the last acquired first: a release has to be of the resource that was
acquired last. A trace is `Balanced` when it leaves what is held as it was, from anything
held before.

## Main results

* `settle_append`: what is held after one trace and another.
* `Balanced.append`, `Balanced.between`: the ways to put balanced traces together.
-/

set_option autoImplicit false

namespace Resources

variable {ω α : Type*}

/-- What an entry of the trace does. -/
inductive Effect (α : Type*)
  | acquires (a : α)
  | releases (a : α)
  | none

variable [DecidableEq α] (effect : ω → Effect α)

/-- What is held after a trace, if each release is of what was acquired last. -/
def settle : List α → List ω → Option (List α)
  | held, [] => some held
  | held, x :: l =>
      match effect x with
      | .acquires a => settle (a :: held) l
      | .releases a =>
          match held with
          | [] => Option.none
          | b :: held => if a = b then settle held l else Option.none
      | .none => settle held l

/-- The trace releases what it acquires, and nothing else. -/
def Balanced (l : List ω) : Prop :=
  ∀ held, settle effect held l = some held

variable {effect}

/-- The account of one trace is carried over to the next. -/
theorem settle_append (held : List α) (l m : List ω) :
    settle effect held (l ++ m) = (settle effect held l).bind fun held => settle effect held m := by
  induction l generalizing held with
  | nil => rfl
  | cons x l ih =>
      rw [List.cons_append, settle, settle]
      cases effect x with
      | acquires a => exact ih _
      | releases a =>
          cases held with
          | nil => rfl
          | cons b held =>
              dsimp only
              split
              · exact ih held
              · rfl
      | none => exact ih held

namespace Balanced

/-- A trace without entries is balanced. -/
theorem nil : Balanced effect ([] : List ω) :=
  fun _ => rfl

/-- Balanced traces one after the other are balanced. -/
theorem append {l m : List ω} (hl : Balanced effect l) (hm : Balanced effect m) :
    Balanced effect (l ++ m) := by
  intro held
  rw [settle_append, hl held, Option.bind_some, hm held]

/-- An entry without an effect may come first. -/
theorem cons {x : ω} {l : List ω} (hx : effect x = .none) (hl : Balanced effect l) :
    Balanced effect (x :: l) := by
  intro held
  rw [settle, hx]
  exact hl held

/-- A resource is held over a balanced trace. -/
theorem between {x y : ω} {a : α} {l : List ω} (hx : effect x = .acquires a)
    (hl : Balanced effect l) (hy : effect y = .releases a) :
    Balanced effect (x :: (l ++ [y])) := by
  intro held
  rw [settle, hx]
  dsimp only
  rw [settle_append, hl, Option.bind_some, settle, hy]
  exact if_pos rfl

/-- Entries without an effect. -/
theorem of_forall_none {l : List ω} (h : ∀ x ∈ l, effect x = .none) : Balanced effect l := by
  induction l with
  | nil => exact nil
  | cons x l ih =>
      obtain ⟨hx, hl⟩ := List.forall_mem_cons.mp h
      exact cons hx (ih hl)

end Balanced

end Resources
