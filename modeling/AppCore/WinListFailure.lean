import AppCore.Lib.Keyed
import AppCore.WinList

/-!
# Failing Operations on the Window List

Each of the three operations of the window list reports failure by its return value. An
operation is *atomic* when a call that fails leaves the entries of the list as they were.
`__add_win` allocates the node before it searches and links, and `__delete_win` allocates
nothing. `__update_win` drops the node and only then allocates the one that is to replace
it, so that a window is lost when the memory is exhausted.

## Main results

* `WinOp.atomic_iff`: **when an operation is atomic**, for every list.
* `WinOp.atomic_iff_of_unique`: the same where every window has one node.
-/

set_option autoImplicit false

namespace AppCore

/-- A call of an operation of the window list. -/
inductive WinOp
  /-- `__add_win` -/
  | add (win : BitVec 32)
  /-- `__delete_win` -/
  | delete (win : BitVec 32)
  /-- `__update_win` -/
  | update (win : BitVec 32) (bfobscured : Bool)
  deriving DecidableEq, Repr

namespace WinOp

/-- What the call returns and what it makes of the list. -/
def run (calloc : Bool) (list : List WinNode) : WinOp → Bool × List WinNode
  | add win => addWin win calloc list
  | delete win => deleteWin win list
  | update win bfobscured => updateWin win bfobscured calloc list

/-- When the call fails, the entries of the list are what they were before. -/
def Atomic (op : WinOp) (calloc : Bool) (list : List WinNode) : Prop :=
  (op.run calloc list).1 = false → ∀ e, e ∈ (op.run calloc list).2 ↔ e ∈ list

/-- A call that leaves the whole list alone when it fails. -/
theorem atomic_of_unchanged {op : WinOp} {calloc : Bool} {list : List WinNode}
    (h : (op.run calloc list).1 = false → (op.run calloc list).2 = list) :
    op.Atomic calloc list := by
  intro hfail e
  rw [h hfail]

variable {calloc : Bool} {list : List WinNode}

/-- `__add_win` links the new node last. -/
theorem atomic_add (win : BitVec 32) : (add win).Atomic calloc list := by
  apply atomic_of_unchanged
  rw [run, addWin_eq]
  split
  · intro hfail
    exact absurd hfail (by simp)
  · intro _
    rfl

/-- `__delete_win` has nothing to fail after the search. -/
theorem atomic_delete (win : BitVec 32) : (delete win).Atomic calloc list := by
  apply atomic_of_unchanged
  rw [run, deleteWin_eq]
  split
  · intro hfail
    exact absurd hfail (by simp)
  · intro _
    rfl

/-- A window is in the list when a node is found for it. -/
theorem existWin_iff_lookup {win : BitVec 32} :
    existWin win list = true ↔ ∃ e, Keyed.lookup WinNode.win list win = some e := by
  rw [existWin_iff, ← Keyed.lookup_ne_none, Option.ne_none_iff_exists']

/-- `__update_win` fails without a change on a window that is not in the list, and without
memory it returns after the node is dropped. -/
theorem atomic_update_iff (win : BitVec 32) (o : Bool) :
    (update win o).Atomic calloc list ↔
      (calloc = false → ∀ e, Keyed.lookup WinNode.win list win = some e → list.count e ≠ 1) := by
  rw [Atomic, run, updateWin_eq]
  by_cases hknown : existWin win list = true
  · obtain ⟨e, he⟩ := existWin_iff_lookup.mp hknown
    rw [if_pos hknown]
    cases calloc with
    | true => simp
    | false =>
        have hdropped := Keyed.forall_mem_erase_iff he
        constructor
        · intro h _ e' he'
          obtain rfl : e = e' := Option.some.inj (he.symm.trans he')
          exact hdropped.mp (h rfl)
        · intro h _
          exact hdropped.mpr (h rfl e he)
  · rw [if_neg hknown]
    refine iff_of_true (fun _ _ => Iff.rfl) fun _ e he => ?_
    exact absurd (existWin_iff_lookup.mpr ⟨e, he⟩) hknown

/-- **When an operation is atomic**: always, except for an update without memory whose
node is the only one with this window and flag. -/
theorem atomic_iff (op : WinOp) (calloc : Bool) (list : List WinNode) :
    op.Atomic calloc list ↔
      ¬ ∃ win o e, op = update win o ∧ calloc = false ∧
        Keyed.lookup WinNode.win list win = some e ∧ list.count e = 1 := by
  cases op with
  | add win =>
      refine iff_of_true (atomic_add win) ?_
      rintro ⟨_, _, _, hop, -⟩
      exact WinOp.noConfusion hop
  | delete win =>
      refine iff_of_true (atomic_delete win) ?_
      rintro ⟨_, _, _, hop, -⟩
      exact WinOp.noConfusion hop
  | update win o =>
      rw [atomic_update_iff]
      constructor
      · rintro h ⟨_, _, e, hop, hcalloc, he, hone⟩
        obtain ⟨rfl, rfl⟩ := update.inj hop
        exact h hcalloc e he hone
      · intro h hcalloc e he hone
        exact h ⟨win, o, e, rfl, hcalloc, he, hone⟩

/-- The obscured flag of window 1 is to be set, and `calloc` returns `NULL`: the window is
no longer in the list. -/
theorem not_atomic_updateWithoutMemory :
    run false [⟨1, false⟩] (update 1 true) = (false, []) ∧
      ¬ (update 1 true).Atomic false [⟨1, false⟩] := by
  refine ⟨by decide, fun h => ?_⟩
  have hlost := (h (by decide) ⟨1, false⟩).mpr (by decide)
  exact absurd hlost (by decide)

/-- In a list where every window has one node, as the event handlers build it, an update
without memory always loses a window that is in the list. -/
theorem atomic_iff_of_unique {op : WinOp} (hlist : Keyed.Unique WinNode.win list) :
    op.Atomic calloc list ↔
      ¬ (calloc = false ∧ ∃ win o, op = update win o ∧ existWin win list = true) := by
  cases op with
  | add win => exact iff_of_true (atomic_add win) (by simp)
  | delete win => exact iff_of_true (atomic_delete win) (by simp)
  | update win o =>
      have hcount : ∀ e, Keyed.lookup WinNode.win list win = some e → list.count e = 1 :=
        fun e he => List.count_eq_one_of_mem hlist.of_map (Keyed.of_lookup_eq_some he).1
      rw [atomic_update_iff]
      constructor
      · rintro h ⟨hcalloc, w, o', hop, hknown⟩
        obtain ⟨rfl, rfl⟩ := update.inj hop
        obtain ⟨e, he⟩ := existWin_iff_lookup.mp hknown
        exact h hcalloc e he (hcount e he)
      · intro h hcalloc e he _
        exact h ⟨hcalloc, win, o, rfl, existWin_iff_lookup.mpr ⟨e, he⟩⟩

end WinOp

end AppCore
