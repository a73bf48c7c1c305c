import Mathlib.Data.Int.Notation
import Mathlib.Data.List.Basic

/-!
# The Window List

`appcore-efl.c` keeps the windows of the application in the GSList `g_winnode_list`, one
`struct win_node` per shown top-level window, with the last reported obscured flag. The
list is searched with the subtraction-based comparator `WIN_COMP` through
`g_slist_find_custom`, which yields a link, and a link is dropped by
`g_slist_remove_link`; a link is modelled by its position. The answer of `calloc` is an
argument of the functions that allocate.

## Main results

* `winComp_eq_zero_iff`: the comparator finds exactly the nodes of the same window.
* `existWin_iff`, `checkVisible_iff`: what the two queries of the list compute.
* `deleteWin_eq`, `updateWin_eq`, `addWin_eq`: the effect of the three operations, with
  the search resolved.
-/

set_option autoImplicit false

namespace AppCore

/-- `struct win_node`. A window id is an `unsigned int`. -/
structure WinNode where
  win : BitVec 32
  bfobscured : Bool
  deriving DecidableEq, Repr

/-- `WIN_COMP`: the difference of the ids, as an `int`. -/
def winComp (a b : WinNode) : ℤ :=
  (a.win - b.win).toInt

/-- `g_slist_find_custom` with `WIN_COMP`: the first link whose node compares equal. -/
def gSlistFindCustom (list : List WinNode) (data : WinNode) : Option ℕ :=
  list.findIdx? fun entry => decide (winComp entry data = 0)

/-- `g_slist_remove_link`. -/
def gSlistRemoveLink (list : List WinNode) (link : ℕ) : List WinNode :=
  list.eraseIdx link

/-- `g_slist_append`. -/
def gSlistAppend (list : List WinNode) (data : WinNode) : List WinNode :=
  list ++ [data]

/-- `__check_visible`. -/
def checkVisible : List WinNode → Bool
  | [] => false
  | entry :: rest => if entry.bfobscured = false then true else checkVisible rest

/-- `__exist_win`. -/
def existWin (win : BitVec 32) (list : List WinNode) : Bool :=
  match gSlistFindCustom list ⟨win, false⟩ with
  | none => false
  | some _ => true

/-- `__add_win`; `calloc` tells whether the allocation succeeds. -/
def addWin (win : BitVec 32) (calloc : Bool) (list : List WinNode) :
    Bool × List WinNode :=
  if calloc = false then (false, list)
  else
    let t : WinNode := ⟨win, false⟩
    match gSlistFindCustom list t with
    | some _ => (false, list)
    | none => (true, gSlistAppend list t)

/-- `__delete_win`. -/
def deleteWin (win : BitVec 32) (list : List WinNode) : Bool × List WinNode :=
  match gSlistFindCustom list ⟨win, false⟩ with
  | none => (false, list)
  | some f => (true, gSlistRemoveLink list f)

/-- `__update_win`: the node is dropped first and a new one appended after it, so a
failing `calloc` in between loses the window. -/
def updateWin (win : BitVec 32) (bfobscured : Bool) (calloc : Bool)
    (list : List WinNode) : Bool × List WinNode :=
  match gSlistFindCustom list ⟨win, false⟩ with
  | none => (false, list)
  | some f =>
      let list := gSlistRemoveLink list f
      if calloc = false then (false, list)
      else (true, gSlistAppend list ⟨win, bfobscured⟩)

/-! ### The search -/

/-- The comparator finds equal exactly the nodes of one window: a difference of 32-bit
ids is zero only for equal ids. -/
theorem winComp_eq_zero_iff {a b : WinNode} : winComp a b = 0 ↔ a.win = b.win := by
  rw [winComp, ← BitVec.toInt_zero (w := 32), BitVec.toInt_inj]
  constructor
  · intro h
    have hab : a.win - b.win + b.win = b.win := by rw [h, BitVec.zero_add]
    rwa [BitVec.sub_add_cancel] at hab
  · intro h
    rw [h, BitVec.sub_self]

/-- `g_slist_find_custom` finds the first node of the window. -/
theorem gSlistFindCustom_eq (list : List WinNode) (win : BitVec 32) (o : Bool) :
    gSlistFindCustom list ⟨win, o⟩ = list.findIdx? fun entry => decide (entry.win = win) := by
  simp only [gSlistFindCustom, winComp_eq_zero_iff]

/-- A window exists exactly when one of the nodes is its own. -/
theorem existWin_iff {win : BitVec 32} {list : List WinNode} :
    existWin win list = true ↔ win ∈ list.map WinNode.win := by
  rw [existWin, gSlistFindCustom_eq, List.mem_map]
  cases h : list.findIdx? fun entry => decide (entry.win = win) with
  | none =>
      rw [List.findIdx?_eq_none_iff] at h
      constructor
      · intro hfalse
        exact absurd hfalse (by simp)
      · rintro ⟨e, he, rfl⟩
        simpa using h e he
  | some f =>
      obtain ⟨hf, hwin, -⟩ := List.findIdx?_eq_some_iff_getElem.mp h
      exact ⟨fun _ => ⟨list[f], List.getElem_mem hf, by simpa using hwin⟩, fun _ => rfl⟩

/-- Some window is visible exactly when some node is not marked obscured. -/
theorem checkVisible_iff {list : List WinNode} :
    checkVisible list = true ↔ ∃ e ∈ list, e.bfobscured = false := by
  induction list with
  | nil => simp [checkVisible]
  | cons e rest ih =>
      rw [checkVisible]
      split
      · rename_i h
        exact iff_of_true rfl ⟨e, by simp, h⟩
      · rename_i h
        simp [ih, h]

/-- The empty list has no window. -/
@[simp] theorem existWin_nil (win : BitVec 32) : existWin win [] = false := rfl

/-- The empty list has no visible window. -/
@[simp] theorem checkVisible_nil : checkVisible [] = false := rfl

/-! ### The operations, with the search resolved -/

/-- Removing the link that the search found is dropping the first node of the window. -/
theorem removeLink_of_find {list : List WinNode} {win : BitVec 32} {o : Bool} {f : ℕ}
    (h : gSlistFindCustom list ⟨win, o⟩ = some f) :
    gSlistRemoveLink list f = list.eraseP fun entry => decide (entry.win = win) := by
  rw [gSlistFindCustom_eq] at h
  rw [List.eraseP_eq_eraseIdx, h, gSlistRemoveLink]

/-- A window that is not found is not in the list. -/
theorem existWin_of_find_eq_none {list : List WinNode} {win : BitVec 32} {o : Bool}
    (h : gSlistFindCustom list ⟨win, o⟩ = none) : existWin win list = false := by
  rw [gSlistFindCustom_eq] at h
  rw [existWin, gSlistFindCustom_eq, h]

/-- A window that is found is in the list. -/
theorem existWin_of_find_eq_some {list : List WinNode} {win : BitVec 32} {o : Bool} {f : ℕ}
    (h : gSlistFindCustom list ⟨win, o⟩ = some f) : existWin win list = true := by
  rw [gSlistFindCustom_eq] at h
  rw [existWin, gSlistFindCustom_eq, h]

/-- `__delete_win` drops the first node of the window, if there is one. -/
theorem deleteWin_eq (win : BitVec 32) (list : List WinNode) :
    deleteWin win list =
      if existWin win list = true then
        (true, list.eraseP fun entry => decide (entry.win = win))
      else (false, list) := by
  rw [deleteWin]
  cases h : gSlistFindCustom list ⟨win, false⟩ with
  | none => simp [existWin_of_find_eq_none h]
  | some f => simp [existWin_of_find_eq_some h, removeLink_of_find h]

/-- `__update_win` drops the first node of the window, if there is one, and then appends
the new node, if it could be allocated. -/
theorem updateWin_eq (win : BitVec 32) (o calloc : Bool) (list : List WinNode) :
    updateWin win o calloc list =
      if existWin win list = true then
        let rest := list.eraseP fun entry => decide (entry.win = win)
        if calloc = true then (true, rest ++ [⟨win, o⟩]) else (false, rest)
      else (false, list) := by
  rw [updateWin]
  cases h : gSlistFindCustom list ⟨win, false⟩ with
  | none => simp [existWin_of_find_eq_none h]
  | some f =>
      cases calloc <;>
        simp [existWin_of_find_eq_some h, removeLink_of_find h, gSlistAppend]

/-- `__add_win` appends a new node unless the window is there or the allocation fails. -/
theorem addWin_eq (win : BitVec 32) (calloc : Bool) (list : List WinNode) :
    addWin win calloc list =
      if calloc = true ∧ existWin win list = false then (true, list ++ [⟨win, false⟩])
      else (false, list) := by
  rw [addWin]
  cases calloc with
  | false => simp
  | true =>
      cases h : gSlistFindCustom list ⟨win, false⟩ with
      | none => simp [h, existWin_of_find_eq_none h, gSlistAppend]
      | some f => simp [h, existWin_of_find_eq_some h]

end AppCore
