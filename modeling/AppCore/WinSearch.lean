import AppCore.Lib.RoseTree
import Mathlib.Data.Int.Notation

/-!
# Raising the Window of a Process

`x_raise_win` of `appcore-X.c` looks for a window that carries the pid of a process, from
the root window of the display downwards, and asks the window manager to activate it. The
search `__find_win` returns the window through its argument: each level hands the slot of a
child down and copies the slot up when the child was found.

A `Display` is what the X server answers, and it does not change while the search runs.
Its windows are a finite tree that fits the answers to `XQueryTree`. The depth of the
recursion is bounded by a fuel argument, and the height of the tree is enough.

## Main results

* `findWin_eq`: the search is the first match in the search order.
* `findWin_first`: **the search finds the first window of the process**, with what it
  returns when there is none.
* `xRaiseWin_eq`: which window `x_raise_win` raises.
-/

set_option autoImplicit false

namespace AppCore

/-- An X window. -/
abbrev Window := ℕ

/-- An X atom; 0 is `None`. -/
abbrev Atom := ℕ

/-- `XA_CARDINAL`. -/
def xaCardinal : Atom := 6

/-- The fields of `XWindowAttributes` that are read; the class of a window is `InputOnly`
or `InputOutput`. -/
structure XWindowAttributes where
  overrideRedirect : Bool
  inputOnly : Bool
  deriving DecidableEq, Repr

/-- What `XGetWindowProperty` returns: the type, the format and the `unsigned long` at
`prop_ret`. -/
structure XProperty where
  type : Atom
  format : ℤ
  value : ℕ
  deriving DecidableEq, Repr

/-- What the X server answers. A call that fails has no answer, and neither has
`XGetWindowProperty` when it leaves `prop_ret` NULL. -/
structure Display where
  rootWindow : Window
  windowAttributes : Window → Option XWindowAttributes
  windowProperty : Window → Atom → Option XProperty
  queryTree : Window → Option (List Window)

namespace Display

variable (d : Display) (aPid : Atom) (pid : ℤ)

/-- `__get_win_pid`. A `pid_t` is a 32-bit `int`. -/
def getWinPid (win : Window) : ℤ :=
  if aPid = 0 then -1
  else
    match d.windowAttributes win with
    | none => -1
    | some attr =>
        if attr.overrideRedirect = true ∨ attr.inputOnly = true then -1
        else
          match d.windowProperty win aPid with
          | none => -1
          | some prop =>
              if prop.type = xaCardinal ∧ prop.format = 32 then
                (BitVec.ofNat 32 prop.value).toInt
              else -1

/-- The loop of `__find_win` over the array `child`, where `find` is the recursive call; the
slot that it has written is copied to `*win` when the window was found. -/
def findChild (find : Window → Option (ℤ × Window)) (win : Window) :
    List Window → Option (ℤ × Window)
  | [] => some (0, win)
  | slot :: rest =>
      match find slot with
      | none => none
      | some (found, slot) => if found ≠ 0 then some (found, slot) else findChild find win rest

/-- `__find_win`: the result, and `*win` afterwards. No result means that the fuel was used
up. -/
def findWin : ℕ → Window → Option (ℤ × Window)
  | 0, _ => none
  | fuel + 1, win =>
      if d.getWinPid aPid win = pid then some (1, win)
      else
        match d.queryTree win with
        | none => some (0, win)
        | some child =>
            match findChild (findWin fuel) win child with
            | none => none
            | some (found, win) => if found ≠ 0 then some (1, win) else some (0, win)

/-! ### The search -/

/-- The window carries the pid. -/
def hasPid (win : Window) : Bool :=
  decide (d.getWinPid aPid win = pid)

/-- What a search from `win` returns when the first match is `first`. -/
def outcome (win : Window) (first : Option Window) : ℤ × Window :=
  match first with
  | none => (0, win)
  | some w => (1, w)

variable {d aPid pid}

/-- A window carries the pid if `__get_win_pid` finds it there. -/
theorem hasPid_iff {win : Window} :
    d.hasPid aPid pid win = true ↔ d.getWinPid aPid win = pid :=
  decide_eq_true_iff

/-- The loop searches the trees below one after the other, if the recursive call searches
each of them. -/
theorem findChild_eq {find : Window → Option (ℤ × Window)} (win : Window)
    {ts : List (RoseTree Window)}
    (hfind : ∀ t ∈ ts, find t.root =
      some (outcome t.root ((t.preorder d.queryTree).find? (d.hasPid aPid pid)))) :
    findChild find win (ts.map RoseTree.root) =
      some (outcome win
        ((RoseTree.preorders d.queryTree ts).find? (d.hasPid aPid pid))) := by
  induction ts with
  | nil => rfl
  | cons t ts ih =>
      obtain ⟨ht, hts⟩ := List.forall_mem_cons.mp hfind
      rw [List.map_cons, findChild, ht, RoseTree.preorders, List.find?_append]
      cases (t.preorder d.queryTree).find? (d.hasPid aPid pid) with
      | none =>
          rw [Option.none_or]
          exact ih hts
      | some w => rfl

/-- **The search is the first match in the search order**, and a fuel of the height of the
tree is enough for it. -/
theorem findWin_eq {t : RoseTree Window} (ht : t.Fits d.queryTree) {fuel : ℕ}
    (hfuel : t.height ≤ fuel) :
    d.findWin aPid pid fuel t.root =
      some (outcome t.root ((t.preorder d.queryTree).find? (d.hasPid aPid pid))) := by
  induction t using RoseTree.ind generalizing fuel with
  | node a ts ih =>
      obtain ⟨hanswer, hts⟩ := ht
      have hroot : 0 < (RoseTree.node a ts).height := by
        rw [RoseTree.height]
        exact Nat.succ_pos _
      obtain ⟨fuel, rfl⟩ := Nat.exists_eq_add_one_of_ne_zero (show fuel ≠ 0 by omega)
      have hfind : ∀ t ∈ ts, d.findWin aPid pid fuel t.root =
          some (outcome t.root ((t.preorder d.queryTree).find? (d.hasPid aPid pid))) := by
        intro t ht
        have hlt := RoseTree.height_lt (a := a) ht
        exact ih t ht (hts t ht) (by omega)
      rw [RoseTree.root_node, findWin, RoseTree.preorder]
      by_cases hpid : d.getWinPid aPid a = pid
      · rw [if_pos hpid, List.find?_cons_of_pos (hasPid_iff.mpr hpid)]
        rfl
      · rw [if_neg hpid, List.find?_cons_of_neg fun h => hpid (hasPid_iff.mp h)]
        cases hquery : d.queryTree a with
        | none => rfl
        | some child =>
            rw [hanswer child hquery, Option.isSome_some, if_pos rfl]
            dsimp only
            rw [findChild_eq a hfind]
            cases (RoseTree.preorders d.queryTree ts).find? (d.hasPid aPid pid) with
            | none => rfl
            | some w => rfl

/-- **The search finds the first window of the process.** On every finite tree of windows
and whichever windows answer: it returns 1 exactly when a window that is reached by answers
carries the pid, `*win` is then the first of these in the search order, and otherwise it
returns 0 and leaves `*win` alone. -/
theorem findWin_first {t : RoseTree Window} (ht : t.Fits d.queryTree) {fuel : ℕ}
    (hfuel : t.height ≤ fuel) :
    ∃ r win, d.findWin aPid pid fuel t.root = some (r, win) ∧
      (r = 1 ↔ ∃ w, RoseTree.Reaches d.queryTree t.root w ∧ d.getWinPid aPid w = pid) ∧
      (r = 1 → (t.preorder d.queryTree).find? (d.hasPid aPid pid) = some win) ∧
      (r ≠ 1 → r = 0 ∧ win = t.root) := by
  have hfound : (∃ w, RoseTree.Reaches d.queryTree t.root w ∧ d.getWinPid aPid w = pid) ↔
      ((t.preorder d.queryTree).find? (d.hasPid aPid pid)).isSome = true := by
    simp only [List.find?_isSome, ht.mem_preorder_iff, hasPid_iff]
  rw [hfound, findWin_eq ht hfuel]
  cases (t.preorder d.queryTree).find? (d.hasPid aPid pid) with
  | none => exact ⟨0, t.root, rfl, by simp, by simp, fun _ => ⟨rfl, rfl⟩⟩
  | some w => exact ⟨1, w, rfl, by simp, fun _ => rfl, fun h => absurd rfl h⟩

end Display

/-- A display with five windows below the root window 1. The windows 4 and 6 carry the pid
77, and window 2, the parent of 4, does not answer. -/
def silentDisplay : Display where
  rootWindow := 1
  windowAttributes := fun _ => some ⟨false, false⟩
  windowProperty := fun win _ => if win = 4 ∨ win = 6 then some ⟨xaCardinal, 32, 77⟩ else none
  queryTree := fun win =>
    match win with
    | 1 => some [2, 3]
    | 2 => none
    | 3 => some [5, 6]
    | _ => some []

/-- The windows of `silentDisplay`. -/
def silentTree : RoseTree Window :=
  .node 1 [.node 2 [.node 4 []], .node 3 [.node 5 [], .node 6 []]]

/-- The tree is that of the display. -/
theorem fits_silentTree : silentTree.Fits silentDisplay.queryTree := by
  have hleaf : ∀ w, silentDisplay.queryTree w = some [] →
      (RoseTree.node w []).Fits silentDisplay.queryTree := by
    intro w hw
    refine .node (fun bs hbs => ?_) (by simp)
    exact Option.some.inj (hbs.symm.trans hw)
  refine .node (fun bs hbs => (Option.some.inj hbs).symm) ?_
  rw [List.forall_mem_cons, List.forall_mem_singleton]
  constructor
  · refine .node (fun bs hbs => by simp [silentDisplay] at hbs) ?_
    rw [List.forall_mem_singleton]
    exact hleaf 4 rfl
  · refine .node (fun bs hbs => (Option.some.inj hbs).symm) ?_
    rw [List.forall_mem_cons, List.forall_mem_singleton]
    exact ⟨hleaf 5 rfl, hleaf 6 rfl⟩

/-- The window behind the silent one is not reached, and the search finds the other. -/
theorem Display.findWin_first_silentDisplay :
    silentDisplay.findWin 9 77 3 1 = some (1, 6) ∧
      ∃ w, RoseTree.Reaches silentDisplay.queryTree 1 w ∧ silentDisplay.getWinPid 9 w = 77 := by
  obtain ⟨r, win, hrun, hr, -, -⟩ :=
    @findWin_first silentDisplay 9 77 silentTree fits_silentTree 3 (by decide)
  have hresult : silentDisplay.findWin 9 77 3 1 = some (1, 6) := by decide
  obtain ⟨rfl, rfl⟩ := Prod.mk.inj (Option.some.inj (hrun.symm.trans hresult))
  exact ⟨hresult, hr.mp rfl⟩

/-! ### `x_raise_win` -/

/-- The answers to the calls of `x_raise_win`; `_NET_WM_PID` is `None` if the server does not
know the atom. -/
structure RaiseAnswers where
  kill : ℤ
  openDisplay : Option Display
  netWmPid : Atom

/-- `x_raise_win`: the result, the static `a_pid` afterwards, and the window that the message
of `__raise_win` asks to activate. -/
def xRaiseWin (fuel : ℕ) (pid : ℤ) (a : RaiseAnswers) (aPid : Atom) :
    Option (ℤ × Atom × Option Window) :=
  if pid < 1 then some (-1, aPid, none)
  else if a.kill = -1 then some (-1, aPid, none)
  else
    match a.openDisplay with
    | none => some (-1, aPid, none)
    | some d =>
        let aPid := if aPid = 0 then a.netWmPid else aPid
        match d.findWin aPid pid fuel d.rootWindow with
        | none => none
        | some (found, win) =>
            if found = 0 then some (-1, aPid, none) else some (0, aPid, some win)

/-- **`x_raise_win` raises the first window of a running process**, and fails when the
process has none. -/
theorem xRaiseWin_eq {pid : ℤ} (hpid : 1 ≤ pid) {a : RaiseAnswers} (hkill : a.kill ≠ -1)
    {d : Display} (hopen : a.openDisplay = some d) {t : RoseTree Window}
    (ht : t.Fits d.queryTree) (hroot : t.root = d.rootWindow) {fuel : ℕ}
    (hfuel : t.height ≤ fuel) (aPid : Atom) :
    let atom := if aPid = 0 then a.netWmPid else aPid
    let first := (t.preorder d.queryTree).find? (d.hasPid atom pid)
    xRaiseWin fuel pid a aPid = some (if first.isSome = true then 0 else -1, atom, first) := by
  have hvalid : ¬ pid < 1 := by omega
  rw [xRaiseWin, if_neg hvalid, if_neg hkill, hopen]
  dsimp only
  generalize (if aPid = 0 then a.netWmPid else aPid) = atom
  rw [← hroot, Display.findWin_eq ht hfuel]
  cases (t.preorder d.queryTree).find? (d.hasPid atom pid) with
  | none => rfl
  | some w => rfl

end AppCore
