import AppCore.Lib.Keyed
import AppCore.MainCall

/-!
# The Windows as a Map

What the window list is for: it says of every window of the application whether it was
last reported as obscured. `WinMap` is that map, with a step for each window event; the
list of `appcore-efl.c`, which drops and appends nodes, represents it.

## Main results

* `Represents.step`: the window list represents the map after every event.
* `winList_refines`: **the window list refines the map**, for every run of the loop.
-/

set_option autoImplicit false

namespace AppCore

/-- The last reported obscured flag of each window of the application. -/
abbrev WinMap := BitVec 32 → Option Bool

namespace WinMap

/-- What a window event does to the map; `ret` is 1 for a top-level window. -/
def step (m : WinMap) (e : Event) : WinMap :=
  match e with
  | .show win ret => if ret = 1 then Function.update m win (some false) else m
  | .hide win => Function.update m win none
  | .visibilityChange win fullyObscured =>
      if m win = none then m else Function.update m win (some fullyObscured)
  | _ => m

end WinMap

/-- The map that a window list stands for. -/
def winMap (list : List WinNode) : WinMap :=
  fun win => (Keyed.lookup WinNode.win list win).map WinNode.bfobscured

/-- The list has a node for each window of the map, and no other, with its flag. -/
structure Represents (list : List WinNode) (m : WinMap) : Prop where
  unique : Keyed.Unique WinNode.win list
  map_eq : winMap list = m

/-! ### The queries -/

/-- A window is in the list if the map has it. -/
theorem existWin_iff_winMap {win : BitVec 32} {list : List WinNode} :
    existWin win list = true ↔ winMap list win ≠ none := by
  rw [existWin_iff, ← Keyed.lookup_ne_none, winMap, Ne, Ne, Option.map_eq_none_iff]

/-- `__check_visible` asks for a window that the map does not report as obscured. -/
theorem checkVisible_iff_winMap {list : List WinNode}
    (h : Keyed.Unique WinNode.win list) :
    checkVisible list = true ↔ ∃ win, winMap list win = some false := by
  rw [checkVisible_iff]
  constructor
  · rintro ⟨e, he, hvisible⟩
    refine ⟨e.win, ?_⟩
    rw [winMap, (Keyed.mem_iff_lookup h).mp he, Option.map_some, hvisible]
  · rintro ⟨win, hwin⟩
    obtain ⟨e, he, hvisible⟩ := Option.map_eq_some_iff.mp hwin
    exact ⟨e, (Keyed.of_lookup_eq_some he).1, hvisible⟩

/-! ### The operations -/

/-- Erasing a node removes its window from the map. -/
theorem winMap_erase {list : List WinNode} (h : Keyed.Unique WinNode.win list)
    (win : BitVec 32) :
    winMap (Keyed.erase WinNode.win win list) = Function.update (winMap list) win none := by
  funext w
  rw [winMap, Keyed.lookup_erase h, Function.update_apply]
  split
  · rfl
  · rfl

/-- A node for a new window adds it to the map. -/
theorem winMap_append {list : List WinNode} {e : WinNode}
    (he : Keyed.lookup WinNode.win list e.win = none) :
    winMap (list ++ [e]) = Function.update (winMap list) e.win (some e.bfobscured) := by
  funext w
  rw [winMap, Keyed.lookup_append he, Function.update_apply]
  split
  · rfl
  · rfl

variable {list : List WinNode} {m : WinMap} (h : Represents list m) (win : BitVec 32)
include h

/-- A window has no node if the map does not have it. -/
theorem Represents.lookup_eq_none :
    Keyed.lookup WinNode.win list win = none ↔ m win = none := by
  rw [← h.map_eq, winMap, Option.map_eq_none_iff]

/-- `__exist_win` asks the map for the window. -/
theorem Represents.existWin : existWin win list = true ↔ m win ≠ none := by
  rw [existWin_iff_winMap, h.map_eq]

/-- `__exist_win` says no if the map does not have the window. -/
theorem Represents.not_existWin : AppCore.existWin win list = false ↔ m win = none := by
  rw [← Bool.not_eq_true, h.existWin, not_not]

/-- `__check_visible` asks the map for a window that is not obscured. -/
theorem Represents.checkVisible :
    checkVisible list = true ↔ ∃ win, m win = some false := by
  rw [checkVisible_iff_winMap h.unique, h.map_eq]

/-- `__delete_win` removes the window. -/
theorem Represents.deleteWin :
    Represents (deleteWin win list).2 (Function.update m win none) := by
  rw [deleteWin_eq]
  split
  · exact ⟨h.unique.erase win, by rw [← h.map_eq]; exact winMap_erase h.unique win⟩
  · rename_i hnot
    have hnone : m win = none := (h.not_existWin win).mp (Bool.eq_false_of_not_eq_true hnot)
    rw [← hnone, Function.update_eq_self]
    exact h

/-- `__add_win` adds a new window, as visible. -/
theorem Represents.addWin (hnew : m win = none) :
    Represents (addWin win true list).2 (Function.update m win (some false)) := by
  have hexist : AppCore.existWin win list = false := (h.not_existWin win).mpr hnew
  have hlookup := (h.lookup_eq_none win).mpr hnew
  rw [addWin_eq, if_pos ⟨rfl, hexist⟩]
  refine ⟨h.unique.append hlookup, ?_⟩
  rw [← h.map_eq]
  exact winMap_append hlookup

/-- `__update_win` sets the flag of a known window. -/
theorem Represents.updateWin (o : Bool) (hknown : m win ≠ none) :
    Represents (updateWin win o true list).2 (Function.update m win (some o)) := by
  have hexist : AppCore.existWin win list = true := (h.existWin win).mpr hknown
  have hrest : Represents (Keyed.erase WinNode.win win list) (Function.update m win none) :=
    ⟨h.unique.erase win, by rw [← h.map_eq]; exact winMap_erase h.unique win⟩
  have hlookup := (hrest.lookup_eq_none win).mpr (Function.update_self ..)
  have happend : Represents (Keyed.erase WinNode.win win list ++ [⟨win, o⟩])
      (Function.update (Function.update m win none) win (some o)) :=
    ⟨hrest.unique.append hlookup, by rw [← hrest.map_eq]; exact winMap_append hlookup⟩
  rw [Function.update_idem] at happend
  rw [updateWin_eq, if_pos hexist]
  exact happend

/-- An update of a window that the map does not have changes nothing. -/
theorem Represents.updateWin_unknown (o : Bool) (hunknown : m win = none) :
    Represents (AppCore.updateWin win o true list).2 m := by
  have hexist : AppCore.existWin win list = false := (h.not_existWin win).mpr hunknown
  rw [updateWin_eq, if_neg (by simp [hexist])]
  exact h

omit h

/-! ### The loop -/

namespace Life

variable (win : BitVec 32) (l : Life)

/-- A show event lists a new top-level window, or marks a known one as visible. -/
theorem showWin_wins (ret : ℤ) (calloc : Bool) :
    (l.showWin win ret calloc).wins =
      if ret ≠ 1 then l.wins
      else if existWin win l.wins = false then (addWin win calloc l.wins).2
      else (updateWin win false calloc l.wins).2 := by
  rw [showWin]
  split
  · rfl
  · split
    · rfl
    · rfl

/-- The way to the background does not touch the windows. -/
theorem hide_wins : (l.hide win).wins = (deleteWin win l.wins).2 := by
  rw [hide]
  split
  · dsimp only
    split
    · exact switch_wins
    · rfl
  · rename_i hnot
    rw [deleteWin_eq, if_neg hnot]

/-- A visibility change updates its window. -/
theorem visibilityChange_wins (o calloc : Bool) :
    (l.visibilityChange win o calloc).wins = (updateWin win o calloc l.wins).2 := by
  rw [visibilityChange]
  dsimp only
  split
  · exact switch_wins
  · split
    · exact switch_wins
    · rfl

end Life

namespace Process

/-- **One event**: the window list represents what the event does to the map. -/
theorem represents_step {p : Process} {m : WinMap} (h : Represents p.gWinnodeList m)
    {x : Event × Answers} (hx : x.2.calloc = true) :
    Represents (p.step x).gWinnodeList (m.step x.1) := by
  have hlife : (p.step x).gWinnodeList = (p.life.step x).wins :=
    congrArg Life.wins (life_step p x)
  obtain ⟨e, a⟩ := x
  have hcalloc : a.calloc = true := hx
  rw [hlife]
  cases e with
  | «show» win ret =>
      rw [Life.step, Life.showWin_wins, life_wins, hcalloc, WinMap.step]
      by_cases hret : ret = 1
      · rw [if_neg (not_not.mpr hret), if_pos hret]
        by_cases hnew : m win = none
        · rw [if_pos ((h.not_existWin win).mpr hnew)]
          exact h.addWin win hnew
        · rw [if_neg (by simp [(h.existWin win).mpr hnew])]
          exact h.updateWin win false hnew
      · rw [if_pos hret, if_neg hret]
        exact h
  | hide win =>
      rw [Life.step, Life.hide_wins]
      exact h.deleteWin win
  | visibilityChange win o =>
      rw [Life.step, Life.visibilityChange_wins, hcalloc, WinMap.step]
      split
      · rename_i hunknown
        exact h.updateWin_unknown win o hunknown
      · rename_i hknown
        exact h.updateWin win o hknown
  | reset b =>
      rw [Life.step, Life.reset_wins]
      exact h
  | terminate => exact h
  | lowmemPost => exact h
  | memFlush => exact h
  | timer h' => exact h
  | api c => exact h

/-- **The window list refines the map.** From the empty list, with allocations that
succeed: no window occurs twice, the list stands for the map that the events lead to, and
the two queries answer from that map. -/
theorem winList_refines {p : Process} (hp : p.gWinnodeList = [])
    {es : List (Event × Answers)} (hes : ∀ x ∈ es, x.2.calloc = true) :
    let list := (Machine.run step p es).gWinnodeList
    let m := Machine.run WinMap.step (fun _ => none) (es.map Prod.fst)
    (list.map WinNode.win).Nodup ∧ winMap list = m ∧
      (∀ win, existWin win list = true ↔ m win ≠ none) ∧
      (checkVisible list = true ↔ ∃ win, m win = some false) := by
  have hp' : Represents p.gWinnodeList fun _ => none := by
    rw [hp]
    exact ⟨Keyed.unique_nil, rfl⟩
  have hG : Machine.AtEach step (fun _ x => x.2.calloc = true) p es :=
    Machine.atEach_of_forall hes
  have h := hG.run_rel WinMap.step Prod.fst (R := fun q m => Represents q.gWinnodeList m)
    (fun _ _ x hr hx => represents_step (x := x) hr hx) hp'
  exact ⟨h.unique, h.map_eq, h.existWin, h.checkVisible⟩

/-- Two windows show, and the first one is covered. -/
def coveredWindow : List (Event × Answers) :=
  [(.show 1 1, goodAnswers), (.show 2 1, goodAnswers),
   (.visibilityChange 1 true, goodAnswers)]

/-- The node that was updated has moved to the end of the list, and the map has not
changed otherwise. -/
theorem winList_refines_coveredWindow :
    let list := (Machine.run step plain coveredWindow).gWinnodeList
    let m := Machine.run WinMap.step (fun _ => none) (coveredWindow.map Prod.fst)
    list = [⟨2, false⟩, ⟨1, true⟩] ∧ (list.map WinNode.win).Nodup ∧ winMap list = m ∧
      (∀ win, existWin win list = true ↔ m win ≠ none) ∧
      (checkVisible list = true ↔ ∃ win, m win = some false) :=
  ⟨by decide, winList_refines rfl (by simp [coveredWindow, goodAnswers])⟩

end Process

end AppCore
