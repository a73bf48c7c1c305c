import AppCore.Foreground
import AppCore.Lib.Pointwise
import AppCore.LifeState
import AppCore.WinMap

/-!
# The Order of Window Events

The X server keeps the events of one window in order, those of different windows reach the
loop as they come. What is known about the windows does not depend on how they are
interleaved, and if the last event is a visibility change, neither does whether the
application ends up in the foreground. The last condition is needed: a window that shows
does not bring an application back, so it matters whether it shows before or after the
others are covered.

## Main results

* `WinMap.pointwise`: the map of windows is a family of machines, one for each window.
* `window_order`: **the interleaving of the windows does not matter** for the windows, for
  `b_active` and for `ui->state`.
-/

set_option autoImplicit false

namespace AppCore

/-- The window that an X event is about. -/
def Event.win : Event → Option (BitVec 32)
  | .show win _ => some win
  | .hide win => some win
  | .visibilityChange win _ => some win
  | _ => none

namespace WinMap

/-- What an event makes of the entry of its window. -/
def entry : Event → Option Bool → Option Bool
  | .show _ ret, b => if ret = 1 then some false else b
  | .hide _, _ => none
  | .visibilityChange _ fullyObscured, b => b.map fun _ => fullyObscured
  | _, b => b

/-- **The windows do not interfere.** -/
theorem pointwise : Machine.Pointwise step Event.win entry := by
  intro m e win
  cases e with
  | «show» w ret =>
      rw [step, Event.win, entry]
      by_cases hret : ret = 1 <;> simp [hret, Function.update_apply, eq_comm]
  | hide w => simp [step, Event.win, entry, Function.update_apply, eq_comm]
  | visibilityChange w o =>
      by_cases hw : w = win
      · subst hw
        cases hm : m w <;> simp [step, Event.win, entry, hm]
      · have hne : win ≠ w := Ne.symm hw
        by_cases hm : m w = none <;> simp [step, Event.win, hm, hw, Function.update_of_ne hne]
  | reset b => rfl
  | terminate => rfl
  | lowmemPost => rfl
  | memFlush => rfl
  | timer h => rfl
  | api c => rfl

end WinMap

namespace Life

/-- The application was reset and not held back: it runs exactly while it is active. -/
def InStep (l : Life) : Prop :=
  l.ops ≠ none ∧ l.Settled (some .reset) False

/-- An event without a command keeps the two in step. -/
theorem InStep.step {l : Life} (h : l.InStep) {x : Event × Answers} (hx : x.1.command = none) :
    (l.step x).InStep := by
  obtain ⟨hops, hsettled⟩ := h
  refine ⟨(Process.ops_step l x).symm ▸ hops, ?_⟩
  obtain ⟨ops, hops⟩ := Option.ne_none_iff_exists'.mp hops
  have hstep := l.step_spec x
  generalize x.1 = e at hstep hx
  generalize l.step x = l' at hstep
  cases hstep with
  | reset b => cases hx
  | terminate => cases hx
  | background he hvisible hactive => exact hsettled.background hops hactive _
  | foreground hvisible hactive => exact hsettled.foreground hops _
  | windows => exact hsettled

/-- Events without a command keep the two in step. -/
theorem InStep.run {l : Life} (h : l.InStep) {es : List (Event × Answers)}
    (hes : ∀ x ∈ es, x.1.command = none) : (Machine.run Life.step l es).InStep :=
  Machine.AtEach.run_invariant (I := InStep) (G := fun _ x => x.1.command = none)
    (fun _ _ hl hx => hl.step hx) h (Machine.atEach_of_forall hes)

/-- In step, `b_active` tells the state. -/
theorem InStep.state_eq {l : Life} (h : l.InStep) :
    l.state = if l.bActive = true then .running else .paused := by
  rcases h.2 with ⟨hstate, hactive | hheld⟩ | ⟨hstate, hactive, -⟩
  · simp [hstate, hactive]
  · exact hheld.elim
  · simp [hstate, hactive]

end Life

namespace Process

/-- The last event is a visibility change. -/
def EndsInVisibility (es : List (Event × Answers)) : Prop :=
  ∃ pre win o a, es = pre ++ [(.visibilityChange win o, a)]

/-- After a visibility change `b_active` says whether a window is visible. -/
theorem bActive_of_endsInVisibility {es : List (Event × Answers)} (h : EndsInVisibility es)
    (p : Process) :
    (Machine.run step p es).bActive = checkVisible (Machine.run step p es).gWinnodeList := by
  obtain ⟨pre, win, o, a, rfl⟩ := h
  rw [Machine.run_snoc]
  have hactive := Life.bActive_visibilityChange (Machine.run step p pre).life win o a
  rwa [← life_step] at hactive

/-- The list represents what the events lead to, from any list without a window twice. -/
theorem represents_run {p : Process} (hunique : (p.gWinnodeList.map WinNode.win).Nodup)
    {es : List (Event × Answers)} (hes : ∀ x ∈ es, x.2.calloc = true) :
    Represents (Machine.run step p es).gWinnodeList
      (Machine.run WinMap.step (winMap p.gWinnodeList) (es.map Prod.fst)) := by
  have hG : Machine.AtEach step (fun _ x => x.2.calloc = true) p es :=
    Machine.atEach_of_forall hes
  have hstart : Represents p.gWinnodeList (winMap p.gWinnodeList) := ⟨hunique, rfl⟩
  exact hG.run_rel WinMap.step Prod.fst (R := fun q m => Represents q.gWinnodeList m)
    (fun _ _ x hr hx => represents_step (x := x) hr hx) hstart

/-- **The interleaving of the windows does not matter.** Let two lists of events have the
same events for each window, in the same order. From any state with a window list without a
window twice, and with allocations that succeed, they lead to the same windows, visible and
covered. If the last event of both is a visibility change, they lead to the same `b_active`,
and, if the application ran exactly while it was active and no command comes in between, to
the same state. -/
theorem window_order {p : Process} (hunique : (p.gWinnodeList.map WinNode.win).Nodup)
    {es es' : List (Event × Answers)} (hes : ∀ x ∈ es, x.2.calloc = true)
    (hes' : ∀ x ∈ es', x.2.calloc = true)
    (hwin : ∀ win, ((es.map Prod.fst).filter fun e => decide (e.win = some win)) =
      (es'.map Prod.fst).filter fun e => decide (e.win = some win)) :
    let q := Machine.run step p es
    let q' := Machine.run step p es'
    winMap q.gWinnodeList = winMap q'.gWinnodeList ∧
      (EndsInVisibility es → EndsInVisibility es' → q.bActive = q'.bActive ∧
        (p.life.InStep → (∀ x ∈ es ++ es', x.1.command = none) →
          q.priv.state = q'.priv.state)) := by
  intro q q'
  have hmap := represents_run hunique hes
  have hmap' := represents_run hunique hes'
  have hsame := WinMap.pointwise.run_congr (winMap p.gWinnodeList) hwin
  refine ⟨by rw [hmap.map_eq, hmap'.map_eq, hsame], fun hlast hlast' => ?_⟩
  have hactive : q.bActive = q'.bActive := by
    have hvisible : checkVisible q.gWinnodeList = true ↔ checkVisible q'.gWinnodeList = true := by
      rw [hmap.checkVisible, hmap'.checkVisible, hsame]
    rw [bActive_of_endsInVisibility hlast, bActive_of_endsInVisibility hlast']
    exact Bool.eq_iff_iff.mpr hvisible
  refine ⟨hactive, fun hstep hcommand => ?_⟩
  have hq : q.life.InStep := by
    rw [life_run]
    exact hstep.run fun x hx => hcommand x (by simp [hx])
  have hq' : q'.life.InStep := by
    rw [life_run]
    exact hstep.run fun x hx => hcommand x (by simp [hx])
  calc q.priv.state = if q.bActive = true then .running else .paused := hq.state_eq
    _ = if q'.bActive = true then .running else .paused := by rw [hactive]
    _ = q'.priv.state := hq'.state_eq.symm

/-- Two windows show and are covered, one after the other, -/
def oneByOne : List (Event × Answers) :=
  [(.show 1 1, goodAnswers), (.visibilityChange 1 true, goodAnswers), (.show 2 1, goodAnswers),
   (.visibilityChange 2 true, goodAnswers)]

/-- or both show before they are covered. -/
def bothFirst : List (Event × Answers) :=
  [(.show 2 1, goodAnswers), (.show 1 1, goodAnswers), (.visibilityChange 2 true, goodAnswers),
   (.visibilityChange 1 true, goodAnswers)]

/-- An application that was launched and has no windows yet. -/
def launched : Process :=
  { plain with priv.state := .running, priv.ops := some fullOps }

/-- Two windows shown and covered one by one, or both shown first: the end is the same. -/
theorem window_order_oneByOne :
    let q := Machine.run step launched oneByOne
    let q' := Machine.run step launched bothFirst
    winMap q.gWinnodeList = winMap q'.gWinnodeList ∧ q.bActive = q'.bActive ∧
      q.priv.state = q'.priv.state := by
  have hother {win : BitVec 32} (h₁ : win ≠ 1) (h₂ : win ≠ 2) {es : List Event}
      (hes : ∀ e ∈ es, e.win = some 1 ∨ e.win = some 2) :
      (es.filter fun e => decide (e.win = some win)) = [] := by
    refine List.filter_eq_nil_iff.mpr fun e he => ?_
    rcases hes e he with h | h
    · simpa [h] using Ne.symm h₁
    · simpa [h] using Ne.symm h₂
  have hwin (win : BitVec 32) :
      ((oneByOne.map Prod.fst).filter fun e => decide (e.win = some win)) =
        (bothFirst.map Prod.fst).filter fun e => decide (e.win = some win) := by
    by_cases h₁ : win = 1
    · subst h₁
      rfl
    · by_cases h₂ : win = 2
      · subst h₂
        rfl
      · rw [hother h₁ h₂ (by simp [oneByOne, Event.win]),
          hother h₁ h₂ (by simp [bothFirst, Event.win])]
  have hstep : launched.life.InStep := ⟨by simp [launched, life], .inl ⟨rfl, .inl rfl⟩⟩
  have hcommand : ∀ x ∈ oneByOne ++ bothFirst, x.1.command = none := by
    simp [oneByOne, bothFirst, Event.command]
  obtain ⟨hmap, hrest⟩ := window_order (p := launched) List.nodup_nil
    (by simp [oneByOne, goodAnswers]) (by simp [bothFirst, goodAnswers]) hwin
  obtain ⟨hactive, hstate⟩ :=
    hrest ⟨oneByOne.take 3, 2, true, _, rfl⟩ ⟨bothFirst.take 3, 1, true, _, rfl⟩
  exact ⟨hmap, hactive, hstate hstep hcommand⟩

/-- A window that shows last does not bring the application back. -/
example :
    (Machine.run step launched (oneByOne.take 3)).priv.state = .paused ∧
      (Machine.run step launched [(.show 2 1, goodAnswers), (.show 1 1, goodAnswers),
        (.visibilityChange 1 true, goodAnswers)]).priv.state = .running :=
  ⟨rfl, rfl⟩

end Process

end AppCore
