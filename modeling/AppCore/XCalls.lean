import AppCore.Lib.Resources
import AppCore.Resume

/-!
# The Calls to the X Library

The functions of `appcore-X.c` with the calls to Xlib that they make, in their order. Xlib
hands out memory with a property and with the children of a window, and a connection with
`XOpenDisplay`; the caller gives them back with `XFree` and `XCloseDisplay`. What the
functions return is what the functions without the calls return.

## Main results

* `findWinCalls_result`: **the search with its calls is the search.**
* `findWin_rule`: what holds of the calls for one window holds of those of the search.
* `balanced_findWin`: **the search frees what it was given**, on every path.
* `asks_findWin`: which windows the search asks, and for what.
* `search_asks`: **how far the search goes** for a request.
* `released_system`: **what is acquired is released**, in every run of the system.
-/

set_option autoImplicit false

namespace AppCore

/-- What Xlib hands out: the connection, the property of a window, its children. -/
inductive XResource
  | display
  | property (win : Window)
  | child (win : Window)
  deriving DecidableEq, Repr

/-- A call to Xlib. For those that may hand out memory, whether they did. -/
inductive XCall
  | xOpenDisplay (opened : Bool)
  | xCloseDisplay
  | xInternAtom (name : String) (onlyIfExists : Bool)
  | xGetWindowAttributes (win : Window)
  | xGetWindowProperty (win : Window) (propRet : Bool)
  | xQueryTree (win : Window) (child : Bool)
  | xFree (m : XResource)
  | xSendEvent (root : Window) (xev : XClientMessage)
  deriving DecidableEq, Repr

/-- What a call acquires or releases. A list of no children counts as handed out, as it is
freed like any other. -/
def XCall.effect : XCall → Resources.Effect XResource
  | .xOpenDisplay true => .acquires .display
  | .xCloseDisplay => .releases .display
  | .xGetWindowProperty win true => .acquires (.property win)
  | .xQueryTree win true => .acquires (.child win)
  | .xFree m => .releases m
  | _ => .none

/-- The window that is asked for its pid. -/
def XCall.asksPid : XCall → Option Window
  | .xGetWindowAttributes win => some win
  | _ => none

/-- The window that is asked for its children. -/
def XCall.asksChildren : XCall → Option Window
  | .xQueryTree win _ => some win
  | _ => none

/-- The message that a call sends. -/
def XCall.sends : XCall → Option Report
  | .xSendEvent root xev => some (.xSendEvent root xev)
  | _ => none

/-- The entry of the log is a message. -/
def Report.sent : Report → Option Report
  | .xSendEvent root xev => some (.xSendEvent root xev)
  | _ => none

namespace Display

variable (d : Display) (aPid : Atom) (pid : ℤ)

/-- `__get_win_pid`, with its calls. -/
def getWinPidCalls (win : Window) : ℤ × List XCall :=
  if aPid = 0 then (-1, [])
  else
    match d.windowAttributes win with
    | none => (-1, [.xGetWindowAttributes win])
    | some attr =>
        if attr.overrideRedirect = true ∨ attr.inputOnly = true then
          (-1, [.xGetWindowAttributes win])
        else
          match d.windowProperty win aPid with
          | none => (-1, [.xGetWindowAttributes win, .xGetWindowProperty win false])
          | some prop =>
              let pid :=
                if prop.type = xaCardinal ∧ prop.format = 32 then
                  (BitVec.ofNat 32 prop.value).toInt
                else -1
              (pid, [.xGetWindowAttributes win, .xGetWindowProperty win true,
                .xFree (.property win)])

/-- The loop of `__find_win` over the array `child`, with the calls of its rounds. -/
def findChildCalls (find : Window → Option (ℤ × Window × List XCall)) (win : Window) :
    List Window → Option (ℤ × Window × List XCall)
  | [] => some (0, win, [])
  | slot :: rest =>
      match find slot with
      | none => none
      | some (found, slot, calls) =>
          if found ≠ 0 then some (found, slot, calls)
          else (findChildCalls find win rest).map fun r => (r.1, r.2.1, calls ++ r.2.2)

/-- `__find_win`, with its calls. -/
def findWinCalls : ℕ → Window → Option (ℤ × Window × List XCall)
  | 0, _ => none
  | fuel + 1, win =>
      let p := d.getWinPidCalls aPid win
      if p.1 = pid then some (1, win, p.2)
      else
        match d.queryTree win with
        | none => some (0, win, p.2 ++ [.xQueryTree win false])
        | some child =>
            match findChildCalls (findWinCalls fuel) win child with
            | none => none
            | some (found, slot, calls) =>
                let calls := p.2 ++ .xQueryTree win true :: (calls ++ [.xFree (.child win)])
                if found ≠ 0 then some (1, slot, calls) else some (0, slot, calls)

variable {d aPid pid}

/-! ### The calls change nothing -/

/-- The result of `__get_win_pid` is the one without the calls. -/
theorem getWinPidCalls_fst (win : Window) :
    (d.getWinPidCalls aPid win).1 = d.getWinPid aPid win := by
  rw [getWinPidCalls, getWinPid]
  split
  · rfl
  · cases d.windowAttributes win with
    | none => rfl
    | some attr =>
        dsimp only
        split
        · rfl
        · cases d.windowProperty win aPid <;> rfl

/-- What is found, without the calls. -/
def result (r : ℤ × Window × List XCall) : ℤ × Window :=
  (r.1, r.2.1)

/-- The loop with its calls finds what it finds without them. -/
theorem findChildCalls_result {find : Window → Option (ℤ × Window)}
    {findCalls : Window → Option (ℤ × Window × List XCall)} (win : Window)
    (h : ∀ w, (findCalls w).map result = find w) (child : List Window) :
    (findChildCalls findCalls win child).map result = findChild find win child := by
  induction child with
  | nil => rfl
  | cons slot rest ih =>
      rw [findChildCalls, findChild, ← h]
      cases findCalls slot with
      | none => rfl
      | some r =>
          obtain ⟨found, slot, calls⟩ := r
          simp only [Option.map_some, result]
          split
          · rfl
          · rw [← ih, Option.map_map]
            rfl

/-- **The search with its calls is the search.** -/
theorem findWinCalls_result (fuel : ℕ) (win : Window) :
    (d.findWinCalls aPid pid fuel win).map result = d.findWin aPid pid fuel win := by
  induction fuel generalizing win with
  | zero => rfl
  | succ fuel ih =>
      rw [findWinCalls, findWin]
      dsimp only
      rw [getWinPidCalls_fst]
      split
      · rfl
      · cases d.queryTree win with
        | none => rfl
        | some child =>
            have hchild := findChildCalls_result win ih child
            dsimp only
            rw [← hchild]
            cases findChildCalls (d.findWinCalls aPid pid fuel) win child with
            | none => rfl
            | some r =>
                dsimp only [Option.map_some, result]
                split <;> rfl

/-! ### The search frees what it was given -/

/-- `__get_win_pid` frees the property that it gets. -/
theorem balanced_getWinPid (win : Window) :
    Resources.Balanced XCall.effect (d.getWinPidCalls aPid win).2 := by
  rw [getWinPidCalls]
  split
  · exact .nil
  · split
    · exact .cons rfl .nil
    · split
      · exact .cons rfl .nil
      · split
        · exact .cons rfl (.cons rfl .nil)
        · exact .cons rfl (.between (l := []) rfl .nil rfl)

section Rule

variable {P : List XCall → Prop}

/-- What the calls of every child satisfy, the calls of the loop satisfy. -/
theorem findChild_rule (hnil : P []) (happend : ∀ l m, P l → P m → P (l ++ m))
    {find : Window → Option (ℤ × Window × List XCall)} (win : Window)
    (hfind : ∀ w, ∀ r ∈ find w, P r.2.2) (child : List Window) :
    ∀ r ∈ findChildCalls find win child, P r.2.2 := by
  induction child with
  | nil =>
      rintro r hr
      obtain rfl := Option.some.inj hr
      exact hnil
  | cons slot rest ih =>
      intro r hr
      rw [findChildCalls] at hr
      cases hslot : find slot with
      | none => simp [hslot] at hr
      | some q =>
          have hq := hfind slot q hslot
          simp only [hslot] at hr
          split at hr
          · obtain rfl := Option.some.inj hr
            exact hq
          · obtain ⟨t, ht, rfl⟩ := Option.map_eq_some_iff.mp hr
            exact happend _ _ hq (ih t ht)

/-- **Rule for the search.** What holds of the calls for one window, and is kept along the
loop and around it, holds of the calls of the search. -/
theorem findWin_rule (hnil : P []) (happend : ∀ l m, P l → P m → P (l ++ m))
    (hpid : ∀ win, P (d.getWinPidCalls aPid win).2) (hsilent : ∀ win, P [.xQueryTree win false])
    (hchild : ∀ win l, P l → P (.xQueryTree win true :: (l ++ [.xFree (.child win)])))
    (fuel : ℕ) (win : Window) : ∀ r ∈ d.findWinCalls aPid pid fuel win, P r.2.2 := by
  induction fuel generalizing win with
  | zero => simp [findWinCalls]
  | succ fuel ih =>
      intro r hr
      rw [findWinCalls] at hr
      dsimp only at hr
      split at hr
      · obtain rfl := Option.some.inj hr
        exact hpid win
      · cases hquery : d.queryTree win with
        | none =>
            rw [hquery] at hr
            obtain rfl := Option.some.inj hr
            exact happend _ _ (hpid win) (hsilent win)
        | some child =>
            rw [hquery] at hr
            cases hloop : findChildCalls (d.findWinCalls aPid pid fuel) win child with
            | none => simp [hloop] at hr
            | some q =>
                have hq := findChild_rule hnil happend win ih child q hloop
                simp only [hloop] at hr
                split at hr
                all_goals
                  obtain rfl := Option.some.inj hr
                  exact happend _ _ (hpid win) (hchild win _ hq)

end Rule

/-- **The search frees what it was given**, on every path, in the order in which it was
given. -/
theorem balanced_findWin (fuel : ℕ) (win : Window) :
    ∀ r ∈ d.findWinCalls aPid pid fuel win, Resources.Balanced XCall.effect r.2.2 :=
  findWin_rule .nil (fun _ _ => .append) balanced_getWinPid (fun _ => .cons rfl .nil)
    (fun _ _ hl => .between rfl hl rfl) fuel win

/-- The search sends no message. -/
theorem sends_findWin (fuel : ℕ) (win : Window) :
    ∀ r ∈ d.findWinCalls aPid pid fuel win, r.2.2.filterMap XCall.sends = [] := by
  refine findWin_rule (P := fun l => l.filterMap XCall.sends = []) rfl ?_ ?_ (fun _ => rfl) ?_ fuel
    win
  · intro l m hl hm
    rw [List.filterMap_append, hl, hm]
    rfl
  · intro win
    rw [getWinPidCalls]
    split
    · rfl
    · cases d.windowAttributes win with
      | none => rfl
      | some attr =>
          dsimp only
          split
          · rfl
          · cases d.windowProperty win aPid <;> rfl
  · intro win l hl
    rw [List.filterMap_cons_none rfl, List.filterMap_append, hl]
    rfl

/-! ### The windows that are asked -/

variable (d aPid pid) in
/-- The calls ask the windows that a search through `l` visits for their pid, if the atom is
known, and the windows that it passes over for their children. -/
structure Asks (l : List Window) (calls : List XCall) : Prop where
  asksPid : calls.filterMap XCall.asksPid =
    if aPid = 0 then [] else RoseTree.visited (d.hasPid aPid pid) l
  asksChildren : calls.filterMap XCall.asksChildren = RoseTree.passed (d.hasPid aPid pid) l

/-- `__get_win_pid` asks its window for the pid, if the atom is known. -/
theorem asks_getWinPid (win : Window) :
    (d.getWinPidCalls aPid win).2.filterMap XCall.asksPid = (if aPid = 0 then [] else [win]) ∧
      (d.getWinPidCalls aPid win).2.filterMap XCall.asksChildren = [] := by
  rw [getWinPidCalls]
  split
  · exact ⟨rfl, rfl⟩
  · cases d.windowAttributes win with
    | none => exact ⟨rfl, rfl⟩
    | some attr =>
        dsimp only
        split
        · exact ⟨rfl, rfl⟩
        · cases d.windowProperty win aPid with
          | none => exact ⟨rfl, rfl⟩
          | some prop => exact ⟨rfl, rfl⟩

namespace Asks

variable {l m : List Window} {calls calls' : List XCall}

/-- A search without success in the first part asks the windows of both. -/
theorem append (hl : d.Asks aPid pid l calls) (hm : d.Asks aPid pid m calls')
    (h : l.find? (d.hasPid aPid pid) = none) : d.Asks aPid pid (l ++ m) (calls ++ calls') := by
  constructor
  · rw [List.filterMap_append, hl.asksPid, hm.asksPid, RoseTree.visited_append_of_none h]
    split
    · rfl
    · rw [RoseTree.visited, RoseTree.passed_eq_self h, h, Option.toList_none, List.append_nil]
  · rw [List.filterMap_append, hl.asksChildren, hm.asksChildren,
      RoseTree.passed_append_of_none h, RoseTree.passed_eq_self h]

/-- A search with success in the first part asks the windows of that part only. -/
theorem append_of_some (hl : d.Asks aPid pid l calls) {win : Window}
    (h : l.find? (d.hasPid aPid pid) = some win) : d.Asks aPid pid (l ++ m) calls := by
  constructor
  · rw [RoseTree.visited_append_of_some h]
    exact hl.asksPid
  · rw [RoseTree.passed_append_of_some h]
    exact hl.asksChildren

end Asks

/-- The loop asks the windows of one tree after the other, if the recursive call asks those
of each. -/
theorem asks_findChild {find : Window → Option (ℤ × Window × List XCall)} (win : Window)
    {ts : List (RoseTree Window)}
    (hfind : ∀ t ∈ ts, ∃ r, find t.root = some r ∧
      (r.1 = 0 ↔ (t.preorder d.queryTree).find? (d.hasPid aPid pid) = none) ∧
      d.Asks aPid pid (t.preorder d.queryTree) r.2.2) :
    ∃ r, findChildCalls find win (ts.map RoseTree.root) = some r ∧
      d.Asks aPid pid (RoseTree.preorders d.queryTree ts) r.2.2 := by
  induction ts with
  | nil =>
      refine ⟨_, rfl, ?_, rfl⟩
      rw [RoseTree.preorders]
      exact (ite_self _).symm
  | cons t ts ih =>
      obtain ⟨⟨⟨found, slot, calls⟩, hroot, hfound, hasks⟩, hts⟩ := List.forall_mem_cons.mp hfind
      rw [List.map_cons, findChildCalls, hroot, RoseTree.preorders]
      dsimp only at hfound hasks ⊢
      by_cases hzero : found = 0
      · obtain ⟨r, hr, hrest⟩ := ih hts
        rw [if_neg (not_not.mpr hzero), hr]
        exact ⟨_, rfl, hasks.append hrest (hfound.mp hzero)⟩
      · rw [if_pos hzero]
        obtain ⟨w, hw⟩ := Option.ne_none_iff_exists'.mp (mt hfound.mpr hzero)
        exact ⟨_, rfl, hasks.append_of_some hw⟩

/-- A window that does not match is asked for its children, and these are searched. -/
theorem asks_node {win : Window} {ts : List (RoseTree Window)} {fuel : ℕ}
    (hanswer : ∀ child, d.queryTree win = some child → child = ts.map RoseTree.root)
    (hfind : ∀ t ∈ ts, ∃ r, d.findWinCalls aPid pid fuel t.root = some r ∧
      (r.1 = 0 ↔ (t.preorder d.queryTree).find? (d.hasPid aPid pid) = none) ∧
      d.Asks aPid pid (t.preorder d.queryTree) r.2.2)
    {r : ℤ × Window × List XCall} (hr : d.findWinCalls aPid pid (fuel + 1) win = some r) :
    d.Asks aPid pid ((RoseTree.node win ts).preorder d.queryTree) r.2.2 := by
  obtain ⟨hpid, hchildren⟩ := @asks_getWinPid d aPid win
  rw [findWinCalls] at hr
  dsimp only at hr
  rw [getWinPidCalls_fst] at hr
  rw [RoseTree.preorder]
  by_cases hmatch : d.getWinPid aPid win = pid
  · rw [if_pos hmatch] at hr
    obtain rfl := Option.some.inj hr
    have hhas : d.hasPid aPid pid win = true := hasPid_iff.mpr hmatch
    refine ⟨?_, ?_⟩
    · rw [hpid, RoseTree.visited_cons_of_pos hhas]
    · rw [hchildren, RoseTree.passed_cons_of_pos hhas]
  · rw [if_neg hmatch] at hr
    have hhas : d.hasPid aPid pid win = false :=
      Bool.eq_false_of_not_eq_true fun h => hmatch (hasPid_iff.mp h)
    cases hquery : d.queryTree win with
    | none =>
        rw [hquery] at hr
        obtain rfl := Option.some.inj hr
        refine ⟨?_, ?_⟩
        · rw [List.filterMap_append, hpid, RoseTree.visited_cons_of_neg hhas]
          simp [XCall.asksPid, RoseTree.visited, RoseTree.passed]
        · rw [List.filterMap_append, hchildren, RoseTree.passed_cons_of_neg hhas]
          simp [XCall.asksChildren, RoseTree.passed]
    | some child =>
        obtain ⟨q, hq, hasks⟩ := asks_findChild win hfind
        rw [hquery, hanswer child hquery] at hr
        simp only [hq] at hr
        have hcalls : r.2.2 = (d.getWinPidCalls aPid win).2 ++
            .xQueryTree win true :: (q.2.2 ++ [.xFree (.child win)]) := by
          split at hr <;> exact congrArg (fun r => r.2.2) (Option.some.inj hr).symm
        rw [hcalls, Option.isSome_some, if_pos rfl]
        refine ⟨?_, ?_⟩
        · rw [List.filterMap_append, hpid, RoseTree.visited_cons_of_neg hhas]
          simp only [List.filterMap_cons, List.filterMap_append, XCall.asksPid, hasks.asksPid]
          split <;> simp
        · rw [List.filterMap_append, hchildren, RoseTree.passed_cons_of_neg hhas]
          simp [XCall.asksChildren, hasks.asksChildren]

/-- **The search asks each window that it visits once**, in the search order, and stops at
the first match. -/
theorem asks_findWin {t : RoseTree Window} (ht : t.Fits d.queryTree) {fuel : ℕ}
    (hfuel : t.height ≤ fuel) :
    ∃ r, d.findWinCalls aPid pid fuel t.root = some r ∧
      result r = outcome t.root ((t.preorder d.queryTree).find? (d.hasPid aPid pid)) ∧
      d.Asks aPid pid (t.preorder d.queryTree) r.2.2 := by
  induction t using RoseTree.ind generalizing fuel with
  | node a ts ih =>
      have hresult : (d.findWinCalls aPid pid fuel a).map result = d.findWin aPid pid fuel a :=
        findWinCalls_result fuel a
      rw [← RoseTree.root_node a ts, findWin_eq ht hfuel] at hresult
      obtain ⟨r, hr, hout⟩ := Option.map_eq_some_iff.mp hresult
      refine ⟨r, hr, hout, ?_⟩
      obtain ⟨hanswer, hts⟩ := ht
      have hroot : 0 < (RoseTree.node a ts).height := by
        rw [RoseTree.height]
        exact Nat.succ_pos _
      obtain ⟨fuel, rfl⟩ := Nat.exists_eq_add_one_of_ne_zero (show fuel ≠ 0 by omega)
      refine asks_node hanswer (fun t ht => ?_) hr
      have hlt := RoseTree.height_lt (a := a) ht
      have hle : t.height ≤ fuel := by omega
      obtain ⟨r, hr, hout, hasks⟩ := ih t ht (hts t ht) hle
      have hfound : (result r).1 = _ := congrArg Prod.fst hout
      refine ⟨r, hr, ?_, hasks⟩
      rw [show r.1 = _ from hfound]
      cases (t.preorder d.queryTree).find? (d.hasPid aPid pid) <;> simp [outcome]

end Display

namespace System

open Process (Action)

/-- `__raise_win`, the calls only. -/
def raiseWinCalls (d : Display) (win : Window) (a : ResumeAnswers) (s : System) : List XCall :=
  let aActiveWin := if s.aActiveWin = 0 then a.netActiveWindow else s.aActiveWin
  (if s.aActiveWin = 0 then [.xInternAtom "_NET_ACTIVE_WINDOW" false] else []) ++
    [.xSendEvent d.rootWindow ⟨win, aActiveWin, 32, [1, 0, 0, 0, 0]⟩]

/-- `x_raise_win` of the process itself, the calls only. -/
def appResumeCalls (a : ResumeAnswers) (s : System) : List XCall :=
  if s.pid < 1 then []
  else if a.kill = -1 then []
  else
    match a.openDisplay with
    | none => [.xOpenDisplay false]
    | some screen =>
        let d := screen.display
        let atom := if s.aPid = 0 then [XCall.xInternAtom "_NET_WM_PID" true] else []
        let calls :=
          match d.findWinCalls (s.pidAtom a) s.pid a.fuel d.rootWindow with
          | none => []
          | some (found, win, calls) =>
              if found = 0 then calls else calls ++ s.raiseWinCalls d win a
        .xOpenDisplay true :: ((atom ++ calls) ++ [.xCloseDisplay])

/-- The calls to Xlib that an input makes: a request to resume, unless the callback of
`appcore_set_open_cb` returns something else than zero. -/
def xCalls {w : ℕ} (s : System) : Input w → List XCall
  | .action (.aul .resume _ _) a =>
      if s.process.aul = true ∧ (s.openS.callback = none ∨ a.ret = 0) then s.appResumeCalls a
      else []
  | _ => []

/-- The calls to Xlib of a run. -/
def xCallsOf {w : ℕ} (s : System) (is : List (Input w)) : List XCall :=
  Machine.outputs (fun s i => (s.step i, s.xCalls i)) s is

/-- What a request does on a display. -/
theorem appResumeCalls_eq {s : System} {a : ResumeAnswers} {screen : Screen} (hpid : 1 ≤ s.pid)
    (hkill : a.kill ≠ -1) (hopen : a.openDisplay = some screen) :
    ∃ calls, screen.display.Asks (s.pidAtom a) s.pid
        (screen.tree.preorder screen.display.queryTree) calls ∧
      Resources.Balanced XCall.effect calls ∧ calls.filterMap XCall.sends = [] ∧
      s.appResumeCalls a =
        .xOpenDisplay true ::
          (((if s.aPid = 0 then [.xInternAtom "_NET_WM_PID" true] else []) ++
            (calls ++ (s.firstWindow screen a).elim [] fun win =>
              s.raiseWinCalls screen.display win a)) ++ [.xCloseDisplay]) := by
  have hvalid : ¬ s.pid < 1 := by omega
  have hfuel : screen.tree.height ≤ a.fuel := by
    rw [ResumeAnswers.fuel, hopen]
    rfl
  obtain ⟨⟨found, win, calls⟩, hr, hout, hasks⟩ :=
    @Display.asks_findWin screen.display (s.pidAtom a) s.pid _ screen.fits _ hfuel
  refine ⟨calls, hasks, Display.balanced_findWin _ _ _ hr, Display.sends_findWin _ _ _ hr, ?_⟩
  rw [appResumeCalls, if_neg hvalid, if_neg hkill, hopen]
  dsimp only
  rw [← screen.root_eq, hr, firstWindow]
  cases hfirst : (screen.tree.preorder screen.display.queryTree).find?
      (screen.display.hasPid (s.pidAtom a) s.pid) with
  | none =>
      rw [hfirst] at hout
      obtain ⟨rfl, rfl⟩ := Prod.mk.inj hout
      simp
  | some w =>
      rw [hfirst] at hout
      obtain ⟨rfl, rfl⟩ := Prod.mk.inj hout
      simp

/-- Without a display at most the attempt to open one is made. -/
theorem appResumeCalls_of_fails {s : System} {a : ResumeAnswers}
    (h : s.pid < 1 ∨ a.kill = -1 ∨ a.openDisplay = none) :
    s.appResumeCalls a = [] ∨ s.appResumeCalls a = [.xOpenDisplay false] := by
  rw [appResumeCalls]
  split
  · exact .inl rfl
  · rename_i hpid
    split
    · exact .inl rfl
    · rename_i hkill
      rw [(h.resolve_left hpid).resolve_left hkill]
      exact .inr rfl

/-- `__raise_win` acquires nothing. -/
theorem balanced_raiseWin (d : Display) (win : Window) (a : ResumeAnswers) (s : System) :
    Resources.Balanced XCall.effect (s.raiseWinCalls d win a) := by
  rw [raiseWinCalls]
  split
  · exact .cons rfl (.cons rfl .nil)
  · exact .cons rfl .nil

/-- **A request releases what it acquires**, the connection to the display last. -/
theorem balanced_appResume (a : ResumeAnswers) (s : System) :
    Resources.Balanced XCall.effect (s.appResumeCalls a) := by
  by_cases hfails : s.pid < 1 ∨ a.kill = -1 ∨ a.openDisplay = none
  · rcases appResumeCalls_of_fails hfails with hcalls | hcalls
    · exact hcalls ▸ .nil
    · exact hcalls ▸ .cons rfl .nil
  · obtain ⟨hpid, hkill, hopen⟩ : ¬ s.pid < 1 ∧ a.kill ≠ -1 ∧ a.openDisplay ≠ none := by
      simpa only [not_or] using hfails
    obtain ⟨screen, hopen⟩ := Option.ne_none_iff_exists'.mp hopen
    have hpid : 1 ≤ s.pid := by omega
    obtain ⟨calls, -, hcalls, -, heq⟩ := appResumeCalls_eq hpid hkill hopen
    rw [heq]
    refine .between rfl (.append ?_ (hcalls.append ?_)) rfl
    · split
      · exact .cons rfl .nil
      · exact .nil
    · cases s.firstWindow screen a with
      | none => exact .nil
      | some win => exact balanced_raiseWin screen.display win a s

/-- A request sends the message of the log, and no other. -/
theorem sends_appResume (a : ResumeAnswers) (s : System) :
    (s.appResumeCalls a).filterMap XCall.sends = (s.raised a).toList := by
  by_cases hfails : s.pid < 1 ∨ a.kill = -1 ∨ a.openDisplay = none
  · rw [raised_of_fails hfails]
    rcases appResumeCalls_of_fails hfails with hcalls | hcalls
    · rw [hcalls]
      rfl
    · rw [hcalls]
      rfl
  · obtain ⟨hpid, hkill, hopen⟩ : ¬ s.pid < 1 ∧ a.kill ≠ -1 ∧ a.openDisplay ≠ none := by
      simpa only [not_or] using hfails
    obtain ⟨screen, hopen⟩ := Option.ne_none_iff_exists'.mp hopen
    have hpid : 1 ≤ s.pid := by omega
    obtain ⟨calls, -, -, hcalls, heq⟩ := appResumeCalls_eq hpid hkill hopen
    have hatom : (if s.aPid = 0 then [XCall.xInternAtom "_NET_WM_PID" true] else []).filterMap
        XCall.sends = [] := by
      split <;> rfl
    have hlast : [XCall.xCloseDisplay].filterMap XCall.sends = [] := rfl
    rw [heq, List.filterMap_cons_none rfl, List.filterMap_append, List.filterMap_append,
      List.filterMap_append, hatom, hcalls, hlast, List.nil_append, List.nil_append,
      List.append_nil, raised, if_pos ⟨hpid, hkill⟩, hopen, Option.bind_some]
    cases s.firstWindow screen a with
    | none => rfl
    | some win =>
        rw [Option.elim_some, raiseWinCalls]
        split <;> rfl

/-- What a request adds to the calls of the search asks no window. -/
theorem asks_appResume {s : System} {a : ResumeAnswers} {screen : Screen} (hpid : 1 ≤ s.pid)
    (hkill : a.kill ≠ -1) (hopen : a.openDisplay = some screen) :
    screen.display.Asks (s.pidAtom a) s.pid (screen.tree.preorder screen.display.queryTree)
      (s.appResumeCalls a) := by
  obtain ⟨calls, hasks, -, -, heq⟩ := appResumeCalls_eq hpid hkill hopen
  have hsame : ∀ {f : XCall → Option Window}, (∀ b, f (.xOpenDisplay b) = none) →
      f .xCloseDisplay = none → (∀ name b, f (.xInternAtom name b) = none) →
      (∀ root xev, f (.xSendEvent root xev) = none) →
      (s.appResumeCalls a).filterMap f = calls.filterMap f := by
    intro f hfirst hlast hatom hsend
    have hintern : ∀ (b : Prop) [Decidable b] (name : String) (c : Bool),
        (if b then [XCall.xInternAtom name c] else []).filterMap f = [] := by
      intro b _ name c
      split
      · exact List.filterMap_cons_none (hatom name c)
      · rfl
    have hraise : ((s.firstWindow screen a).elim [] fun win =>
        s.raiseWinCalls screen.display win a).filterMap f = [] := by
      cases s.firstWindow screen a with
      | none => rfl
      | some win =>
          rw [Option.elim_some, raiseWinCalls, List.filterMap_append, hintern,
            List.filterMap_cons_none (hsend _ _)]
          rfl
    rw [heq, List.filterMap_cons_none (hfirst true), List.filterMap_append, List.filterMap_append,
      List.filterMap_append, hintern, hraise, List.filterMap_cons_none hlast]
    simp
  constructor
  · rw [hsame (fun _ => rfl) rfl (fun _ _ => rfl) fun _ _ => rfl, hasks.asksPid]
  · rw [hsame (fun _ => rfl) rfl (fun _ _ => rfl) fun _ _ => rfl, hasks.asksChildren]

/-- **How far the search goes.** A request that reaches a display asks the windows for their
pid in the search order, up to the first window of the process, and each window before that
for its children. While the atom `_NET_WM_PID` is not known no window is asked for its pid,
but all of them for their children. Where the windows are different, none is asked twice. -/
theorem search_asks {s : System} {a : ResumeAnswers} {screen : Screen} (hpid : 1 ≤ s.pid)
    (hkill : a.kill ≠ -1) (hopen : a.openDisplay = some screen) :
    let seen := screen.tree.preorder screen.display.queryTree
    let has := screen.display.hasPid (s.pidAtom a) s.pid
    let asked := (s.appResumeCalls a).filterMap XCall.asksPid
    let queried := (s.appResumeCalls a).filterMap XCall.asksChildren
    (s.pidAtom a ≠ 0 → asked = RoseTree.visited has seen ∧ queried = RoseTree.passed has seen) ∧
      (s.pidAtom a = 0 → asked = [] ∧ queried = seen) ∧
      (seen.Nodup → asked.Nodup ∧ queried.Nodup) := by
  intro seen has asked queried
  obtain ⟨hasked, hqueried⟩ := asks_appResume hpid hkill hopen
  have hvisited : RoseTree.visited has seen <+: seen := RoseTree.visited_prefix
  have hpassed : RoseTree.passed has seen <+: seen := List.takeWhile_prefix _
  refine ⟨fun hatom => ⟨hasked.trans (if_neg hatom), hqueried⟩, fun hatom => ?_, fun hnodup => ?_⟩
  · have hnone : seen.find? has = none := by
      refine List.find?_eq_none.mpr fun win _ hmatch => ?_
      have hmatch : screen.display.getWinPid (s.pidAtom a) win = s.pid :=
        Display.hasPid_iff.mp hmatch
      rw [Display.getWinPid, if_pos hatom] at hmatch
      omega
    exact ⟨hasked.trans (if_pos hatom), hqueried.trans (RoseTree.passed_eq_self hnone)⟩
  · constructor
    · rw [show asked = _ from hasked]
      split
      · exact List.nodup_nil
      · exact hvisited.sublist.nodup hnodup
    · rw [show queried = _ from hqueried]
      exact hpassed.sublist.nodup hnodup

/-- The windows of `silentDisplay`. -/
def silentScreen : Screen :=
  ⟨silentDisplay, silentTree, fits_silentTree, rfl⟩

/-- The window that does not answer is asked all the same. -/
theorem search_asks_silentScreen :
    let s : System := { init Process.plain 77 with aPid := 9 }
    let a : ResumeAnswers := ⟨0, [], 0, some silentScreen, 0, 0⟩
    (s.appResumeCalls a).filterMap XCall.asksPid = [1, 2, 3, 5, 6] ∧
      (s.appResumeCalls a).filterMap XCall.asksChildren = [1, 2, 3, 5] := by
  intro s a
  obtain ⟨hknown, -, -⟩ := @search_asks s a silentScreen (by decide) (by decide) rfl
  obtain ⟨hasked, hqueried⟩ := hknown (by decide)
  exact ⟨hasked.trans (by decide), hqueried.trans (by decide)⟩

/-! ### Runs -/

variable {w : ℕ}

/-- An input releases what it acquires. -/
theorem balanced_xCalls (s : System) (i : Input w) :
    Resources.Balanced XCall.effect (s.xCalls i) := by
  unfold xCalls
  split
  · split
    · exact balanced_appResume _ s
    · exact .nil
  · exact .nil

/-- A request to resume sends what it adds to the log, apart from the callback. -/
theorem sent_aulResume (b : Ptr) (c : Answers) (a : ResumeAnswers) (s : System) :
    (s.act (.aul .resume b c) a).log.filterMap Report.sent =
      s.log.filterMap Report.sent ++
        (s.xCalls (.action (.aul .resume b c) a : Input w)).filterMap XCall.sends := by
  have hraised : (s.raised a).toList.filterMap Report.sent = (s.raised a).toList := by
    rw [raised]
    split
    · cases a.openDisplay with
      | none => rfl
      | some screen =>
          rw [Option.bind_some]
          cases s.firstWindow screen a <;> rfl
    · rfl
  have hcallback : (s.openS.callback.map (Report.openCallback · s.openS.cbdata)).toList.filterMap
      Report.sent = [] := by
    cases s.openS.callback <;> rfl
  have hcalls : s.xCalls (.action (.aul .resume b c) a : Input w) =
      if s.process.aul = true ∧ (s.openS.callback = none ∨ a.ret = 0) then s.appResumeCalls a
      else [] := rfl
  rw [hcalls, act]
  by_cases haul : s.process.aul = true
  · rw [if_pos haul, log_aulResume, List.filterMap_append, List.filterMap_append, hcallback,
      List.append_nil]
    by_cases hraise : s.openS.callback = none ∨ a.ret = 0
    · rw [if_pos hraise, if_pos ⟨haul, hraise⟩, hraised, sends_appResume]
    · rw [if_neg hraise, if_neg fun h => hraise h.2]
      rfl
  · rw [if_neg haul, if_neg fun h => haul h.1]
    exact (List.append_nil _).symm

/-- What an input adds to the log and what it sends. -/
theorem sent_step (s : System) (i : Input w) :
    (s.step i).log.filterMap Report.sent =
      s.log.filterMap Report.sent ++ (s.xCalls i).filterMap XCall.sends := by
  have hsame : ∀ {t : System}, t.log = s.log →
      t.log.filterMap Report.sent = s.log.filterMap Report.sent ++ [] := by
    intro t ht
    rw [ht, List.append_nil]
  have hquiet : ∀ {t : System} {r : Report}, t.log = s.log ++ [r] → r.sent = none →
      t.log.filterMap Report.sent = s.log.filterMap Report.sent ++ [] := by
    intro t r ht hr
    rw [ht, List.filterMap_append, List.filterMap_cons_none hr]
    rfl
  cases i with
  | action x a =>
      cases x with
      | aul type b c =>
          cases type with
          | start =>
              rw [step, act]
              dsimp only
              split
              · exact hquiet rfl rfl
              · exact hsame rfl
          | resume => exact sent_aulResume b c a s
          | terminate => exact hsame rfl
          | other => exact hsame rfl
      | _ => exact hsame rfl
  | setOpenCb cb data => exact hsame rfl
  | idle id getenv now stack =>
      rw [step, idle]
      split
      · exact hquiet rfl rfl
      · exact hsame rfl
  | rotation x => exact hsame rfl

/-- **What is acquired is released**, in every run of the system: the calls to Xlib never
free what was not handed out or was freed before, they leave nothing behind, and they send
exactly the messages that the log has. -/
theorem released_system (p : Process) (pid : ℤ) (is : List (Input w)) :
    let calls := (init p pid).xCallsOf is
    Resources.Balanced XCall.effect calls ∧
      calls.filterMap XCall.sends =
        (Machine.run step (init p pid) is).log.filterMap Report.sent := by
  have hrun : ∀ s : System, Resources.Balanced XCall.effect (s.xCallsOf is) ∧
      s.log.filterMap Report.sent ++ (s.xCallsOf is).filterMap XCall.sends =
        (Machine.run step s is).log.filterMap Report.sent := by
    induction is with
    | nil => exact fun s => ⟨.nil, List.append_nil _⟩
    | cons i is ih =>
        intro s
        obtain ⟨hrest, hsent⟩ := ih (s.step i)
        rw [xCallsOf, Machine.outputs_cons]
        refine ⟨(balanced_xCalls s i).append hrest, ?_⟩
        rw [List.filterMap_append, ← List.append_assoc, ← sent_step, Machine.run_cons, ← hsent]
        rfl
  exact hrun (init p pid)

end System

end AppCore
