import AppCore.EventRouting
import AppCore.FailedStart

/-!
# What Is Appended to the Trace

Every action appends entries to the trace of a process, those of the callbacks and of the
calls it makes. This module says once which entries can come from where, so that a result
about one kind of entry has to look at the places only where entries of this kind come
from: `Appends P` is to be read with `P` for the other kinds.

## Main results

* `appends_step`, `appends_aulHandler`: what an event of the loop and a request of the AUL
  daemon append.
* `appends_startUp`, `appends_leave`, `appends_vconfCb`: **rules** for the start and the end
  of a call and for notifications, by what the API calls of the callbacks append.
-/

set_option autoImplicit false

namespace AppCore

/-- The entries that the loop and the daemon's requests append. -/
def Call.IsLoop (c : Call) : Prop :=
  c.IsFlush ∨ c.IsApp ∨ c.IsTimer

namespace Process

variable {P : Call → Prop} {p q r : Process}

/-- Entries with `P` were appended to the trace, whatever else happened. -/
def Appends (P : Call → Prop) (p q : Process) : Prop :=
  ∃ l, (∀ c ∈ l, P c) ∧ q.calls = p.calls ++ l

/-- Nothing is appended to a trace that is the same. -/
theorem Appends.of_eq (h : q.calls = p.calls) : Appends P p q :=
  ⟨[], by simp, h.trans (List.append_nil _).symm⟩

/-- A process that stands still appends nothing. -/
theorem Appends.refl (p : Process) : Appends P p p :=
  .of_eq rfl

/-- What is appended first and what is appended then. -/
theorem Appends.trans (h : Appends P p q) (k : Appends P q r) : Appends P p r := by
  obtain ⟨l, hl, hq⟩ := h
  obtain ⟨m, hm, hr⟩ := k
  refine ⟨l ++ m, fun c hc => ?_, by rw [hr, hq, List.append_assoc]⟩
  exact (List.mem_append.mp hc).elim (hl c) (hm c)

/-- Entries of one kind are entries of a wider kind. -/
theorem Appends.mono {Q : Call → Prop} (h : Appends P p q) (hPQ : ∀ c, P c → Q c) :
    Appends Q p q := by
  obtain ⟨l, hl, hq⟩ := h
  exact ⟨l, fun c hc => hPQ c (hl c hc), hq⟩

/-- Leaving the EFL module alone is a case of it, with the same entries. -/
theorem Outside.appends (h : Outside P p q) : Appends P p q := h.newCalls

/-- A call appends its entry. -/
theorem appends_call {c : Call} (hc : P c) (p : Process) : Appends P p (p.call c) :=
  (outside_call hc p).appends

/-! ### The loop and the daemon -/

/-- What `__do_app` does appends entries of the loop only. -/
theorem appends_does {a : Answers} {e : AppEvent} (h : Does a p e q) :
    Appends Call.IsLoop p q := by
  obtain ⟨_, _, _, _, l, hq, hl⟩ := does_frame h
  have hcalls : e ≠ .memFlush → e ≠ .lowmemPost → Appends Call.IsLoop p q :=
    fun hflush hlow => ⟨l, fun c hc => .inr (hl hflush hlow c hc), by rw [hq]⟩
  cases h with
  | memFlush => exact (logs_memFlush p).outside.appends.mono fun _ hc => .inl hc
  | lowmemPost => exact (logs_lowMemoryPostCb p).outside.appends.mono fun _ hc => .inl hc
  | move hflush hlow => exact hcalls hflush hlow
  | arm => exact hcalls (by simp) (by simp)
  | again => exact hcalls (by simp) (by simp)

/-- **An event of the loop.** -/
theorem appends_step (p : Process) (x : Event × Answers) : Appends Call.IsLoop p (p.step x) := by
  have hstep := stepped_step p x
  generalize p.step x = q at hstep
  obtain ⟨e, a⟩ := x
  cases hstep with
  | windows => exact .refl p
  | switch _ _ hdoes => exact (appends_does hdoes).trans (.refl _)
  | app _ hdoes => exact appends_does hdoes
  | timer t =>
      by_cases hlive : t ∈ p.timers
      · obtain ⟨l, hl, -, heq⟩ := timerExpired_of_mem hlive
        refine ⟨l ++ [.ecoreTimerExpired t], fun c hc => ?_, by rw [heq]⟩
        rcases List.mem_append.mp hc with hc | hc
        · exact .inl (hl c hc)
        · rw [List.mem_singleton.mp hc]
          exact .inr (.inr trivial)
      · rw [timerExpired_of_notMem hlive]
        exact .refl p
  | api c => exact (outside_runApi c p).appends.mono fun _ hc => .inl hc

/-- `cb_app`, of either kind, appends entries of the loop only. -/
theorem appends_cbApp (event : AppEvent) (b : Ptr) (a : Answers) (p : Process) :
    Appends Call.IsLoop p (p.cbApp event b a) := by
  rw [cbApp]
  split
  · exact appends_call (.inl trivial) p
  · split
    · exact appends_call (.inl trivial) p
    · exact appends_does (does_doApp event b a p)
    · exact appends_call (.inl trivial) p

/-- **A request of the daemon.** -/
theorem appends_aulHandler (type : AulType) (b : Ptr) (a : Answers) (p : Process) :
    Appends Call.IsLoop p (p.aulHandler type b a) := by
  cases type with
  | start =>
      rw [aulHandler, appReset]
      split
      · exact .refl p
      · split
        · exact .refl p
        · exact appends_cbApp .reset b a p
  | resume => exact .refl p
  | terminate =>
      rw [aulHandler, appTerminate]
      split
      · exact .refl p
      · split
        · exact .refl p
        · exact appends_cbApp .terminate none a p
  | other => exact .refl p

/-! ### Rules -/

/-- The API call appends entries with `P` only, wherever it is made. -/
def ApiAppends (P : Call → Prop) (c : ApiCall) : Prop :=
  ∀ p : Process, Appends P p (p.runApi c)

/-- The API calls of a callback append what each of them does. -/
theorem appends_foldl_runApi {cs : List ApiCall} (hapi : ∀ c ∈ cs, ApiAppends P c) (p : Process) :
    Appends P p (cs.foldl (fun p c => p.runApi c) p) :=
  foldl_runApi (I := Appends P p) (fun c hc q hq => hq.trans (hapi c hc q)) (.refl p)

/-- `create` appends its own entry and what its API calls do. -/
theorem appends_createCall {m : MainCall} (hcreate : ∀ fn data, P (.create fn data))
    (hapi : ∀ c ∈ m.start.createApi, ApiAppends P c) (p : Process) :
    Appends P p (p.createCall m) := by
  rw [createCall]
  split
  · exact .refl p
  · split
    · exact .refl p
    · exact (appends_call (hcreate _ _) p).trans (appends_foldl_runApi hapi _)

/-- **Rule for starts** that get as far as `elm_init`. -/
theorem appends_startUp {m : MainCall} (hidle : p.priv.name = none) (h : ¬ BeforeElm m)
    (hcreate : ∀ fn data, P (.create fn data)) (hrun : P .elmRun)
    (hinit : ApiAppends P (.init m.name (some eflOps) m.start.init))
    (hexit : ApiAppends P .exit) (hapi : ∀ c ∈ m.start.createApi, ApiAppends P c) :
    Appends P ((p.dataSet m).call .elmInit) (p.startUp m).2 := by
  obtain ⟨hvalid, hargs⟩ := not_or.mp h
  have hinit : Appends P ((p.dataSet m).call .elmInit) (p.initCall m).2 := hinit _
  have hcreated := hinit.trans (appends_createCall hcreate hapi _)
  rw [startUp_eq hidle, if_neg hvalid, if_neg hargs]
  dsimp only
  split_ifs
  · exact hinit.trans (.refl _)
  · exact (hcreated.trans (hexit _)).trans (.refl _)
  · have hloop : Appends P ((p.initCall m).2.createCall m)
        (((p.initCall m).2.createCall m).enterLoop.call .elmRun) :=
      ⟨[.elmRun], by simpa using hrun, rfl⟩
    exact hcreated.trans hloop

/-- Any other start appends nothing. -/
theorem startUp_of_beforeElm {m : MainCall} (h : p.priv.name ≠ none ∨ BeforeElm m) :
    (p.startUp m).2.calls = p.calls ∧ (p.startUp m).2.priv.name = p.priv.name := by
  by_cases hidle : p.priv.name = none
  · have hbefore : BeforeElm m := h.resolve_left (not_not.mpr hidle)
    rw [startUp_eq hidle]
    by_cases hvalid : Valid m
    · rw [if_neg (not_not.mpr hvalid), if_pos (hbefore.resolve_left (not_not.mpr hvalid))]
      exact ⟨rfl, hidle.symm⟩
    · rw [if_pos hvalid]
      exact ⟨rfl, rfl⟩
  · rw [startUp_of_busy hidle]
    exact ⟨rfl, rfl⟩

/-- **Rule for the end of a call**, up to `elm_shutdown`. -/
theorem appends_leave (a : Rotation.Answers) (cs : List ApiCall) (p : Process)
    (hterm : ∀ fn data, P (.terminate fn data)) (htimer : ∀ c : Call, c.IsTimer → P c)
    (hexit : ApiAppends P .exit) (hapi : ∀ c ∈ cs, ApiAppends P c) :
    ∃ q, Appends P p q ∧ (p.leave a cs).calls = q.calls ++ [.elmShutdown] := by
  have hleft : Appends P p (p.exitLoop a) :=
    hexit { p with rotation := p.rotation.runApi id .unset a }
  have hcalled : Appends P (p.exitLoop a) ((p.exitLoop a).runTerminate cs) := by
    rw [runTerminate]
    split
    · exact .refl _
    · split
      · exact .refl _
      · exact (appends_call (hterm _ _) _).trans (appends_foldl_runApi hapi _)
  have hrest := hleft.trans hcalled
  rw [leave]
  generalize (p.exitLoop a).runTerminate cs = r at hrest
  refine ⟨r.timerDel, hrest.trans ?_, ?_⟩
  · rw [timerDel_eq]
    exact ⟨_, fun c hc => htimer c (isTimer_timerDel r c hc), rfl⟩
  · rw [tearDown_eq, timerDel_eq, List.append_assoc]

/-- A notification appends the entry of the event callback and what its API calls do, and it
leaves `priv` alone. -/
theorem appends_deliver {n : Notification} (hcall : ∀ fn data, P (.sysCallback fn data))
    (hapi : ∀ c ∈ n.calls, ApiAppends P c) (op : SysOp) (p : Process) :
    Appends P p (p.deliver op n) ∧ (p.deliver op n).priv = p.priv := by
  rw [deliver]
  split
  · exact ⟨.refl p, rfl⟩
  · refine ⟨(appends_call (hcall _ _) p).trans (appends_foldl_runApi hapi _), ?_⟩
    exact foldl_runApi (I := fun q => q.priv = p.priv)
      (fun c _ q hq => (priv_runApi c q).trans hq) rfl

/-- **Rule for notifications.** Low memory is told with `priv` as it was. -/
theorem appends_vconfCb {n : Notification} (hcall : ∀ fn data, P (.sysCallback fn data))
    (hapi : ∀ c ∈ n.calls, ApiAppends P c)
    (hpost : n.name = some .sysmanLowMemory → ∀ q : Process, q.priv = p.priv →
      Appends P q (q.cbApp .lowmemPost none n.answers)) :
    Appends P p (p.vconfCb n) := by
  have hbefore : Appends P p (p.updateBefore n) ∧ (p.updateBefore n).priv = p.priv := by
    rw [updateBefore]
    split
    · exact ⟨.of_eq rfl, rfl⟩
    · exact ⟨.of_eq rfl, rfl⟩
    · exact ⟨.refl p, rfl⟩
  have hcalled : ∀ q, Appends P p q ∧ q.priv = p.priv → Appends P p (q.postAfter n) := by
    rintro q ⟨hq, hpriv⟩
    rw [postAfter]
    split
    · rename_i hname
      exact hq.trans (hpost hname q hpriv)
    · exact hq
  rw [vconfCb_eq, route]
  refine hcalled _ ?_
  split
  · exact hbefore
  · obtain ⟨hdeliver, hpriv⟩ := appends_deliver hcall hapi (p.core.sops _) (p.updateBefore n)
    exact ⟨hbefore.1.trans hdeliver, hpriv.trans hbefore.2⟩

end Process

end AppCore
