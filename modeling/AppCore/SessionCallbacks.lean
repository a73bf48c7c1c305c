import AppCore.Callbacks
import AppCore.Session

/-!
# The Callbacks of a Session

`callback_grammar` is about one call of `appcore_efl_main` with a full table of callbacks.
Here a process lives through any sequence of actions: calls that are refused, given up or
run to their end, with any tables, requests of the AUL daemon and notifications inside and
outside of a call. A callback is recorded as an `Invocation`, with its function and its
data, so that it can be told whose callback was invoked.

The trace of a session is spelled by *words*, one for each call that got as far as
`create`. A word is what the automaton of the callbacks admits; of a table with NULL
entries the invocations at these places are missing.

## Main results

* `Underway.step`: what an event invokes continues the word of the call under way.
* `spelled_act`: **one action** starts, continues or finishes a word, or leaves it alone.
* `session_grammar`: **the callbacks of a session are the words of its calls**, in the
  order of the calls.
-/

set_option autoImplicit false

namespace AppCore

open Callbacks

/-- The invocation of a callback of `struct appcore_ops`. The bundle that `reset` gets is
left out. -/
structure Invocation where
  callback : OpsCallback
  fn : Addr
  data : Ptr
  deriving DecidableEq, Repr

/-- The entry of the trace is the invocation of a callback. -/
def Call.invocation : Call → Option Invocation
  | .create fn data => some ⟨.create, fn, data⟩
  | .terminate fn data => some ⟨.terminate, fn, data⟩
  | .pause fn data => some ⟨.pause, fn, data⟩
  | .resume fn data => some ⟨.resume, fn, data⟩
  | .reset fn _ data => some ⟨.reset, fn, data⟩
  | _ => none

/-- The member of the table for a callback. -/
def AppcoreOps.fn (ops : AppcoreOps) : OpsCallback → Ptr
  | .create => ops.create
  | .terminate => ops.terminate
  | .pause => ops.pause
  | .resume => ops.resume
  | .reset => ops.reset

/-- The invocation of a callback of the table with its data, unless the member is NULL. -/
def AppcoreOps.invocation (ops : AppcoreOps) (c : OpsCallback) : Option Invocation :=
  (ops.fn c).map fun fn => ⟨c, fn, ops.data⟩

/-- The entries that a callback of a table leaves in the trace are its invocations. -/
theorem filterMap_invocation {ops : AppcoreOps} {k : OpsCallback} {fn : Ptr}
    {c : Addr → Call} (hfn : fn = ops.fn k)
    (hc : ∀ fn, (c fn).invocation = some ⟨k, fn, ops.data⟩) :
    (fn.map c).toList.filterMap Call.invocation = (ops.invocation k).toList := by
  subst hfn
  rw [AppcoreOps.invocation]
  cases ops.fn k <;> simp [hc]

namespace Life

/-- The invocations in the trace. -/
def invocations (l : Life) : List Invocation :=
  l.trace.filterMap Call.invocation

/-- A reset invokes its callback. -/
theorem invocations_reset {l : Life} {ops : AppcoreOps} (hops : l.ops = some ops) (b : Ptr) :
    (l.reset b).invocations = l.invocations ++ (ops.invocation .reset).toList := by
  have hfn : (ops.reset.map (.reset · b ops.data)).toList.filterMap Call.invocation =
      (ops.invocation .reset).toList := filterMap_invocation rfl fun _ => rfl
  rw [invocations, reset_trace hops, List.filterMap_append, hfn]
  rfl

/-- What a switch invokes, if its callback is the one of `k` and its note is none. -/
theorem invocations_switch {old new : AppState} {fn : AppcoreOps → Ptr}
    {c : Addr → Ptr → Call} {note : Call} {l : Life} {ops : AppcoreOps} {k : OpsCallback}
    (hops : l.ops = some ops) (hfn : fn ops = ops.fn k)
    (hc : ∀ f, (c f ops.data).invocation = some ⟨k, f, ops.data⟩)
    (hnote : note.invocation = none) :
    (l.switch old new fn c note).invocations =
      l.invocations ++ if l.state = old then (ops.invocation k).toList else [] := by
  have hnil : [note].filterMap Call.invocation = [] := by simp [hnote]
  rw [invocations, switch_trace hops, List.filterMap_append, List.filterMap_append, hnil,
    List.append_nil]
  split
  · rw [filterMap_invocation hfn hc]
    rfl
  · rfl

/-- **The word of the call under way**: after `base` the life cycle has invoked what the
automaton admits, NULL members passed over. -/
structure Underway (ops : AppcoreOps) (base : List Invocation) (l : Life) : Prop where
  ops_eq : l.ops = some ops
  word : ∃ mid, l.invocations = base ++ mid.filterMap ops.invocation ∧
    Follows l.state (Machine.run next .idle mid)

variable {ops : AppcoreOps} {base : List Invocation} {l : Life}

/-- A reset continues the word. -/
theorem Underway.reset (h : l.Underway ops base) (b : Ptr) : (l.reset b).Underway ops base := by
  obtain ⟨hops, mid, hmid, hfollows⟩ := h
  refine ⟨(reset_ops b l).trans hops, mid ++ [.reset], ?_, ?_⟩
  · rw [invocations_reset hops, hmid, List.append_assoc, List.filterMap_append]
    rfl
  · rw [reset_state hops, Machine.run_snoc, hfollows.reset]
    rfl

/-- `AE_TERMINATE` continues the word without an invocation. -/
theorem Underway.terminate (h : l.Underway ops base) : l.terminate.Underway ops base := by
  obtain ⟨hops, mid, hmid, hfollows⟩ := h
  exact ⟨hops, mid, hmid, hfollows.alive⟩

/-- A switch from a mode in which the automaton admits its callback. -/
theorem Underway.switch {old new : AppState} {fn : AppcoreOps → Ptr} {c : Addr → Ptr → Call}
    {note : Call} {k : OpsCallback} (h : l.Underway ops base) (hfn : fn ops = ops.fn k)
    (hc : ∀ f, (c f ops.data).invocation = some ⟨k, f, ops.data⟩)
    (hnote : note.invocation = none)
    (hnext : ∀ s, Follows old s → Follows new (next s k)) :
    (l.switch old new fn c note).Underway ops base := by
  obtain ⟨hops, mid, hmid, hfollows⟩ := h
  refine ⟨switch_ops.trans hops, mid ++ (if l.state = old then [k] else []), ?_, ?_⟩
  · rw [invocations_switch hops hfn hc hnote, hmid, List.append_assoc, List.filterMap_append]
    congr 2
    split <;> rfl
  · rw [switch_state hops]
    by_cases hold : l.state = old
    · rw [if_pos hold, if_pos hold, Machine.run_snoc]
      exact hnext _ (hold ▸ hfollows)
    · rw [if_neg hold, if_neg hold, List.append_nil]
      exact hfollows

/-- **One event** continues the word. -/
theorem Underway.step (h : l.Underway ops base) (x : Event × Answers) :
    (l.step x).Underway ops base := by
  have hstep := l.step_spec x
  generalize x.1 = e at hstep
  generalize l.step x = l' at hstep
  cases hstep with
  | reset b => exact h.reset b
  | terminate => exact h.terminate
  | @background e wins he hvisible hactive =>
      have hwins : ({ l with wins := wins, bActive := false } : Life).Underway ops base :=
        ⟨h.ops_eq, h.word⟩
      refine hwins.switch rfl (fun _ => rfl) rfl ?_
      rintro _ rfl
      rfl
  | @foreground win o wins hvisible hactive =>
      have hwins : ({ l with wins := wins, bActive := true } : Life).Underway ops base :=
        ⟨h.ops_eq, h.word⟩
      refine hwins.switch rfl (fun _ => rfl) rfl ?_
      rintro _ rfl
      rfl
  | windows => exact ⟨h.ops_eq, h.word⟩

end Life

namespace Process

/-- The callbacks a process has invoked, with their functions and data. -/
def invocations (p : Process) : List Invocation :=
  p.calls.filterMap Call.invocation

/-- The invocations are those of the life cycle. -/
theorem invocations_eq (p : Process) : p.invocations = p.life.invocations := by
  rw [invocations, Life.invocations, life, List.filterMap_filter]
  refine List.filterMap_congr fun c _ => ?_
  cases c <;> rfl

/-! ### The life cycle under actions -/

/-- A notification takes no part in the life cycle. -/
theorem life_vconfCb (n : Notification) (p : Process) : (p.vconfCb n).life = p.life := by
  refine vconfCb_rule (I := fun q => q.life = p.life) ?_ ?_ ?_ ?_ rfl
  · exact fun fn data q hq => (life_call_of_not_isLife rfl q).trans hq
  · exact fun c _ q hq => (life_runApi c q).trans hq
  · exact fun i q hq => hq
  · intro q hq
    rw [← hq, cbApp]
    split
    · exact life_call_of_not_isLife rfl q
    · split
      · exact life_call_of_not_isLife rfl q
      · exact life_doApp .lowmemPost none n.answers q
      · exact life_call_of_not_isLife rfl q

/-- `cb_app` acts on the life cycle as `__do_app` does, or not at all. -/
theorem life_cbApp (event : AppEvent) (b : Ptr) (a : Answers) (p : Process) :
    (p.cbApp event b a).life = p.life ∨ (p.cbApp event b a).life = lifeTail event b p.life := by
  rw [cbApp]
  split
  · exact .inl (life_call_of_not_isLife rfl p)
  · split
    · exact .inl (life_call_of_not_isLife rfl p)
    · exact .inr (life_doApp event b a p)
    · exact .inl (life_call_of_not_isLife rfl p)

/-- A request of the AUL daemon resets the application, terminates it, or takes no part in
its life cycle. -/
theorem life_aulHandler (type : AulType) (b : Ptr) (a : Answers) (p : Process) :
    (p.aulHandler type b a).life = p.life ∨ (p.aulHandler type b a).life = p.life.reset b ∨
      (p.aulHandler type b a).life = p.life.terminate := by
  cases type with
  | start =>
      rw [aulHandler, appReset]
      split
      · exact .inl rfl
      · split
        · exact .inl rfl
        · rcases life_cbApp .reset b a p with h | h
          · exact .inl h
          · exact .inr (.inl h)
  | resume => exact .inl rfl
  | terminate =>
      rw [aulHandler, appTerminate]
      split
      · exact .inl rfl
      · split
        · exact .inl rfl
        · rcases life_cbApp .terminate none a p with h | h
          · exact .inl h
          · exact .inr (.inr h)
  | other => exact .inl rfl

/-- The end of a call invokes `terminate`, forgets the application, and leaves the rest of
the life cycle. -/
theorem life_leave {p : Process} {ops : AppcoreOps} (hops : p.priv.ops = some ops)
    (a : Rotation.Answers) (cs : List ApiCall) :
    (p.leave a cs).life =
      ⟨.none, none, p.bActive, p.gWinnodeList, p.life.trace ++ terminateCalls ops⟩ := by
  have hloop : (p.exitLoop a).life = p.life := life_appcoreExit _
  have hexit : (p.exitLoop a).priv.ops = some ops := (congrArg Life.ops hloop).trans hops
  have hdown (q : Process) :
      q.tearDown.life = ⟨.none, none, q.life.bActive, q.life.wins, q.life.trace⟩ := by
    rw [tearDown_eq, life, Life.mk.injEq]
    refine ⟨rfl, rfl, rfl, rfl, ?_⟩
    cases q.priv.mftimer <;> simp [Call.isLife, life]
  rw [leave, hdown, life_runTerminate cs hexit, hloop]
  rfl

/-! ### Words -/

/-- A call of `appcore_efl_main` that gets as far as `create`: its table of callbacks, and
what `create` returns if there is one. -/
structure Opening where
  ops : AppcoreOps
  createRet : ℤ
  deriving DecidableEq, Repr

/-- There is a callback `create`, and it returns -1. -/
def Opening.GivesUp (o : Opening) : Prop :=
  o.ops.create ≠ none ∧ o.createRet = -1

instance (o : Opening) : Decidable o.GivesUp :=
  inferInstanceAs (Decidable (_ ∧ _))

/-- What such a call is to invoke. -/
structure Word extends Opening where
  callbacks : List OpsCallback

/-- The invocations of a word: NULL members are passed over. -/
def Word.spell (w : Word) : List Invocation :=
  w.callbacks.filterMap w.ops.invocation

/-- The call is over: its `create` gave it up and was its only callback, or it ran to its
end, from `create` to `terminate`. -/
def Word.Finished (w : Word) : Prop :=
  if w.GivesUp then w.callbacks = [.create]
  else ∃ mid, w.callbacks = .create :: mid ++ [.terminate] ∧ Middle mid

/-- The call is under way. -/
def Word.Unfinished (w : Word) : Prop :=
  ¬ w.GivesUp ∧ ∃ mid, w.callbacks = .create :: mid ∧ Middle mid

instance (m : MainCall) (p : Process) : Decidable (Admits m p) :=
  decidable_of_iff
    ((p.priv.name = none ∧ m.name ≠ none ∧ m.name ≠ some "" ∧ m.ops ≠ none ∧
      m.start.strdup = true ∧ m.argc ≠ none ∧ m.argv ≠ none) ∧ p.core.state = 0 ∧
      (p.i18n.setI18n m.name m.start.init.i18n).1 ≠ -1 ∧ ¬ m.start.init.aulLaunchInit < 0 ∧
      ¬ m.start.init.aulLaunchArgvHandler < 0)
    ⟨fun ⟨⟨h₁, h₂, h₃, h₄, h₅, h₆, h₇⟩, h₈, h₉, h₁₀, h₁₁⟩ =>
        ⟨h₁, h₂, h₃, h₄, h₅, h₆, h₇, h₈, h₉, h₁₀, h₁₁⟩,
      fun ⟨h₁, h₂, h₃, h₄, h₅, h₆, h₇, h₈, h₉, h₁₀, h₁₁⟩ =>
        ⟨⟨h₁, h₂, h₃, h₄, h₅, h₆, h₇⟩, h₈, h₉, h₁₀, h₁₁⟩⟩

/-- The call that gets as far as `create` with this action. -/
def opens (p : Process) (x : Action) : List Opening :=
  match x with
  | .enter m => if Admits m p then m.ops.toList.map (⟨·, m.start.create⟩) else []
  | _ => []

/-- Only the start of a call gets there. -/
theorem opens_of_not_enter {x : Action} (hx : ∀ m, x ≠ .enter m) (p : Process) :
    p.opens x = [] := by
  cases x with
  | enter m => exact absurd rfl (hx m)
  | _ => rfl

/-- The calls that get as far as `create`, in their order. -/
def opened : Process → List Action → List Opening :=
  Machine.outputs fun p x => (p.act x, p.opens x)

/-- **The trace is spelled by words**: of the calls that are over, and of the one under
way. -/
structure Spelled (calls : List Opening) (done : List Word) (p : Process) : Prop where
  name_iff : p.priv.name = none ↔ p.priv.ops = none
  finished : ∀ w ∈ done, w.Finished
  idle : p.priv.ops = none →
    p.invocations = done.flatMap Word.spell ∧ done.map Word.toOpening = calls
  busy : ∀ ops, p.priv.ops = some ops →
    p.life.Underway ops (done.flatMap Word.spell ++ (ops.invocation .create).toList) ∧
      ∃ ret, ¬ Opening.GivesUp ⟨ops, ret⟩ ∧ done.map Word.toOpening ++ [⟨ops, ret⟩] = calls

variable {calls : List Opening} {done : List Word} {p q : Process}

/-- What leaves the life cycle alone leaves the words alone. -/
theorem Spelled.congr (h : Spelled calls done p) (hlife : q.life = p.life)
    (hname : q.priv.name = p.priv.name) : Spelled calls done q := by
  have hops : q.priv.ops = p.priv.ops := congrArg Life.ops hlife
  refine ⟨?_, h.finished, fun hnone => ?_, fun ops hsome => ?_⟩
  · rw [hname, hops]
    exact h.name_iff
  · rw [invocations_eq, hlife, ← invocations_eq]
    exact h.idle (hops ▸ hnone)
  · rw [hlife]
    exact h.busy ops (hops ▸ hsome)

/-- A step of the life cycle under which every word goes on. -/
theorem Spelled.move (h : Spelled calls done p) (hname : q.priv.name = p.priv.name)
    (hops : q.priv.ops = p.priv.ops)
    (hidle : p.priv.ops = none → q.invocations = p.invocations)
    (hbusy : ∀ ops base, p.life.Underway ops base → q.life.Underway ops base) :
    Spelled calls done q := by
  refine ⟨?_, h.finished, fun hnone => ?_, fun ops hsome => ?_⟩
  · rw [hname, hops]
    exact h.name_iff
  · rw [hops] at hnone
    rw [hidle hnone]
    exact h.idle hnone
  · obtain ⟨hunderway, hcalls⟩ := h.busy ops (hops ▸ hsome)
    exact ⟨hbusy _ _ hunderway, hcalls⟩

/-! ### The start of a call -/

/-- A start-up that does not enter the loop leaves the data of a call under way alone, or
forgets its own. -/
theorem priv_startUp_of_fst {m : MainCall} (hfst : (p.startUp m).1 = -1) :
    (p.startUp m).2.priv = p.priv ∨
      (p.startUp m).2.priv.name = none ∧ (p.startUp m).2.priv.ops = none := by
  have hstarted := started_startUp m p
  generalize p.startUp m = r at hstarted hfst
  cases hstarted with
  | refused => exact .inl rfl
  | failed _ => exact .inr ⟨rfl, rfl⟩
  | entered _ _ => exact absurd hfst (by simp)

/-- What is appended to the trace is invoked. -/
theorem invocations_of_trace {l : List Call} (h : q.life.trace = p.life.trace ++ l) :
    q.invocations = p.invocations ++ l.filterMap Call.invocation := by
  rw [invocations_eq, invocations_eq, Life.invocations, h, List.filterMap_append]
  rfl

/-- The entry of `create`. -/
theorem filterMap_createCalls (ops : AppcoreOps) :
    (createCalls ops).filterMap Call.invocation = (ops.invocation .create).toList :=
  filterMap_invocation rfl fun _ => rfl

/-- The entry of `terminate`. -/
theorem filterMap_terminateCalls (ops : AppcoreOps) :
    (terminateCalls ops).filterMap Call.invocation = (ops.invocation .terminate).toList :=
  filterMap_invocation rfl fun _ => rfl

/-- A call that is refused, or fails before `create`, writes no word. -/
theorem Spelled.not_admits (h : Spelled calls done p) {m : MainCall} (hm : ¬ Admits m p) :
    Spelled calls done (p.startUp m).2 := by
  by_cases hidle : p.priv.name = none
  · obtain ⟨hfst, htrace, -, -⟩ := startUp_of_not_admits hm
    have hops : p.priv.ops = none := h.name_iff.mp hidle
    obtain ⟨hname', hops'⟩ : (p.startUp m).2.priv.name = none ∧
        (p.startUp m).2.priv.ops = none := by
      rcases priv_startUp_of_fst hfst with hpriv | hnone
      · rw [hpriv]
        exact ⟨hidle, hops⟩
      · exact hnone
    obtain ⟨hinv, hcalls⟩ := h.idle hops
    have hsame : (p.startUp m).2.invocations = p.invocations := by
      simpa using invocations_of_trace (htrace.trans (List.append_nil _).symm)
    refine ⟨iff_of_true hname' hops', h.finished, fun _ => ⟨hsame.trans hinv, hcalls⟩, ?_⟩
    intro ops hsome
    rw [hops'] at hsome
    cases hsome
  · rw [startUp_of_busy hidle]
    exact h

/-- A call whose `create` gives it up writes the word of `create`. -/
theorem Spelled.createFails (h : Spelled calls done p) {m : MainCall} {ops : AppcoreOps}
    (hm : Admits m p) (hops : m.ops = some ops) (hcreate : CreateFails m) :
    Spelled (calls ++ [⟨ops, m.start.create⟩])
      (done ++ [⟨⟨ops, m.start.create⟩, [.create]⟩]) (p.startUp m).2 := by
  obtain ⟨hfst, hlife⟩ := startUp_of_createFails hm hcreate hops
  obtain ⟨hinv, hcalls⟩ := h.idle (h.name_iff.mp hm.idle)
  have hops' : (p.startUp m).2.priv.ops = none := congrArg Life.ops hlife
  have hname' : (p.startUp m).2.priv.name = none := by
    rcases priv_startUp_of_fst hfst with hpriv | hnone
    · rw [hpriv]
      exact hm.idle
    · exact hnone.1
  have hfn : ops.create ≠ none := by
    have hbind := hcreate.1
    rwa [hops] at hbind
  refine ⟨iff_of_true hname' hops', ?_, fun _ => ⟨?_, ?_⟩, fun ops' hsome => ?_⟩
  · intro w hw
    rcases List.mem_append.mp hw with hw | hw
    · exact h.finished w hw
    · obtain rfl := List.mem_singleton.mp hw
      rw [Word.Finished, if_pos ⟨hfn, hcreate.2⟩]
  · have hword : Word.spell ⟨⟨ops, m.start.create⟩, [.create]⟩ =
        (ops.invocation .create).toList := by
      rw [Word.spell]
      cases hc : ops.invocation .create <;> simp [hc]
    rw [invocations_of_trace (congrArg Life.trace hlife), filterMap_createCalls, hinv,
      List.flatMap_append, List.flatMap_singleton, hword]
  · rw [List.map_append, hcalls]
    rfl
  · rw [hops'] at hsome
    cases hsome

/-- A call that enters the loop opens a word. -/
theorem Spelled.starts (h : Spelled calls done p) {m : MainCall} {ops : AppcoreOps}
    (hm : Starts m p) (hops : m.ops = some ops) :
    Spelled (calls ++ [⟨ops, m.start.create⟩]) done (p.startUp m).2 := by
  obtain ⟨hfst, hlife⟩ := startUp_of_starts hm hops
  obtain ⟨hinv, hcalls⟩ := h.idle (h.name_iff.mp hm.1.idle)
  have hops' : (p.startUp m).2.priv.ops = some ops := congrArg Life.ops hlife
  have hname' : (p.startUp m).2.priv.name ≠ none := (name_startUp hm.1.idle m).mpr hfst
  have hentry : (entryLife ops p).Underway ops
      (done.flatMap Word.spell ++ (ops.invocation .create).toList) := by
    refine ⟨rfl, [], ?_, rfl⟩
    change (p.life.trace ++ createCalls ops).filterMap Call.invocation = _
    rw [List.filterMap_append, filterMap_createCalls, ← hinv, invocations_eq]
    exact (List.append_nil _).symm
  refine ⟨iff_of_false hname' (by simp [hops']), h.finished, fun hnone => ?_, fun o ho => ?_⟩
  · rw [hops'] at hnone
    cases hnone
  · obtain rfl : ops = o := Option.some.inj (hops'.symm.trans ho)
    rw [hlife]
    refine ⟨hentry, m.start.create, fun hgives => hm.2 ?_, by rw [hcalls]⟩
    rw [CreateFails, hops]
    exact hgives

/-- The end of a call closes its word. -/
theorem Spelled.leave (h : Spelled calls done p) {ops : AppcoreOps}
    (hops : p.priv.ops = some ops) (a : Rotation.Answers) (cs : List ApiCall) :
    ∃ done', Spelled calls done' (p.leave a cs) := by
  obtain ⟨⟨-, mid, hmid, hfollows⟩, ret, hgives, hcalls⟩ := h.busy ops hops
  have hlife := life_leave hops a cs
  have hops' : (p.leave a cs).priv.ops = none := congrArg Life.ops hlife
  refine ⟨done ++ [⟨⟨ops, ret⟩, .create :: mid ++ [.terminate]⟩], ⟨iff_of_true rfl hops', ?_,
    fun _ => ⟨?_, ?_⟩, fun o ho => ?_⟩⟩
  · intro w hw
    rcases List.mem_append.mp hw with hw | hw
    · exact h.finished w hw
    · obtain rfl := List.mem_singleton.mp hw
      rw [Word.Finished, if_neg hgives]
      exact ⟨mid, rfl, middle_of_alive hfollows.alive⟩
  · have hword : Word.spell ⟨⟨ops, ret⟩, .create :: mid ++ [.terminate]⟩ =
        (ops.invocation .create).toList ++ mid.filterMap ops.invocation ++
          (ops.invocation .terminate).toList := by
      rw [Word.spell, List.filterMap_append]
      cases hc : ops.invocation .create <;> cases ht : ops.invocation .terminate <;>
        simp [hc, ht]
    rw [invocations_of_trace (congrArg Life.trace hlife), filterMap_terminateCalls,
      invocations_eq, hmid, List.flatMap_append, List.flatMap_singleton, hword]
    simp only [List.append_assoc]
  · rw [List.map_append]
    exact hcalls
  · rw [hops'] at ho
    cases ho

/-! ### The grammar -/

/-- A request of the daemon neither begins nor ends a call. -/
theorem name_aulHandler (type : AulType) (b : Ptr) (a : Answers) (p : Process) :
    (p.aulHandler type b a).priv.name = p.priv.name := by
  have hacted := acted_aulHandler type b a p
  generalize hx : Action.aul type b a = x at hacted
  generalize p.aulHandler type b a = q at hacted
  cases hacted with
  | request _ _ =>
      obtain ⟨_, _, _, _, _, hq, -⟩ := does_frame (does_doApp _ _ _ p)
      rw [hq]
  | outside h =>
      obtain ⟨_, _, _, _, _, _, _, -, hq⟩ := h
      rw [hq]
  | enter m => cases hx
  | leave _ _ _ => cases hx
  | loop _ _ => cases hx

/-- A request of the AUL daemon goes on with the word of the call under way. Outside of a
call it invokes nothing. -/
theorem Spelled.aulHandler (h : Spelled calls done p) (type : AulType) (b : Ptr)
    (a : Answers) : Spelled calls done (p.aulHandler type b a) := by
  have hname := name_aulHandler type b a p
  rcases life_aulHandler type b a p with hlife | hlife | hlife
  · exact h.congr hlife hname
  · refine h.move hname ?_ ?_ ?_
    · exact (congrArg Life.ops hlife).trans (Life.reset_ops b p.life)
    · intro hnone
      have hsame : p.life.reset b = p.life := by
        rw [Life.reset, show p.life.ops = none from hnone]
      rw [invocations_eq, hlife, hsame, invocations_eq]
    · intro ops base hunderway
      rw [hlife]
      exact hunderway.reset b
  · refine h.move hname (congrArg Life.ops hlife) ?_ ?_
    · intro _
      rw [invocations_eq, hlife, invocations_eq]
      rfl
    · intro ops base hunderway
      rw [hlife]
      exact hunderway.terminate

/-- The start of a call opens a word if it enters the loop. -/
theorem Spelled.startUp (h : Spelled calls done p) (m : MainCall) :
    ∃ done', Spelled (calls ++ p.opens (.enter m)) done' (p.startUp m).2 := by
  by_cases hm : Admits m p
  · obtain ⟨ops, hops⟩ := Option.ne_none_iff_exists'.mp hm.ops_ne_none
    have hopens : p.opens (.enter m) = [⟨ops, m.start.create⟩] := by
      rw [opens, if_pos hm, hops]
      rfl
    rw [hopens]
    by_cases hcreate : CreateFails m
    · exact ⟨_, h.createFails hm hops hcreate⟩
    · exact ⟨_, h.starts ⟨hm, hcreate⟩ hops⟩
  · have hopens : p.opens (.enter m) = [] := if_neg hm
    rw [hopens, List.append_nil]
    exact ⟨_, h.not_admits hm⟩

/-- **One action** opens, goes on with or closes a word, or leaves the words alone. -/
theorem spelled_act (h : Spelled calls done p) (x : Action) :
    ∃ done', Spelled (calls ++ p.opens x) done' (p.act x) := by
  cases x with
  | enter m => exact h.startUp m
  | handle x =>
      rw [opens_of_not_enter (by simp), List.append_nil, act]
      split
      · exact ⟨_, h⟩
      · rename_i hname
        refine ⟨_, h.move (name_step p x) ?_ (fun hnone => ?_) fun ops base hunderway => ?_⟩
        · exact (congrArg Life.ops (life_step p x)).trans (ops_step p.life x)
        · exact absurd (h.name_iff.mpr hnone) hname
        · rw [life_step]
          exact hunderway.step x
  | leave a cs =>
      rw [opens_of_not_enter (by simp), List.append_nil, act]
      split
      · exact ⟨_, h⟩
      · rename_i hname
        obtain ⟨ops, hops⟩ := Option.ne_none_iff_exists'.mp fun hnone =>
          hname (h.name_iff.mpr hnone)
        exact h.leave hops a cs
  | api c =>
      rw [opens_of_not_enter (by simp), List.append_nil]
      exact ⟨_, h.congr (life_runApi c p) (congrArg UiPriv.name (priv_runApi c p))⟩
  | vconf n =>
      rw [opens_of_not_enter (by simp), List.append_nil, act]
      split
      · obtain ⟨_, _, _, _, _, _, _, -, hq⟩ := outside_vconfCb n p
        exact ⟨_, h.congr (life_vconfCb n p) (by rw [hq])⟩
      · exact ⟨_, h⟩
  | aul type b a =>
      rw [opens_of_not_enter (by simp), List.append_nil, act]
      split
      · exact ⟨_, h.aulHandler type b a⟩
      · exact ⟨_, h⟩

/-- The words of a run. -/
theorem spelled_run (h : Spelled calls done p) (as : List Action) :
    ∃ done', Spelled (calls ++ opened p as) done' (Machine.run act p as) := by
  induction as generalizing calls done p with
  | nil => exact ⟨done, by simpa [opened] using h⟩
  | cons x as ih =>
      obtain ⟨done', h'⟩ := spelled_act h x
      obtain ⟨done'', h''⟩ := ih h'
      refine ⟨done'', ?_⟩
      rw [Machine.run_cons, opened, Machine.outputs_cons, ← List.append_assoc]
      exact h''

/-- A fresh process has invoked nothing. -/
theorem spelled_fresh (env : EnvVar → Option String) (locale : LcCategory → String)
    (rotateLock : Bool) : Spelled [] [] (.fresh env locale rotateLock) := by
  refine ⟨iff_of_true rfl rfl, by simp, fun _ => ⟨rfl, rfl⟩, fun ops hops => ?_⟩
  cases hops

/-- **The callbacks of a session are the words of its calls.** In a fresh process, after
any sequence of actions, every life-cycle callback that was invoked belongs to the word of
one call: the calls that got as far as `create` have one word each, in their order, and it
invokes the callbacks of the table of this call with the data of this table only. The word of
a call whose `create` returned -1 is `create` alone; that of any other call that is over ends
with `terminate`. The last word is open exactly while a call is under way. -/
theorem session_grammar (env : EnvVar → Option String) (locale : LcCategory → String)
    (rotateLock : Bool) (as : List Action) :
    let p₀ := fresh env locale rotateLock
    let p := Machine.run act p₀ as
    ∃ (done : List Word) (current : Option Word),
      p.invocations = (done ++ current.toList).flatMap Word.spell ∧
      (done ++ current.toList).map Word.toOpening = opened p₀ as ∧
      (∀ w ∈ done, w.Finished) ∧ (∀ w ∈ current, w.Unfinished) ∧
      current.map (·.ops) = p.priv.ops ∧ (p.priv.name ≠ none ↔ current ≠ none) := by
  obtain ⟨done, hname, hfinished, hidle, hbusy⟩ :=
    spelled_run (spelled_fresh env locale rotateLock) as
  dsimp only
  generalize Machine.run act (fresh env locale rotateLock) as = p at hname hidle hbusy
  cases hops : p.priv.ops with
  | none =>
      obtain ⟨hinv, hcalls⟩ := hidle hops
      refine ⟨done, none, ?_, ?_, hfinished, by simp, rfl, ?_⟩
      · simpa using hinv
      · simpa using hcalls
      · exact iff_of_false (not_not.mpr (hname.mpr hops)) (by simp)
  | some ops =>
      obtain ⟨⟨-, mid, hmid, hfollows⟩, ret, hgives, hcalls⟩ := hbusy ops hops
      have hspell : Word.spell ⟨⟨ops, ret⟩, .create :: mid⟩ =
          (ops.invocation .create).toList ++ mid.filterMap ops.invocation := by
        rw [Word.spell]
        cases hc : ops.invocation .create <;> simp [hc]
      refine ⟨done, some ⟨⟨ops, ret⟩, .create :: mid⟩, ?_, ?_, hfinished, ?_, rfl, ?_⟩
      · rw [invocations_eq, hmid, Option.toList_some, List.flatMap_append,
          List.flatMap_singleton, hspell, List.append_assoc]
      · simpa using hcalls
      · rintro _ ⟨⟩
        exact ⟨hgives, mid, rfl, middle_of_alive hfollows.alive⟩
      · refine iff_of_true (fun hnone => ?_) (by simp)
        rw [hname.mp hnone] at hops
        cases hops

end Process

end AppCore
