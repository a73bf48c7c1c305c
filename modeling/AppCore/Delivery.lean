import AppCore.SessionCallbacks
import AppCore.Targets

/-!
# What Reaches the Application

The requests of the AUL daemon take the way through `appcore.c`: `__aul_handler` hands them
to `cb_app`, which is `__do_app` as long as the core is initialised with `efl_ops`. The
events of the main loop do not take this way. So whether a launch request reaches the
application depends on its `appcore_exit` calls, and on nothing else that happens in a
session.

`handed` reads off a list of actions which events they hand to the application, without
running anything. The life cycle of a call is the abstract one over these events.

## Main results

* `life_act`: one action of a call under way makes the steps of the events it delivers.
* `linked_act`: the way from the AUL daemon is open until `appcore_exit` is called.
* `life_session`: **the life cycle of a call in a session** is a run over the events that
  the actions hand to the application.
* `launches_session`: **no launch is lost and none is doubled**: `reset` is invoked once for
  each request that comes before an `appcore_exit`, in order and with its bundle.
-/

set_option autoImplicit false

namespace AppCore

/-- The call is `appcore_exit`. -/
def ApiCall.isExit : ApiCall → Bool
  | .exit => true
  | _ => false

namespace Process

/-! ### The way from the AUL daemon -/

/-- `__aul_handler` is registered and hands its requests to `__do_app`. -/
structure Up (p : Process) : Prop where
  aul : p.aul = true
  state : p.core.state = 1
  ops : p.core.ops = some eflOps

variable {p : Process}

/-- Only the registration and `core` matter. -/
theorem Up.congr {q : Process} (h : Up p) (haul : q.aul = p.aul) (hcore : q.core = p.core) :
    Up q :=
  ⟨haul ▸ h.aul, hcore ▸ h.state, hcore ▸ h.ops⟩

/-- No API call but `appcore_exit` takes the handler away: the others find the core in use. -/
theorem Up.runApi (h : Up p) {c : ApiCall} (hc : c.isExit = false) : Up (p.runApi c) := by
  cases c with
  | init name ops a =>
      rw [Process.runApi, appcoreInit_eq, if_pos (by simp [h.state])]
      exact h
  | exit => simp [ApiCall.isExit] at hc
  | setEventCallback event cb data =>
      rw [Process.runApi, setEventCallback]
      split
      · exact h
      · exact h
      · exact ⟨h.aul, h.state, h.ops⟩
  | setI18n domainname a => exact ⟨h.aul, h.state, h.ops⟩
  | setSystemResourceReclaiming enable => exact ⟨h.aul, h.state, h.ops⟩
  | flushMemory =>
      obtain ⟨_, -, hq⟩ := logs_appcoreFlushMemory p
      rw [Process.runApi, hq]
      exact ⟨h.aul, h.state, h.ops⟩
  | rotation c a ρ => exact ⟨h.aul, h.state, h.ops⟩

/-- `__do_app` leaves the other modules alone. -/
theorem platform_doApp (event : AppEvent) (b : Ptr) (a : Answers) (p : Process) :
    (p.doApp event b a).platform = p.platform := by
  obtain ⟨_, _, _, _, _, hq, -⟩ := does_frame (does_doApp event b a p)
  rw [hq]
  rfl

/-- `cb_app` leaves the rest of the process alone. -/
theorem platform_cbApp (event : AppEvent) (b : Ptr) (a : Answers) (p : Process) :
    (p.cbApp event b a).platform = p.platform := by
  rw [cbApp]
  split
  · rfl
  · split
    · rfl
    · exact platform_doApp event b a p
    · rfl

/-- A request of the daemon leaves the rest of the process alone. -/
theorem platform_aulHandler (type : AulType) (b : Ptr) (a : Answers) (p : Process) :
    (p.aulHandler type b a).platform = p.platform := by
  cases type with
  | start =>
      rw [aulHandler, appReset]
      split
      · rfl
      · split
        · rfl
        · exact platform_cbApp .reset b a p
  | resume => rfl
  | terminate =>
      rw [aulHandler, appTerminate]
      split
      · rfl
      · split
        · rfl
        · exact platform_cbApp .terminate none a p
  | other => rfl

/-- What the daemon's requests do to the life cycle, with the way to `__do_app` resolved. -/
theorem life_aulHandler_start (b : Ptr) (a : Answers) (p : Process) :
    (p.aulHandler .start b a).life =
      if p.core.ops.bind UiOps.cbApp = some .doApp then p.life.reset b else p.life := by
  rw [aulHandler, appReset]
  cases hops : p.core.ops with
  | none => rfl
  | some ops =>
      cases hcb : ops.cbApp with
      | none => simp [hcb]
      | some cb =>
          simp only [hcb, Option.bind_some, reduceCtorEq, if_false, cbApp, hops]
          cases cb with
          | doApp => exact (life_doApp .reset b a p).trans (if_pos rfl).symm
          | other fn =>
              rw [if_neg (by simp)]
              exact life_call_of_not_isLife rfl p

/-- A request to terminate reaches the life cycle if `cb_app` is `__do_app`. -/
theorem life_aulHandler_terminate (b : Ptr) (a : Answers) (p : Process) :
    (p.aulHandler .terminate b a).life =
      if p.core.ops.bind UiOps.cbApp = some .doApp then p.life.terminate else p.life := by
  rw [aulHandler, appTerminate]
  cases hops : p.core.ops with
  | none => rfl
  | some ops =>
      cases hcb : ops.cbApp with
      | none => simp [hcb]
      | some cb =>
          simp only [hcb, Option.bind_some, reduceCtorEq, if_false, cbApp, hops]
          cases cb with
          | doApp => exact (life_doApp .terminate none a p).trans (if_pos rfl).symm
          | other fn =>
              rw [if_neg (by simp)]
              exact life_call_of_not_isLife rfl p

/-! ### Whether the way is open -/

/-- The application calls `appcore_exit`, in its loop or elsewhere. -/
def Action.exits : Action → Bool
  | .api c => c.isExit
  | .handle (.api c, _) => c.isExit
  | _ => false

/-- The action ends the call. -/
def Action.isLeave : Action → Bool
  | .leave .. => true
  | _ => false

/-- The way from the AUL daemon to `__do_app` is open, or closed for good. -/
def Linked (up : Bool) (p : Process) : Prop :=
  if up = true then Up p else p.Foreign

/-- Only `core` matters. -/
theorem Foreign.congr {q : Process} (h : p.Foreign) (hcore : q.core = p.core) : q.Foreign := by
  rw [Foreign, hcore]
  exact h

/-- After `appcore_exit` the core does not lead to `__do_app`. -/
theorem foreign_appcoreExit (h : p.Foreign ∨ Up p) : p.appcoreExit.Foreign := by
  rw [appcoreExit_eq]
  split
  · simp [Foreign, Appcore.zero]
  · rename_i hstate
    rcases h with h | h
    · exact h
    · exact absurd (by simp [h.state]) hstate

/-- **One API call** of a legal application leaves the way open, unless it is
`appcore_exit`; no call opens it again. -/
theorem Linked.runApi {up : Bool} (h : Linked up p) {c : ApiCall} (hc : c.Legal) :
    Linked (up && !c.isExit) (p.runApi c) := by
  cases hexit : c.isExit with
  | false =>
      cases up with
      | true => exact Up.runApi h hexit
      | false => exact Foreign.runApi h hc
  | true =>
      have hforeign : p.appcoreExit.Foreign := by
        refine foreign_appcoreExit ?_
        cases up with
        | true => exact .inr h
        | false => exact .inl h
      cases c with
      | exit =>
          rw [Bool.not_true, Bool.and_false]
          exact hforeign
      | _ => simp [ApiCall.isExit] at hexit

/-- Only the registration and `core` matter. -/
theorem Linked.congr {up : Bool} {q : Process} (h : Linked up p) (haul : q.aul = p.aul)
    (hcore : q.core = p.core) : Linked up q := by
  cases up with
  | true => exact Up.congr h haul hcore
  | false => exact Foreign.congr h hcore

/-- Only the platform matters. -/
theorem Linked.platform {up : Bool} {q : Process} (h : Linked up p)
    (hplatform : q.platform = p.platform) : Linked up q :=
  h.congr (congrArg Platform.aul hplatform) (congrArg Platform.core hplatform)

/-- A list of API calls closes the way if one of them is `appcore_exit`. -/
theorem Linked.foldl_runApi {up : Bool} (h : Linked up p) {cs : List ApiCall}
    (hcs : ∀ c ∈ cs, c.Legal) :
    Linked (up && !cs.any ApiCall.isExit) (cs.foldl (fun p c => p.runApi c) p) := by
  induction cs generalizing up p with
  | nil => simpa using h
  | cons c cs ih =>
      have hc := h.runApi (hcs c List.mem_cons_self)
      have := ih hc fun d hd => hcs d (List.mem_cons_of_mem c hd)
      rwa [Bool.and_assoc, ← Bool.not_or] at this

/-- An `appcore_init` of `appcore_efl_main` that succeeds registers the handler for `__do_app`.
-/
theorem up_appcoreInit {name : Option String} {a : InitAnswers}
    (h : (p.appcoreInit name (some eflOps) a).1 ≠ -1) :
    Up (p.appcoreInit name (some eflOps) a).2 := by
  revert h
  rw [appcoreInit_eq]
  dsimp only
  split_ifs <;> intro h
  · exact absurd rfl h
  · exact absurd rfl h
  · exact absurd rfl h
  · exact absurd rfl h
  · exact ⟨rfl, rfl, rfl⟩

/-- The callback `create` does not call `appcore_exit`. -/
def linksUp (m : MainCall) : Bool :=
  (m.ops.bind AppcoreOps.create).isNone || !m.start.createApi.any ApiCall.isExit

/-- The start-up of a call opens the way, unless the callback `create` closes it. -/
theorem linked_startUp {m : MainCall} (h : Starts m p)
    (hlegal : ∀ c ∈ m.start.createApi, c.Legal) : Linked (linksUp m) (p.startUp m).2 := by
  obtain ⟨hadmits, hcreate⟩ := h
  have hvalid : Valid m :=
    ⟨hadmits.name_ne_none, hadmits.name_ne_empty, hadmits.ops_ne_none, hadmits.strdup⟩
  have hargs : ¬ (m.argc = none ∨ m.argv = none) :=
    not_or.mpr ⟨hadmits.argc_ne_none, hadmits.argv_ne_none⟩
  have hinit : (p.initCall m).1 ≠ -1 := (appcoreInit_dataSet_fst m p).mpr
    ⟨hadmits.core_idle, hadmits.i18n_ok, hadmits.aulLaunchInit_ok,
      hadmits.aulLaunchArgvHandler_ok⟩
  have hup : Linked true (p.initCall m).2 := up_appcoreInit hinit
  rw [startUp_eq hadmits.idle, if_neg (not_not.mpr hvalid), if_neg hargs]
  dsimp only
  rw [if_neg hinit, if_neg hcreate]
  have hcall : Linked (linksUp m) ((p.initCall m).2.createCall m) := by
    obtain ⟨ops, hops⟩ := Option.ne_none_iff_exists'.mp hadmits.ops_ne_none
    rw [createCall, linksUp, hops, Option.bind_some]
    dsimp only
    cases hfn : ops.create with
    | none => exact hup
    | some fn =>
        have hcalled : Linked true ((p.initCall m).2.call (.create fn ops.data)) :=
          hup.congr rfl rfl
        exact hcalled.foldl_runApi hlegal
  exact hcall.congr rfl rfl

/-- **One action** of a call under way leaves the way open, unless it calls
`appcore_exit`. -/
theorem linked_act {up : Bool} (h : Linked up p) (hname : p.priv.name ≠ none) {x : Action}
    (hleave : x.isLeave = false) (hx : x.Legal) : Linked (up && !x.exits) (p.act x) := by
  obtain ⟨hlegal, hvconf⟩ := hx
  cases x with
  | enter m =>
      rw [act, startUp_of_busy hname]
      simpa [Action.exits] using h
  | handle x =>
      rw [act, if_neg hname]
      obtain ⟨e, a⟩ := x
      by_cases hapi : ∃ c, e = .api c
      · obtain ⟨c, rfl⟩ := hapi
        exact h.runApi (hlegal c (by simp [Action.apiCalls]))
      · have hne : ∀ c, (e, a).1 ≠ .api c := fun c hc => hapi ⟨c, hc⟩
        have hexits : Action.exits (.handle (e, a)) = false := by
          cases e <;> first | rfl | exact absurd rfl (hne _)
        rw [hexits, Bool.not_false, Bool.and_true]
        exact h.platform (platform_step p hne)
  | leave a cs => simp [Action.isLeave] at hleave
  | api c => exact h.runApi (hlegal c (by simp [Action.apiCalls]))
  | vconf n =>
      have hexits : Action.exits (.vconf n) = false := rfl
      rw [act, hexits, Bool.not_false, Bool.and_true]
      split
      · refine vconfCb_rule (I := Linked up) ?_ ?_ ?_ ?_ h
        · exact fun fn data q hq => hq.congr rfl rfl
        · intro c hc q hq
          have hexit : c.isExit = false := by
            cases c with
            | exit => exact absurd hc (hvconf n rfl)
            | _ => rfl
          simpa [hexit] using hq.runApi (hlegal c hc)
        · exact fun i q hq => hq.congr rfl rfl
        · exact fun q hq => hq.platform (platform_cbApp .lowmemPost none n.answers q)
      · exact h
  | aul type b a =>
      have hexits : Action.exits (.aul type b a) = false := rfl
      rw [act, hexits, Bool.not_false, Bool.and_true]
      split
      · exact h.platform (platform_aulHandler type b a p)
      · exact h

/-! ### The events handed to the application -/

/-- What an action hands to the application, if the way from the AUL daemon is `up`. -/
def Action.hands (up : Bool) : Action → List (Event × Answers)
  | .handle x => [x]
  | .aul .start b a => if up = true then [(.reset b, a)] else []
  | .aul .terminate _ a => if up = true then [(.terminate, a)] else []
  | _ => []

/-- What a list of actions hands to the application. -/
def handed : Bool → List Action → List (Event × Answers) :=
  Machine.outputs fun up x => (up && !x.exits, x.hands up)

/-- **One action** of a call under way makes the steps of what it hands over. -/
theorem life_act {up : Bool} (h : Linked up p) (hname : p.priv.name ≠ none) {x : Action}
    (hleave : x.isLeave = false) :
    (p.act x).life = Machine.run Life.step p.life (x.hands up) ∧
      (p.act x).priv.name = p.priv.name := by
  cases x with
  | enter m =>
      rw [act, startUp_of_busy hname]
      exact ⟨rfl, rfl⟩
  | handle x =>
      rw [act, if_neg hname]
      exact ⟨life_step p x, name_step p x⟩
  | leave a cs => simp [Action.isLeave] at hleave
  | api c => exact ⟨life_runApi c p, congrArg UiPriv.name (priv_runApi c p)⟩
  | vconf n =>
      rw [act]
      split
      · obtain ⟨_, _, _, _, _, _, _, -, hq⟩ := outside_vconfCb n p
        exact ⟨life_vconfCb n p, by rw [hq]⟩
      · exact ⟨rfl, rfl⟩
  | aul type b a =>
      have hname' : (p.act (.aul type b a)).priv.name = p.priv.name := by
        rw [act]
        split
        · exact name_aulHandler type b a p
        · rfl
      refine ⟨?_, hname'⟩
      rw [act]
      cases up with
      | true =>
          have hcb : p.core.ops.bind UiOps.cbApp = some .doApp := by rw [Up.ops h]; rfl
          rw [if_pos (Up.aul h)]
          cases type with
          | start => rw [life_aulHandler_start, if_pos hcb]; rfl
          | resume => rfl
          | terminate => rw [life_aulHandler_terminate, if_pos hcb]; rfl
          | other => rfl
      | false =>
          have hcb : ¬ p.core.ops.bind UiOps.cbApp = some .doApp := h
          split
          · cases type with
            | start => rw [life_aulHandler_start, if_neg hcb]; rfl
            | resume => rfl
            | terminate => rw [life_aulHandler_terminate, if_neg hcb]; rfl
            | other => rfl
          · cases type <;> rfl

/-- The life cycle in a session runs on the events that were handed to it. -/
theorem life_actions {up : Bool} (h : Linked up p) (hname : p.priv.name ≠ none)
    {as : List Action} (has : ∀ x ∈ as, x.isLeave = false ∧ x.Legal) :
    (Machine.run act p as).life = Machine.run Life.step p.life (handed up as) := by
  induction as generalizing up p with
  | nil => rfl
  | cons x as ih =>
      obtain ⟨⟨hleave, hx⟩, has⟩ := List.forall_mem_cons.mp has
      obtain ⟨hlife, hname'⟩ := life_act h hname hleave
      rw [Machine.run_cons, handed, Machine.outputs_cons, Machine.run_append, ← hlife]
      exact ih (linked_act h hname hleave hx) (hname'.symm ▸ hname) has

/-- **The life cycle of a call in a session.** From the entry of the loop on, whatever
happens in the process until the call ends, its life cycle is that of the loop over the
events which the actions hand to it: each event of the loop, and each request of the AUL
daemon before an `appcore_exit`. -/
theorem life_session {m : MainCall} {ops : AppcoreOps} (h : Starts m p) (hops : m.ops = some ops)
    (hlegal : ∀ c ∈ m.start.createApi, c.Legal) {as : List Action}
    (has : ∀ x ∈ as, x.isLeave = false ∧ x.Legal) :
    (Machine.run act (p.startUp m).2 as).life =
      Machine.run Life.step (entryLife ops p) (handed (linksUp m) as) := by
  obtain ⟨hfst, hlife⟩ := startUp_of_starts h hops
  have hname := (name_startUp h.1.idle m).mpr hfst
  rw [life_actions (linked_startUp h hlegal) hname has, hlife]

/-- Once the way is closed, it stays closed. -/
theorem handed_false (as : List Action) : handed false as = as.flatMap (Action.hands false) := by
  induction as with
  | nil => rfl
  | cons x as ih => exact congrArg (x.hands false ++ ·) ih

/-- What is handed over, action by action: the first `appcore_exit` closes the way. -/
theorem handed_eq (up : Bool) (as : List Action) :
    handed up as = (as.takeWhile fun x => !x.exits).flatMap (Action.hands up) ++
      (as.dropWhile fun x => !x.exits).flatMap (Action.hands false) := by
  induction as with
  | nil => rfl
  | cons x as ih =>
      rw [handed, Machine.outputs_cons]
      cases hx : x.exits with
      | false =>
          rw [List.takeWhile_cons_of_pos (by simp [hx]), List.dropWhile_cons_of_pos (by simp [hx]),
            List.flatMap_cons, List.append_assoc, ← ih, Bool.not_false, Bool.and_true]
          rfl
      | true =>
          have hhands : x.hands up = x.hands false := by
            cases x with
            | aul type b a => simp [Action.exits] at hx
            | _ => rfl
          rw [List.takeWhile_cons_of_neg (by simp [hx]), List.dropWhile_cons_of_neg (by simp [hx]),
            List.flatMap_nil, List.nil_append, List.flatMap_cons, hhands, Bool.not_true,
            Bool.and_false]
          exact congrArg (x.hands false ++ ·) (handed_false as)

end Process

/-! ### Launches -/

/-- A launch: an invocation of `reset` with the bundle it is given. -/
structure Launch where
  fn : Addr
  bundle : Ptr
  data : Ptr
  deriving DecidableEq, Repr

/-- The entry of the trace is a launch. -/
def Call.launch : Call → Option Launch
  | .reset fn b data => some ⟨fn, b, data⟩
  | _ => none

/-- The launch that a table makes of an event. -/
def AppcoreOps.launch (ops : AppcoreOps) : Event → Option Launch
  | .reset b => ops.reset.map fun fn => ⟨fn, b, ops.data⟩
  | _ => none

namespace Life

/-- The launches in the trace. -/
def launches (l : Life) : List Launch :=
  l.trace.filterMap Call.launch

/-- A switch launches nothing. -/
theorem launches_switch {old new : AppState} {fn : AppcoreOps → Ptr} {c : Addr → Ptr → Call}
    {note : Call} (hc : ∀ f data, (c f data).launch = none) (hnote : note.launch = none)
    (l : Life) : (l.switch old new fn c note).launches = l.launches := by
  cases hops : l.ops with
  | none => simp only [switch, hops]
  | some ops =>
      have hfn : ((fn ops).map (c · ops.data)).toList.filterMap Call.launch = [] := by
        cases fn ops <;> simp [hc]
      rw [launches, switch_trace hops, List.filterMap_append, List.filterMap_append]
      split
      · rw [hfn]
        simp [hnote, launches]
      · simp [hnote, launches]

/-- **One event** launches the application if it is a reset. -/
theorem launches_step {l : Life} {ops : AppcoreOps} (hops : l.ops = some ops)
    (x : Event × Answers) :
    (l.step x).launches = l.launches ++ (ops.launch x.1).toList := by
  have hstep := l.step_spec x
  generalize x.1 = e at hstep
  generalize l.step x = l' at hstep
  have hnone {e : Event} (he : ∀ b, e ≠ .reset b) : (ops.launch e).toList = [] := by
    cases e with
    | reset b => exact absurd rfl (he b)
    | _ => rfl
  cases hstep with
  | reset b =>
      have hfn : (ops.reset.map (.reset · b ops.data)).toList.filterMap Call.launch =
          (ops.launch (.reset b)).toList := by
        rw [AppcoreOps.launch]
        cases ops.reset <;> rfl
      rw [launches, reset_trace hops, List.filterMap_append, hfn]
      rfl
  | terminate => exact (List.append_nil _).symm
  | background he hvisible hactive =>
      have hne : ∀ b, e ≠ .reset b := by
        rintro b rfl
        exact he
      rw [launches_switch (fun _ _ => rfl) rfl, hnone hne, List.append_nil]
      rfl
  | foreground hvisible hactive =>
      rw [launches_switch (fun _ _ => rfl) rfl]
      exact (List.append_nil _).symm
  | windows hreset => rw [hnone hreset, List.append_nil]; rfl

/-- In a run of the life cycle the launches are those of the events. -/
theorem launches_run {l : Life} {ops : AppcoreOps} (hops : l.ops = some ops)
    (es : List (Event × Answers)) :
    (Machine.run step l es).launches = l.launches ++ es.filterMap fun x => ops.launch x.1 := by
  induction es generalizing l with
  | nil => simp
  | cons x es ih =>
      rw [Machine.run_cons, ih ((Process.ops_step l x).trans hops), launches_step hops,
        List.append_assoc]
      cases hx : ops.launch x.1 <;> simp [hx]

end Life

namespace Process

/-- The launches of a process. -/
def launches (p : Process) : List Launch :=
  p.calls.filterMap Call.launch

/-- The launches of a process are those of its life cycle. -/
theorem launches_eq (p : Process) : p.launches = p.life.launches := by
  rw [launches, Life.launches, life, List.filterMap_filter]
  refine List.filterMap_congr fun c _ => ?_
  cases c <;> rfl

/-- **No launch is lost and none is doubled.** From the entry of the loop on, whatever
happens until the call ends, the callback `reset` is invoked exactly once for each launch
request that the daemon makes before the application calls `appcore_exit`, and for each
reset that reaches the loop: in their order, each with its own bundle and with the data of
the table. After `appcore_exit` no request of the daemon is a launch. -/
theorem launches_session {m : MainCall} {p : Process} {ops : AppcoreOps} (h : Starts m p)
    (hops : m.ops = some ops) (hlegal : ∀ c ∈ m.start.createApi, c.Legal) {as : List Action}
    (has : ∀ x ∈ as, x.isLeave = false ∧ x.Legal) :
    (Machine.run act (p.startUp m).2 as).launches =
      p.launches ++
        ((as.takeWhile fun x => !x.exits).flatMap (Action.hands (linksUp m)) ++
          (as.dropWhile fun x => !x.exits).flatMap (Action.hands false)).filterMap
            fun x => ops.launch x.1 := by
  have hentry : (entryLife ops p).launches = p.launches := by
    have hcreate : (createCalls ops).filterMap Call.launch = [] := by
      rw [createCalls]
      cases ops.create <;> rfl
    rw [Life.launches, entryLife, List.filterMap_append, hcreate, List.append_nil, launches_eq]
    rfl
  rw [launches_eq, life_session h hops hlegal has, Life.launches_run rfl, hentry, handed_eq]

/-- Three launch requests, the last of them after an `appcore_exit`. -/
def threeLaunches : List Action :=
  [.aul .start (some 7) goodAnswers, .handle (.visibilityChange 1 true, goodAnswers),
   .aul .start (some 8) goodAnswers, .api .exit, .aul .start (some 9) goodAnswers]

/-- The two launches before the exit are delivered, the third is not. -/
theorem launches_session_threeLaunches :
    (Machine.run act (plain.startUp (goodCall fullOps [])).2 threeLaunches).launches =
      [⟨5, some 7, none⟩, ⟨5, some 8, none⟩] := by
  have hlegal : ∀ x ∈ threeLaunches, x.isLeave = false ∧ x.Legal := by
    simp [threeLaunches, Action.isLeave, Action.Legal, Action.apiCalls, ApiCall.Legal]
  rw [launches_session (starts_plain fullOps []) rfl (by simp [goodCall]) hlegal]
  rfl

end Process

end AppCore
