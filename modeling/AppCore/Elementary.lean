import AppCore.Appends
import AppCore.Lib.Resources
import AppCore.SessionCallbacks
import AppCore.System

/-!
# Elementary

`__before_loop` calls `elm_init`, and `appcore_efl_main` calls `elm_shutdown` after the loop.
The exits of `__before_loop` after `elm_init` do not, so that a start that is given up there
leaves an initialisation behind, and nothing that happens later takes it back.

## Main results

* `elm_act`: what an action does to the initialisations.
* `elm_system`: **the initialisations of Elementary** after any run of the system.
-/

set_option autoImplicit false

namespace AppCore

/-- An initialisation of Elementary is acquired and released. -/
def Call.elm : Call → Resources.Effect Unit
  | .elmInit => .acquires ()
  | .elmShutdown => .releases ()
  | _ => .none

/-- The entry is none of Elementary's initialisation. -/
def Call.NoElm (c : Call) : Prop :=
  c.elm = .none

/-- The loop neither initialises Elementary nor shuts it down. -/
theorem Call.IsLoop.noElm {c : Call} (h : c.IsLoop) : c.NoElm := by
  cases c <;> first | rfl | exact (h.elim id fun h => h.elim id id).elim

namespace Process

instance (m : MainCall) : Decidable (BeforeElm m) :=
  inferInstanceAs (Decidable (_ ∨ _))

/-- Whether a call is under way. -/
def inCall (p : Process) : ℕ :=
  if p.priv.name = none then 0 else 1

/-- There are `n` initialisations of Elementary that are not shut down, beside that of the
call under way. -/
def ElmLeft (n : ℕ) (p : Process) : Prop :=
  Resources.settle Call.elm [] p.calls = some (List.replicate (n + p.inCall) ())

/-- The start that an action gives up after `elm_init`. -/
def givenUp (p : Process) : Action → List MainCall
  | .enter m =>
      if p.priv.name = none ∧ ¬ BeforeElm m ∧ (p.startUp m).1 = -1 then [m] else []
  | _ => []

variable {p q : Process} {n : ℕ}

/-- Entries that do not concern Elementary leave the balance alone. -/
theorem Appends.settle {held : List Unit} (h : Appends Call.NoElm p q)
    (hp : Resources.settle Call.elm [] p.calls = some held) :
    Resources.settle Call.elm [] q.calls = some held := by
  obtain ⟨l, hl, hq⟩ := h
  rw [hq, Resources.settle_append, hp, Option.bind_some]
  exact Resources.Balanced.of_forall_none hl held

/-- Entries that do not concern Elementary leave the account alone. -/
theorem ElmLeft.appends (h : ElmLeft n p) (happends : Appends Call.NoElm p q)
    (hname : q.priv.name = p.priv.name) : ElmLeft n q := by
  rw [ElmLeft, inCall, hname]
  exact happends.settle h

/-- No API call is about Elementary. -/
theorem apiAppends_noElm (c : ApiCall) : ApiAppends Call.NoElm c :=
  fun p => (outside_runApi c p).appends.mono fun _ hc => Call.IsLoop.noElm (.inl hc)

/-! ### One action -/

/-- A start initialises Elementary once: the call under way has it, or the start was given up and
left it. -/
theorem ElmLeft.enter (h : ElmLeft n p) (m : MainCall) :
    ElmLeft (n + (p.givenUp (.enter m)).length) (p.startUp m).2 := by
  by_cases hgoes : p.priv.name = none ∧ ¬ BeforeElm m
  · obtain ⟨hidle, hargs⟩ := hgoes
    have hheld : Resources.settle Call.elm [] (p.startUp m).2.calls =
        some (List.replicate (n + 1) ()) := by
      refine Appends.settle (appends_startUp hidle hargs (fun _ _ => rfl) rfl (apiAppends_noElm _)
        (apiAppends_noElm _) fun c _ => apiAppends_noElm c) ?_
      have hp : Resources.settle Call.elm [] p.calls = some (List.replicate n ()) := by
        rw [h, inCall, if_pos hidle, Nat.add_zero]
      change Resources.settle Call.elm [] (p.calls ++ [.elmInit]) = _
      rw [Resources.settle_append, hp, Option.bind_some]
      rfl
    have hgiven : p.givenUp (.enter m) = if (p.startUp m).1 = -1 then [m] else [] := by
      rw [givenUp]
      split_ifs <;> tauto
    rw [hgiven, ElmLeft, hheld]
    have hstarted := started_startUp m p
    generalize p.startUp m = r at hstarted
    cases hstarted with
    | refused => rw [if_pos rfl, inCall, if_pos hidle]; rfl
    | failed => rfl
    | entered hname =>
        have hbusy : ∀ q : Process, q.priv.name = m.name → q.inCall = 1 :=
          fun q hq => if_neg (hq ▸ hname)
        rw [if_neg (by simp), hbusy _ rfl]
        rfl
  · have hgiven : p.givenUp (.enter m) = [] := if_neg fun h => hgoes ⟨h.1, h.2.1⟩
    have hsame := startUp_of_beforeElm ((not_and_or.mp hgoes).imp_right not_not.mp)
    rw [hgiven, ElmLeft, inCall, hsame.1, hsame.2]
    exact h

/-- The end of a call shuts down the initialisation of its own. -/
theorem ElmLeft.leave (h : ElmLeft n p) (hname : p.priv.name ≠ none) (a : Rotation.Answers)
    (cs : List ApiCall) : ElmLeft n (p.leave a cs) := by
  obtain ⟨q, hq, hcalls⟩ := appends_leave (P := Call.NoElm) a cs p (fun _ _ => rfl)
    (fun _ hc => Call.IsLoop.noElm (.inr (.inr hc))) (apiAppends_noElm _)
    fun c _ => apiAppends_noElm c
  have hheld : Resources.settle Call.elm [] q.calls = some (List.replicate (n + 1) ()) := by
    refine hq.settle ?_
    rw [h, inCall, if_neg hname]
  have hidle : (p.leave a cs).inCall = 0 := rfl
  rw [ElmLeft, hcalls, hidle, Resources.settle_append, hheld]
  rfl

/-- A notification neither begins nor ends a call. -/
theorem name_vconfCb (n : Notification) (p : Process) :
    (p.vconfCb n).priv.name = p.priv.name := by
  obtain ⟨_, _, _, _, _, _, l, -, hq⟩ := outside_vconfCb n p
  rw [hq]

/-- **One action.** -/
theorem elm_act (h : ElmLeft n p) (x : Action) :
    ElmLeft (n + (p.givenUp x).length) (p.act x) := by
  cases x with
  | enter m => exact h.enter m
  | handle x =>
      rw [act]
      split
      · exact h
      · exact h.appends ((appends_step p x).mono fun _ hc => hc.noElm) (name_step p x)
  | leave a cs =>
      rw [act]
      split
      · exact h
      · rename_i hname
        exact h.leave hname a cs
  | api c => exact h.appends (apiAppends_noElm c p) (congrArg UiPriv.name (priv_runApi c p))
  | vconf n =>
      rw [act]
      split
      · refine h.appends (appends_vconfCb (fun _ _ => rfl) (fun c _ => apiAppends_noElm c) ?_)
          (name_vconfCb n p)
        exact fun _ q _ => (appends_cbApp .lowmemPost none n.answers q).mono fun _ hc => hc.noElm
      · exact h
  | aul type b a =>
      rw [act]
      split
      · exact h.appends ((appends_aulHandler type b a p).mono fun _ hc => hc.noElm)
          (name_aulHandler type b a p)
      · exact h

end Process

namespace System

variable {w : ℕ}

/-- The starts that an input gives up after `elm_init`. -/
def givenUp (s : System) : Input w → List Process.MainCall
  | .action x _ => s.process.givenUp x
  | _ => []

/-- **One input.** -/
theorem elm_step {n : ℕ} {s : System} (h : Process.ElmLeft n s.process) (i : Input w) :
    Process.ElmLeft (n + (s.givenUp i).length) (s.step i).process := by
  cases i with
  | action x a =>
      by_cases hresume : ∃ b c, x = .aul .resume b c
      · obtain ⟨b, c, rfl⟩ := hresume
        rw [step, act]
        split
        · obtain ⟨as, has, hprocess⟩ := process_aulResume a s
          rw [hprocess]
          refine Machine.AtEach.run_invariant (I := Process.ElmLeft n)
            (G := fun _ x => x ∈ a.calls.map Process.Action.api) ?_ h
            (Machine.atEach_of_forall has)
          rintro p x hp hx
          obtain ⟨c, -, rfl⟩ := List.mem_map.mp hx
          exact Process.elm_act hp (.api c)
        · exact h
      · have hx : ∀ b c, x ≠ .aul .resume b c := fun b c h => hresume ⟨b, c, h⟩
        rw [step, process_act hx]
        exact Process.elm_act h x
  | setOpenCb cb data => exact h
  | idle id getenv now stack =>
      rw [step, idle]
      split
      · exact h
      · exact h
  | rotation x => exact h

/-- **The initialisations of Elementary** after any run of the system: `elm_shutdown` was
never called without an initialisation, and those that are left are one for each start that
was given up after `elm_init`, and that of the call under way. -/
theorem elm_system (env : EnvVar → Option String) (locale : LcCategory → String)
    (rotateLock : Bool) (pid : ℤ) (is : List (Input w)) :
    let s₀ := init (.fresh env locale rotateLock) pid
    let p := (Machine.run step s₀ is).process
    let lost := Machine.outputs (fun (s : System) i => (s.step i, s.givenUp i)) s₀ is
    Resources.settle Call.elm [] p.calls =
      some (List.replicate (lost.length + if p.priv.name = none then 0 else 1) ()) := by
  intro s₀ p lost
  have hrun : ∀ n (s : System), Process.ElmLeft n s.process →
      Process.ElmLeft
        (n + (Machine.outputs (fun (s : System) i => (s.step i, s.givenUp i)) s is).length)
        (Machine.run step s is).process := by
    induction is with
    | nil => exact fun n s hs => hs
    | cons i is ih =>
        intro n s hs
        rw [Machine.outputs_cons, List.length_append, ← Nat.add_assoc]
        exact ih _ _ (elm_step hs i)
  have hlost := hrun 0 s₀ rfl
  rwa [Nat.zero_add] at hlost

open Process (plain goodCall fullOps createFailsCall)

/-- A start that is given up by `create`, and then a call. -/
example :
    Resources.settle Call.elm []
      (Machine.run step (init plain 77)
        ([.action (.enter createFailsCall) noDisplay,
          .action (.enter (goodCall fullOps [])) noDisplay,
          .action (.leave (goodCall fullOps []).after []) noDisplay] :
          List (Input 64))).process.calls = some [()] := by
  decide

end System

end AppCore
