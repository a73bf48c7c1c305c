import AppCore.RotationStep
import Mathlib.Logic.Relation

/-!
# Open Connections

`appcore_set_rotation_cb` opens a connection to the sensor framework and stores its handle
in `rot`; the calls that end a callback close it again. Where such a call gives up, the
handle is forgotten and the connection stays open, with its sensor still started if it was
the stop that failed. An `Account` is what the module holds in these terms: the connection
of its callback, the ones it has lost, as its trace tells, and what the sensor framework
has open.

## Main results

* `Account.Sound.moves`: the four moves of an account keep it sound.
* `moves_runApi`, `moves_step`: **an API call and a step are moves**.
* `sound_run`: the account of every run is sound.
-/

set_option autoImplicit false

namespace AppCore

/-! ### Accounts -/

/-- Who holds which connections. A connection comes with whether its sensor is started;
`next` is the handle of the next connection. -/
structure Account where
  owned : Option (ℤ × Bool)
  lost : List (ℤ × Bool)
  connected : ℤ → Bool
  started : ℤ → Bool
  next : ℕ

namespace Account

/-- The connections that are accounted for. -/
def held (k : Account) : List (ℤ × Bool) :=
  k.owned.toList ++ k.lost

/-- The open connections. -/
def opened (k : Account) : List (ℤ × Bool) :=
  (((List.range k.next).map Int.ofNat).filter k.connected).map fun h => (h, k.started h)

/-- The account agrees with the sensor framework: each open connection is accounted for
once, and no sensor is started on another. -/
structure Sound (k : Account) : Prop where
  mem : ∀ h b, (h, b) ∈ k.held ↔ k.connected h = true ∧ k.started h = b
  nodup : (k.held.map Prod.fst).Nodup
  fresh : ∀ h, k.connected h = true → 0 ≤ h ∧ h < k.next
  running : ∀ h, k.started h = true → k.connected h = true

/-- What happens to connections: one is opened, its sensor is started or stopped, it is
closed, or it is lost. -/
inductive Move (k : Account) : Account → Prop
  | connect : k.owned = none → Move k
      { k with
        owned := some (k.next, false)
        connected := Function.update k.connected k.next true
        started := Function.update k.started k.next false
        next := k.next + 1 }
  | turn {h : ℤ} {b : Bool} (b' : Bool) : k.owned = some (h, b) → Move k
      { k with
        owned := some (h, b')
        started := Function.update k.started h b' }
  | close {h : ℤ} {b : Bool} : k.owned = some (h, b) → Move k
      { k with
        owned := none
        connected := Function.update k.connected h false
        started := Function.update k.started h false }
  | lose {h : ℤ} {b : Bool} : k.owned = some (h, b) → Move k
      { k with
        owned := none
        lost := k.lost ++ [(h, b)] }

/-- Any number of moves. -/
abbrev Moves : Account → Account → Prop := Relation.ReflTransGen Move

variable {k : Account} {h : ℤ} {b : Bool}

/-- The connection of the callback is accounted for before the lost ones. -/
theorem held_of_owned (howned : k.owned = some (h, b)) : k.held = (h, b) :: k.lost := by
  rw [held, howned]
  rfl

namespace Sound

/-- A handle is not accounted for twice. -/
theorem notMem_lost (hk : k.Sound) (howned : k.owned = some (h, b)) (b' : Bool) :
    (h, b') ∉ k.lost := by
  intro hmem
  have hnodup := hk.nodup
  rw [held_of_owned howned, List.map_cons, List.nodup_cons] at hnodup
  exact hnodup.1 (List.mem_map.mpr ⟨(h, b'), hmem, rfl⟩)

/-- The connection of the callback is open. -/
theorem of_owned (hk : k.Sound) (howned : k.owned = some (h, b)) :
    k.connected h = true ∧ k.started h = b :=
  (hk.mem h b).mp (by rw [held_of_owned howned]; exact List.mem_cons_self)

/-- What is accounted for apart from the connection of the callback. -/
theorem mem_lost (hk : k.Sound) (howned : k.owned = some (h, b)) {j : ℤ} (hj : j ≠ h)
    (c : Bool) : (j, c) ∈ k.lost ↔ k.connected j = true ∧ k.started j = c := by
  rw [← hk.mem, held_of_owned howned, List.mem_cons]
  simp [hj]

/-- A handle that was not handed out yet is not in use. -/
theorem unused (hk : k.Sound) : k.connected k.next = false ∧ ∀ c, ((k.next : ℤ), c) ∉ k.held := by
  have hconnected : k.connected k.next = false :=
    Bool.eq_false_of_not_eq_true fun hopen => absurd (hk.fresh _ hopen).2 (lt_irrefl _)
  refine ⟨hconnected, fun c hmem => ?_⟩
  rw [hk.mem, hconnected] at hmem
  exact absurd hmem.1 Bool.false_ne_true

/-- A new connection has a fresh handle, so that it is counted once. -/
theorem connect (hk : k.Sound) (howned : k.owned = none) :
    Sound { k with
      owned := some (k.next, false)
      connected := Function.update k.connected k.next true
      started := Function.update k.started k.next false
      next := k.next + 1 } := by
  have hheld : k.held = k.lost := by rw [held, howned]; rfl
  obtain ⟨-, hunused⟩ := hk.unused
  constructor
  · intro j c
    by_cases hj : j = k.next
    · subst hj
      have hlost : ((k.next : ℤ), c) ∉ k.lost := hheld ▸ hunused c
      simp [held, hlost, eq_comm]
    · have hmem := hk.mem j c
      rw [hheld] at hmem
      simp [held, hj, hmem]
  · have hnodup := hk.nodup
    rw [hheld] at hnodup
    rw [held_of_owned rfl, List.map_cons, List.nodup_cons]
    refine ⟨fun hmem => ?_, hnodup⟩
    obtain ⟨⟨j, c⟩, hjc, rfl⟩ := List.mem_map.mp hmem
    exact hunused c (hheld ▸ hjc)
  · intro j hj
    by_cases hnew : j = k.next
    · subst hnew
      exact ⟨Int.natCast_nonneg _, by dsimp only; omega⟩
    · obtain ⟨hnonneg, hlt⟩ := hk.fresh j (by simpa [hnew] using hj)
      exact ⟨hnonneg, by dsimp only; omega⟩
  · intro j hj
    by_cases hnew : j = k.next
    · simp [hnew]
    · simpa [hnew] using hk.running j (by simpa [hnew] using hj)

/-- Starting or stopping the sensor of the callback's connection. -/
theorem turn (hk : k.Sound) (howned : k.owned = some (h, b)) (b' : Bool) :
    Sound { k with
      owned := some (h, b')
      started := Function.update k.started h b' } := by
  constructor
  · intro j c
    rw [held_of_owned rfl, List.mem_cons]
    by_cases hj : j = h
    · subst hj
      simp [hk.notMem_lost howned c, hk.of_owned howned, eq_comm]
    · simp [hj, hk.mem_lost howned hj c]
  · have hnodup := hk.nodup
    rw [held_of_owned howned] at hnodup
    rw [held_of_owned rfl]
    exact hnodup
  · exact hk.fresh
  · intro j hj
    by_cases hjh : j = h
    · exact hjh ▸ (hk.of_owned howned).1
    · exact hk.running j (by simpa [hjh] using hj)

/-- Closing the callback's connection. -/
theorem close (hk : k.Sound) (howned : k.owned = some (h, b)) :
    Sound { k with
      owned := none
      connected := Function.update k.connected h false
      started := Function.update k.started h false } := by
  constructor
  · intro j c
    change (j, c) ∈ k.lost ↔ _
    by_cases hj : j = h
    · subst hj
      simp [hk.notMem_lost howned c]
    · simp [hj, hk.mem_lost howned hj c]
  · have hnodup := hk.nodup
    rw [held_of_owned howned, List.map_cons, List.nodup_cons] at hnodup
    exact hnodup.2
  · intro j hj
    by_cases hjh : j = h
    · simp [hjh] at hj
    · exact hk.fresh j (by simpa [hjh] using hj)
  · intro j hj
    by_cases hjh : j = h
    · simp [hjh] at hj
    · simpa [hjh] using hk.running j (by simpa [hjh] using hj)

/-- Losing the callback's connection, which stays open. -/
theorem lose (hk : k.Sound) (howned : k.owned = some (h, b)) :
    Sound { k with
      owned := none
      lost := k.lost ++ [(h, b)] } := by
  have hheld : k.held.Perm (k.lost ++ [(h, b)]) := by
    rw [held_of_owned howned]
    exact (List.perm_append_singleton (h, b) k.lost).symm
  exact ⟨fun j c => hheld.mem_iff.symm.trans (hk.mem j c), (hheld.map Prod.fst).nodup hk.nodup,
    hk.fresh, hk.running⟩

/-- **A move** keeps the account sound. -/
theorem move (hk : k.Sound) {k' : Account} (hmove : Move k k') : k'.Sound := by
  cases hmove with
  | connect howned => exact hk.connect howned
  | turn b' howned => exact hk.turn howned b'
  | close howned => exact hk.close howned
  | lose howned => exact hk.lose howned

/-- Any number of moves keeps the account sound. -/
theorem moves (hk : k.Sound) {k' : Account} (hmoves : Moves k k') : k'.Sound := by
  induction hmoves with
  | refl => exact hk
  | tail _ hmove ih => exact ih.move hmove

/-- The open connections are those that are accounted for. -/
theorem perm (hk : k.Sound) : k.opened.Perm k.held := by
  have hrange : ((List.range k.next).map Int.ofNat).Nodup :=
    List.nodup_range.map fun _ _ => Int.ofNat.inj
  have hopened : (k.opened.map Prod.fst).Nodup := by
    rw [opened, List.map_map]
    exact (hrange.filter _).map fun _ _ => id
  refine (List.perm_ext_iff_of_nodup hopened.of_map hk.nodup.of_map).mpr ?_
  rintro ⟨h, b⟩
  rw [hk.mem, opened, List.mem_map]
  constructor
  · rintro ⟨j, hj, heq⟩
    obtain ⟨rfl, rfl⟩ := Prod.mk.inj heq
    exact ⟨(List.mem_filter.mp hj).2, rfl⟩
  · rintro ⟨hconnected, rfl⟩
    obtain ⟨hnonneg, hlt⟩ := hk.fresh h hconnected
    obtain ⟨n, rfl⟩ := Int.eq_ofNat_of_zero_le hnonneg
    have hmem : (n : ℤ) ∈ (List.range k.next).map Int.ofNat :=
      List.mem_map.mpr ⟨n, List.mem_range.mpr (by omega), rfl⟩
    exact ⟨n, List.mem_filter.mpr ⟨hmem, hconnected⟩, rfl⟩

/-- What is open is counted. -/
theorem connected_iff (hk : k.Sound) : k.connected h = true ↔ h ∈ k.opened.map Prod.fst := by
  have hmem : ∀ b, (h, b) ∈ k.opened ↔ k.connected h = true ∧ k.started h = b :=
    fun b => hk.perm.mem_iff.trans (hk.mem h b)
  constructor
  · intro hconnected
    exact List.mem_map.mpr ⟨(h, k.started h), (hmem _).mpr ⟨hconnected, rfl⟩, rfl⟩
  · intro hopened
    obtain ⟨⟨j, b⟩, hjb, rfl⟩ := List.mem_map.mp hopened
    exact ((hmem b).mp hjb).1

end Sound

end Account

/-! ### The account of the module -/

/-- The connection of the callback, with whether its sensor is started. -/
def RotS.owned (r : RotS) : Option (ℤ × Bool) :=
  if r.callback = none then none else some (r.handle, r.sfStarted)

namespace Rotation

open Account (Moves Move)

/-- The connection that an entry tells to be lost: `sf_disconnect` has failed, or an unset
call has given up at `sf_stop`, the entry right before. -/
def loss (before : Option Call) : Call → Option (ℤ × Bool)
  | .sfDisconnect h r => if r < 0 then some (h, false) else none
  | .unsetRotationCb r =>
      if r = 0 then none
      else
        match before with
        | some (.sfStop h _) => some (h, true)
        | _ => none
  | _ => none

/-- The connections that were lost so far. -/
def lost (l : List Call) : List (ℤ × Bool) :=
  (Trace.withBefore none l).filterMap fun x => loss x.1 x.2

/-- The account of the module. -/
def account (s : Rotation) : Account :=
  ⟨s.rot.owned, lost s.log, s.connected, s.started, s.nextHandle⟩

/-- What is lost after one more entry. -/
theorem lost_snoc (l : List Call) (c : Call) :
    lost (l ++ [c]) = lost l ++ (loss l.getLast? c).toList := by
  rw [lost, Trace.withBefore_snoc, List.filterMap_append, Option.or_none]
  rfl

/-- An unset call that gave up at `sf_stop`. -/
theorem lost_gaveUp (l : List Call) (h r : ℤ) :
    lost (l ++ [.sfStop h r, .unsetRotationCb (-1)]) = lost l ++ [(h, true)] := by
  rw [List.append_cons, lost_snoc, lost_snoc, List.getLast?_concat]
  simp [loss]

section Calls

variable (handle : ℤ) (data : Ptr) (a : Answers) (s : Rotation)

/-- An entry that tells no loss leaves the account alone. -/
theorem account_record {c : Call} (hc : loss s.log.getLast? c = none) :
    (s.record c).account = s.account := by
  rw [account, record, lost_snoc, hc]
  simp [account]

/-- A connection that is opened is nobody's yet. -/
theorem account_sfConnect :
    (s.sfConnect a).account =
      if a.sfConnect = true then
        { s.account with
          connected := Function.update s.connected s.nextHandle true
          started := Function.update s.started s.nextHandle false
          next := s.nextHandle + 1 }
      else s.account := by
  have hrecord := account_record s (c := .sfConnect (s.connectHandle a)) rfl
  rw [sfConnect, ← hrecord]
  split <;> rfl

/-- Registering an event opens no connection and closes none. -/
theorem account_sfRegisterEvent : (s.sfRegisterEvent handle data a).account = s.account := by
  have hrecord := account_record s (c := .sfRegisterEvent handle data a.sfRegisterEvent) rfl
  rw [sfRegisterEvent, ← hrecord]
  split <;> rfl

/-- Unregistering an event opens no connection and closes none. -/
theorem account_sfUnregisterEvent : (s.sfUnregisterEvent handle a).account = s.account := by
  have hrecord := account_record s (c := .sfUnregisterEvent handle a.sfUnregisterEvent) rfl
  rw [sfUnregisterEvent, ← hrecord]
  split <;> rfl

/-- A start that succeeds starts the sensor of its handle. -/
theorem account_sfStart :
    (s.sfStart handle a).account =
      if a.sfStart < 0 then s.account
      else { s.account with started := Function.update s.started handle true } := by
  have hrecord := account_record s (c := .sfStart handle a.sfStart) rfl
  rw [sfStart, ← hrecord]
  split <;> rfl

/-- A stop that succeeds stops the sensor of its handle. -/
theorem account_sfStop :
    (s.sfStop handle a).account =
      if a.sfStop < 0 then s.account
      else { s.account with started := Function.update s.started handle false } := by
  have hrecord := account_record s (c := .sfStop handle a.sfStop) rfl
  rw [sfStop, ← hrecord]
  split <;> rfl

/-- A disconnect closes the connection, or loses it. -/
theorem account_sfDisconnect :
    (s.sfDisconnect handle a).account =
      if a.sfDisconnect < 0 then { s.account with lost := lost s.log ++ [(handle, false)] }
      else
        { s.account with
          connected := Function.update s.connected handle false
          started := Function.update s.started handle false } := by
  rw [sfDisconnect]
  split
  next hfail => simp [account, record, lost_snoc, loss, hfail]
  next hok => simp [account, record, lost_snoc, loss, hok]

end Calls

/-! ### API calls are moves -/

variable {s : Rotation} {k : Account} {a : Answers}

/-- The connection of a callback that is set is that of `rot.handle`. -/
theorem owned_of_callback (hcb : s.rot.callback ≠ none) :
    s.account.owned = some (s.rot.handle, s.rot.sfStarted) :=
  if_neg hcb

/-- After a failed registration the connection is closed or lost. -/
theorem moves_disconnect {handle : ℤ} {b : Bool} (hk : k.owned = some (handle, b))
    (hb : b = false) (hs : s.account = { k with owned := none }) :
    Moves k (s.sfDisconnect handle a).account := by
  subst hb
  rw [account_sfDisconnect]
  split
  · have hlose : Move k { k with owned := none, lost := k.lost ++ [(handle, false)] } :=
      .lose hk
    rw [hs, show lost s.log = k.lost from congrArg Account.lost hs]
    exact .single hlose
  · rw [hs, show s.connected = k.connected from congrArg Account.connected hs,
      show s.started = k.started from congrArg Account.started hs]
    exact .single (.close hk)

/-- The sensor is started on the connection, or the connection is given up. -/
theorem moves_setStart {handle : ℤ} {cb : Ptr} (data : Ptr) (hcb : cb ≠ none)
    (hk : k.owned = some (handle, false)) (hs : s.account = { k with owned := none }) :
    Moves k (s.setStart handle cb data a).2.account := by
  have hlost : lost s.log = k.lost := congrArg Account.lost hs
  have hconnected : s.connected = k.connected := congrArg Account.connected hs
  have hstarted : s.started = k.started := congrArg Account.started hs
  have hnext : s.nextHandle = k.next := congrArg Account.next hs
  rw [setStart]
  dsimp only
  split
  next hfail =>
    refine moves_disconnect hk rfl ?_
    have hstart := account_sfUnregisterEvent handle a
      ({ s with rot.cbSet := true, rot.callback := cb, rot.cbdata := data }.sfStart handle a)
    rw [account_sfStart, if_pos hfail] at hstart
    refine (congrArg (fun k : Account => { k with owned := none }) hstart).trans ?_
    simp [account, hlost, hconnected, hstarted, hnext]
  next hok =>
    have hstart := account_sfStart handle a
      { s with rot.cbSet := true, rot.callback := cb, rot.cbdata := data }
    rw [if_neg hok] at hstart
    have howned := congrArg (fun k : Account => { k with owned := some (handle, true) }) hstart
    refine Relation.ReflTransGen.single ?_
    convert Move.turn true hk using 1
    refine Eq.trans ?_ (howned.trans ?_)
    · simp [account, addRotlock, RotS.owned, hcb]
    · simp [account, hlost, hconnected, hstarted, hnext]

/-- `appcore_set_rotation_cb` opens a connection for the callback, or closes or loses it
again. -/
theorem moves_setRotationCb (cb data : Ptr) (a : Answers) (s : Rotation) :
    Moves s.account (s.setRotationCb cb data a).2.account := by
  rw [setRotationCb]
  split
  next => exact .refl
  next hcb =>
    split
    next => exact .refl
    next hnone =>
      have hfree : s.account.owned = none := if_pos (not_not.mp hnone)
      have hconnect := account_sfConnect a s
      dsimp only
      cases hanswer : a.sfConnect with
      | false =>
          rw [connectHandle, hanswer, if_neg Bool.false_ne_true, if_pos (by decide), hconnect,
            hanswer]
          exact .refl
      | true =>
          have hhandle : s.connectHandle a = s.nextHandle := if_pos hanswer
          have hfresh : ¬ ((s.nextHandle : ℤ) < 0) := by omega
          rw [hanswer, if_pos rfl] at hconnect
          have hmove := Move.connect hfree
          rw [hhandle, if_neg hfresh]
          have hregister := account_sfRegisterEvent s.nextHandle data a (s.sfConnect a)
          rw [hconnect] at hregister
          split
          next =>
            refine .head hmove (moves_disconnect rfl rfl ?_)
            rw [hregister, ← hfree]
            rfl
          next =>
            refine .head hmove (moves_setStart data hcb rfl ?_)
            rw [hregister, ← hfree]
            rfl

/-- The end of an unset call: the connection is closed or lost. -/
theorem moves_unsetDisconnect (hk : k.owned = some (s.rot.handle, false))
    (hs : s.account = { k with owned := none }) (hnone : s.rot.callback = none) :
    Moves k
      ((unsetDisconnect a s).2.record (.unsetRotationCb (unsetDisconnect a s).1)).account := by
  have hmoves := moves_disconnect (a := a) hk rfl hs
  rw [unsetDisconnect]
  dsimp only
  split
  next hfail =>
    rw [account_record]
    · exact hmoves
    · rw [log_sfDisconnect, List.getLast?_concat]
      rfl
  next =>
    rw [account_record _ rfl]
    refine Eq.subst ?_ hmoves
    simp [account, RotS.owned, hnone]

/-- Once the callback is unregistered, an unset call stops its sensor and closes the
connection, or loses it. -/
theorem moves_unsetStop (hcb : s.rot.callback ≠ none) :
    Moves s.account ((unsetStop a s).2.record (.unsetRotationCb (unsetStop a s).1)).account := by
  have howned := owned_of_callback hcb
  rw [unsetStop]
  dsimp only
  split
  next hstarted =>
    rw [show s.rot.sfStarted = true from hstarted] at howned
    split
    next hfail =>
      refine Relation.ReflTransGen.single ?_
      convert Move.lose howned using 1
      simp [account, record, lost_gaveUp, sfStop, hfail, RotS.owned]
    next hok =>
      refine .head (Move.turn false howned) (moves_unsetDisconnect ?_ ?_ ?_)
      · simp
      · simp [account, record, lost_snoc, sfStop, hok, loss, RotS.owned]
      · simp
  next hstopped =>
    have hunstarted : s.rot.sfStarted = false := Bool.eq_false_of_not_eq_true hstopped
    rw [hunstarted] at howned
    exact moves_unsetDisconnect howned rfl rfl

/-- `appcore_unset_rotation_cb`. -/
theorem moves_unsetRotationCb (a : Answers) (s : Rotation) :
    Moves s.account
      ((s.unsetRotationCb a).2.record (.unsetRotationCb (s.unsetRotationCb a).1)).account := by
  rw [unsetRotationCb]
  split
  next =>
    rw [account_record _ rfl]
  next hcb =>
    have hunregister := account_sfUnregisterEvent s.rot.handle a s.delRotlock
    dsimp only
    split
    next =>
      split
      next =>
        rw [account_record]
        · exact hunregister ▸ .refl
        · rw [log_sfUnregisterEvent, List.getLast?_concat]
          rfl
      next =>
        have hstop := moves_unsetStop (a := a)
          (s := { s.delRotlock.sfUnregisterEvent s.rot.handle a with rot.cbSet := false })
          (by simpa)
        refine Eq.subst (motive := fun k => Moves k _) ?_ hstop
        exact hunregister
    next => exact moves_unsetStop (a := a) (s := s.delRotlock) hcb

/-- `appcore_pause_rotation_cb` stops the sensor, or leaves it as it is. -/
theorem moves_pauseRotationCb (a : Answers) (s : Rotation) :
    Moves s.account (s.pauseRotationCb a).2.account := by
  have hpause : ∀ t : Rotation, t.rot.callback ≠ none →
      Moves t.account (pauseStop a t).2.account := by
    intro t hcb
    rw [pauseStop]
    split
    next hstarted =>
      have hstop := account_sfStop t.rot.handle a t
      dsimp only
      split
      next hfail =>
        rw [hstop, if_pos hfail]
      next hok =>
        refine Relation.ReflTransGen.single ?_
        convert Move.turn false (owned_of_callback hcb) using 1
        simp [account, sfStop, hok, record, lost_snoc, loss, RotS.owned, hcb]
    next => exact .refl
  rw [pauseRotationCb]
  split
  next => exact .refl
  next hcb =>
    have hunregister := account_sfUnregisterEvent s.rot.handle a s.delRotlock
    dsimp only
    split
    next =>
      split
      next => exact hunregister ▸ .refl
      next =>
        have hstop := hpause
          { s.delRotlock.sfUnregisterEvent s.rot.handle a with rot.cbSet := false } (by simpa)
        refine Eq.subst (motive := fun k => Moves k _) ?_ hstop
        exact hunregister
    next => exact hpause s.delRotlock hcb

section Resume

variable {k₀ : Account} {react : Rotation → Rotation}

/-- The callback is told a mode. -/
theorem moves_deliver (hreact : ∀ t, Moves k₀ t.account → Moves k₀ (react t).account)
    (m : AppcoreRm) (data : Ptr) (h : Moves k₀ s.account) :
    Moves k₀ (s.deliver react m data).account := by
  rw [deliver, invoke]
  cases s.rot.callback with
  | none =>
      have hrecord := account_record s (c := .fault) rfl
      exact hrecord ▸ h
  | some fn =>
      have hrecord := account_record s (c := .callback fn m data) rfl
      exact hreact _ (hrecord ▸ h)

/-- The query of a resume call makes no move, but the callback it invokes may. -/
theorem moves_resumeRead (hreact : ∀ t, Moves k₀ t.account → Moves k₀ (react t).account)
    (a : Answers) (h : Moves k₀ s.account) : Moves k₀ (resumeRead react a s).2.account := by
  cases hquery : a.sfCheckRotation with
  | none =>
      rw [resumeRead_of_none react hquery]
      exact h
  | some e =>
      rw [resumeRead_of_some react hquery, resumeDeliver]
      have hrecord := account_record (s.addRotlock s.rot.cbdata a)
        (c := .reading .resume (getMode e)) rfl
      dsimp only
      split
      · exact moves_deliver hreact _ _ (hrecord ▸ h)
      · exact hrecord ▸ h

/-- A resume call may start the sensor. -/
theorem moves_resumeStart (hreact : ∀ t, Moves k₀ t.account → Moves k₀ (react t).account)
    (a : Answers) (hcb : s.rot.callback ≠ none) (h : Moves k₀ s.account) :
    Moves k₀ (resumeStart react a s).2.account := by
  rw [resumeStart]
  split
  next =>
    have hstart := account_sfStart s.rot.handle a s
    dsimp only
    split
    next hfail =>
      rw [if_pos hfail] at hstart
      have hunregister := account_sfUnregisterEvent (s.sfStart s.rot.handle a).rot.handle a
        (s.sfStart s.rot.handle a)
      refine Eq.subst (motive := Moves k₀) ?_ h
      exact (hunregister.trans hstart).symm
    next hok =>
      refine moves_resumeRead hreact a (h.tail ?_)
      convert Move.turn true (owned_of_callback hcb) using 1
      simp [account, sfStart, hok, record, lost_snoc, loss, RotS.owned, hcb]
  next => exact moves_resumeRead hreact a h

/-- `appcore_resume_rotation_cb` starts the sensor, or leaves it as it is, apart from what
the callback does. -/
theorem moves_resumeRotationCb (hreact : ∀ t, Moves k₀ t.account → Moves k₀ (react t).account)
    (a : Answers) (h : Moves k₀ s.account) :
    Moves k₀ (s.resumeRotationCb react a).2.account := by
  rw [resumeRotationCb]
  split
  next => exact h
  next hcb =>
    split
    next =>
      have hregister := account_sfRegisterEvent s.rot.handle s.rot.cbdata a s
      dsimp only
      split
      next => exact hregister ▸ h
      next =>
        have hset : Moves k₀
            ({ s.sfRegisterEvent s.rot.handle s.rot.cbdata a with rot.cbSet := true } :
              Rotation).account := by
          refine Eq.subst (motive := Moves k₀) ?_ h
          exact hregister.symm
        exact moves_resumeStart hreact a (by simpa) hset
    next => exact moves_resumeStart hreact a hcb h

/-- **An API call** is a sequence of moves. -/
theorem moves_runApi (hreact : ∀ t, Moves k₀ t.account → Moves k₀ (react t).account)
    (c : Api) (a : Answers) (h : Moves k₀ s.account) :
    Moves k₀ (s.runApi react c a).account := by
  cases c with
  | set cb data =>
      rw [runApi, account_record _ rfl]
      exact h.trans (moves_setRotationCb cb data a s)
  | unset => exact h.trans (moves_unsetRotationCb a s)
  | pause =>
      rw [runApi, account_record _ rfl]
      exact h.trans (moves_pauseRotationCb a s)
  | resume =>
      rw [runApi, account_record _ rfl]
      exact moves_resumeRotationCb hreact a h

/-- What the callback does, call by call. -/
theorem moves_reaction (ρ : Reaction) (h : Moves k₀ s.account) :
    Moves k₀ (ρ.run s).account :=
  Reaction.run_invariant (I := fun t => Moves k₀ t.account) (G := fun _ => True)
    (fun _ c a _ hreact _ ht => moves_runApi hreact c a ht) ρ.all_true h

end Resume

/-! ### Runs -/

/-- A reading makes no move of its own. -/
theorem Settles.moves {t : Rotation} {m : AppcoreRm} {direct : Prop} {data : Ptr}
    {ρ : Reaction} (hs : Settles s m direct data a ρ t) : Moves s.account t.account := by
  cases hs with
  | told => exact .refl
  | @deliver f =>
      have hrecord := account_record s (c := .callback f m data) rfl
      exact moves_reaction ρ (hrecord ▸ .refl)
  | defer => exact .refl

/-- **A step** is a sequence of moves: the handlers move nothing, apart from what the
callback does. -/
theorem moves_step (x : Input) (hwf : s.WellFormed) : Moves s.account (step s x).account := by
  have ho := step_outcome x hwf
  obtain ⟨e, a, ρ⟩ := x
  cases e with
  | api c => exact moves_runApi (fun _ ht => moves_reaction ρ ht) c a .refl
  | sensor handle rotationCheck e =>
      generalize step s _ = t at ho ⊢
      cases ho with
      | sensorIgnored => exact .refl
      | sensorLocked => rw [account_record _ rfl]
      | sensor _ _ hs =>
          have hrecord := account_record s (c := .reading (.event false) (getMode e)) rfl
          exact hrecord ▸ hs.moves
  | lockChange lock =>
      generalize step s _ = t at ho ⊢
      cases ho with
      | lockUnfollowed => exact .refl
      | lockQuiet => exact .refl
      | @unlock e _ _ hs =>
          have hrecord := account_record
            ({ s with rotateLock := false, rot.lock := false } : Rotation)
            (c := .reading .unlock (getMode e)) rfl
          have hmoves := hs.moves
          rw [hrecord] at hmoves
          exact hmoves
  | property atom =>
      generalize step s _ = t at ho ⊢
      cases ho with
      | propertyIgnored => exact .refl
      | propertyTold => exact .refl
      | @propertyDeliver f =>
          have hrecord := account_record s (c := .callback f s.changedM s.changedData) rfl
          have hmoves : Moves s.account
              (ρ.run (s.record (.callback f s.changedM s.changedData))).account :=
            moves_reaction ρ (hrecord ▸ .refl)
          exact hmoves

/-- **The account of every run is sound**: each open connection is the one of the callback
or was lost, and its sensor is started as the account says. -/
theorem sound_run (rotateLock : Bool) (xs : List Input) :
    (Machine.run step (init rotateLock) xs).account.Sound := by
  have hstep : ∀ s x, s.WellFormed ∧ s.account.Sound →
      (step s x).WellFormed ∧ (step s x).account.Sound := by
    rintro s x ⟨hwf, hsound⟩
    exact ⟨wellFormed_step s x hwf, hsound.moves (moves_step x hwf)⟩
  have hinit : (init rotateLock).account.Sound := by
    constructor <;> simp [account, init, RotS.owned, lost, Trace.withBefore, Account.held]
  exact (Machine.run_invariant step hstep ⟨wellFormed_init rotateLock, hinit⟩ xs).2

/-- After an unset call that gave up at the stop and another set call, two sensors run. -/
example :
    (Machine.run step (init false)
      [⟨.api (.set (some 1) none), granted, .done⟩,
       ⟨.api .unset, { granted with sfStop := -1 }, .done⟩,
       ⟨.api (.set (some 2) none), granted, .done⟩]).account.opened = [(0, true), (1, true)] := by
  decide

end Rotation

end AppCore
