import Mathlib.Data.Vector.Basic

/-!
# The test channel monitor's return values

`util/test_utils.rs`, `TestChannelMonitor`. Channel tests make the monitor fail by setting
`update_ret`, which every `add_monitor` and `update_monitor` returns, or `next_update_ret`,
of which the source says: "If this is set to Some(), after the next return, we'll always
return this until update_ret is changed". Both calls end with the same tail: clone
`update_ret`, then `take` `next_update_ret` and, if it held a value, store it in `update_ret`
while the `next_update_ret` guard is still alive.

`addMonitor` and `updateMonitor` are the two calls, with the serialization round trips and the
simple monitor as functions from outside the sources; `takeRet` is their tail.

Calls from several threads interleave at the tail's locks. `update_monitor` holds
`simple_monitor.monitors` from before its tail to its return, which `add_monitor` does not.
`Tails` cuts the tail at its lock operations, and `Tails.run_alone` shows a tail run without
interruption is `takeRet`. `update_ret_interleaved` is the law of every schedule after a test
set `update_ret` to `u` and `next_update_ret` to `some r`. Every call returns `u` or `r`, a
call that reads `update_ret` after another returned gets `r`, and no thread waits forever on
these locks. At most one `update_monitor` returns `u`, so for them the comment holds across
threads. Two `add_monitor` calls that both clone before either takes both return `u`.
-/

namespace Lightning.Util

/-- `chain::transaction::OutPoint`. -/
structure ChainOutPoint where
  txid : Mathlib.Vector UInt8 32
  index : UInt16
deriving DecidableEq

/-- What `TestChannelMonitor` calls outside the sources: `to_channel_id`; a monitor written by
`write_for_disk` and read back (`none` where `read(..).unwrap()` panics) and its
`get_latest_update_id`; an update written and read back and its `update_id`; and the simple
monitor's `add_monitor` and `update_monitor` on its map of monitors. -/
structure MonitorPrimitives (Monitor Update Err : Type) where
  toChannelId : ChainOutPoint → Mathlib.Vector UInt8 32
  reloadMonitor : Monitor → Option Monitor
  getLatestUpdateId : Monitor → UInt64
  reloadUpdate : Update → Option Update
  updateId : Update → UInt64
  simpleAddMonitor : (ChainOutPoint → Option Monitor) → ChainOutPoint → Monitor →
    Except Err (ChainOutPoint → Option Monitor)
  simpleUpdateMonitor : (ChainOutPoint → Option Monitor) → ChainOutPoint → Update →
    Except Err (ChainOutPoint → Option Monitor)

/-- `TestChannelMonitor`, on one thread: no guard is ever poisoned there, since a panic ends
the test. `monitors` is `simple_monitor.monitors`. -/
structure TestChannelMonitor (Monitor Err : Type) where
  addedMonitors : List (ChainOutPoint × Monitor)
  latestMonitorUpdateId : Mathlib.Vector UInt8 32 → Option (ChainOutPoint × UInt64)
  monitors : ChainOutPoint → Option Monitor
  updateRet : Except Err Unit
  nextUpdateRet : Option (Except Err Unit)

namespace TestChannelMonitor

variable {Monitor Update Err : Type}

/-- `TestChannelMonitor::new`. -/
def new : TestChannelMonitor Monitor Err := ⟨[], fun _ => none, fun _ => none, .ok (), none⟩

/-- The tail of both calls: `let ret = update_ret.clone()`; if `next_update_ret.take()` held
`next_ret`, `update_ret = next_ret`; return `ret`. -/
def takeRet (self : TestChannelMonitor Monitor Err) :
    Except Err Unit × TestChannelMonitor Monitor Err :=
  (self.updateRet,
    match self.nextUpdateRet with
    | some nextRet => { self with updateRet := nextRet, nextUpdateRet := none }
    | none => self)

@[simp] theorem takeRet_fst (self : TestChannelMonitor Monitor Err) :
    (takeRet self).1 = self.updateRet := rfl

@[simp] theorem takeRet_updateRet (self : TestChannelMonitor Monitor Err) :
    (takeRet self).2.updateRet = self.nextUpdateRet.getD self.updateRet := by
  unfold takeRet; split <;> simp_all

@[simp] theorem takeRet_nextUpdateRet (self : TestChannelMonitor Monitor Err) :
    (takeRet self).2.nextUpdateRet = none := by
  unfold takeRet; split <;> simp_all

@[simp] theorem takeRet_addedMonitors (self : TestChannelMonitor Monitor Err) :
    (takeRet self).2.addedMonitors = self.addedMonitors := by
  unfold takeRet; split <;> rfl

variable [DecidableEq Monitor] [DecidableEq Update] (prims : MonitorPrimitives Monitor Update Err)

/-- `add_monitor`; `none` where it panics. -/
def addMonitor (self : TestChannelMonitor Monitor Err) (fundingTxo : ChainOutPoint)
    (monitor : Monitor) : Option (Except Err Unit) × TestChannelMonitor Monitor Err :=
  match prims.reloadMonitor monitor with
  | none => (none, self)
  | some newMonitor =>
      if newMonitor = monitor then
        let self := { self with
          latestMonitorUpdateId := Function.update self.latestMonitorUpdateId
            (prims.toChannelId fundingTxo) (some (fundingTxo, prims.getLatestUpdateId monitor))
          addedMonitors := self.addedMonitors ++ [(fundingTxo, monitor)] }
        match prims.simpleAddMonitor self.monitors fundingTxo newMonitor with
        | .ok monitors =>
            let (ret, self) := takeRet { self with monitors }
            (some ret, self)
        | .error _ => (none, self)
      else (none, self)

/-- `update_monitor`; `none` where it panics. -/
def updateMonitor (self : TestChannelMonitor Monitor Err) (fundingTxo : ChainOutPoint)
    (update : Update) : Option (Except Err Unit) × TestChannelMonitor Monitor Err :=
  match prims.reloadUpdate update with
  | none => (none, self)
  | some newUpdate =>
      if newUpdate = update then
        let self := { self with
          latestMonitorUpdateId := Function.update self.latestMonitorUpdateId
            (prims.toChannelId fundingTxo) (some (fundingTxo, prims.updateId update)) }
        match prims.simpleUpdateMonitor self.monitors fundingTxo update with
        | .error _ => (none, self)
        | .ok monitors =>
            let self := { self with monitors }
            match monitors fundingTxo with
            | none => (none, self)
            | some monitor =>
                match prims.reloadMonitor monitor with
                | none => (none, self)
                | some newMonitor =>
                    if newMonitor = monitor then
                      let (ret, self) := takeRet { self with
                        addedMonitors := self.addedMonitors ++ [(fundingTxo, newMonitor)] }
                      (some ret, self)
                    else (none, self)
      else (none, self)

/-- What a call does to what its caller reads afterwards: it panics before the tail, with the
return fields as they were and at most one monitor recorded, or it records one monitor and
runs the tail. -/
def TailOf (self : TestChannelMonitor Monitor Err)
    (out : Option (Except Err Unit) × TestChannelMonitor Monitor Err) : Prop :=
  ∃ t : TestChannelMonitor Monitor Err,
    (out = (none, t) ∧
        (t.addedMonitors = self.addedMonitors ∨ ∃ e, t.addedMonitors = self.addedMonitors ++ [e]) ∨
      out = (some (takeRet t).1, (takeRet t).2) ∧ ∃ e, t.addedMonitors = self.addedMonitors ++ [e]) ∧
    t.updateRet = self.updateRet ∧ t.nextUpdateRet = self.nextUpdateRet

omit [DecidableEq Update] in
theorem addMonitor_tailOf (self : TestChannelMonitor Monitor Err) (fundingTxo : ChainOutPoint)
    (monitor : Monitor) : TailOf self (self.addMonitor prims fundingTxo monitor) := by
  unfold addMonitor
  dsimp only
  split
  · exact ⟨self, .inl ⟨rfl, .inl rfl⟩, rfl, rfl⟩
  · split
    · split
      · exact ⟨_, .inr ⟨rfl, _, rfl⟩, rfl, rfl⟩
      · exact ⟨_, .inl ⟨rfl, .inr ⟨_, rfl⟩⟩, rfl, rfl⟩
    · exact ⟨self, .inl ⟨rfl, .inl rfl⟩, rfl, rfl⟩

theorem updateMonitor_tailOf (self : TestChannelMonitor Monitor Err)
    (fundingTxo : ChainOutPoint) (update : Update) :
    TailOf self (self.updateMonitor prims fundingTxo update) := by
  unfold updateMonitor
  dsimp only
  repeat' split
  all_goals first
    | exact ⟨_, .inr ⟨rfl, _, rfl⟩, rfl, rfl⟩
    | exact ⟨_, .inl ⟨rfl, .inl rfl⟩, rfl, rfl⟩

/-- A call the channel code makes on the monitor. -/
inductive MonitorCall (Monitor Update : Type) where
  | addMonitor (fundingTxo : ChainOutPoint) (monitor : Monitor)
  | updateMonitor (fundingTxo : ChainOutPoint) (update : Update)

/-- The call on the monitor; `none` where it panics. -/
def MonitorCall.apply : MonitorCall Monitor Update → TestChannelMonitor Monitor Err →
    Option (Except Err Unit) × TestChannelMonitor Monitor Err
  | .addMonitor fundingTxo monitor, self => self.addMonitor prims fundingTxo monitor
  | .updateMonitor fundingTxo update, self => self.updateMonitor prims fundingTxo update

theorem MonitorCall.apply_tailOf (c : MonitorCall Monitor Update)
    (self : TestChannelMonitor Monitor Err) : TailOf self (c.apply prims self) := by
  cases c
  · exact addMonitor_tailOf prims self _ _
  · exact updateMonitor_tailOf prims self _ _

/-- The calls in order on one thread, up to the first that panics: what they returned and
the monitor after them. -/
def run (self : TestChannelMonitor Monitor Err) :
    List (MonitorCall Monitor Update) → List (Except Err Unit) × TestChannelMonitor Monitor Err
  | [] => ([], self)
  | c :: cs =>
      match c.apply prims self with
      | (some ret, self) => ((ret :: (run self cs).1), (run self cs).2)
      | (none, self) => ([], self)

/-- The source's comment on one thread: the first call that gets through returns `update_ret`,
and every later one returns `next_update_ret` where a test set it; `update_ret` then holds
that value and `next_update_ret` is empty, and a call that panics has left them as they were.
Every call appends to `added_monitors`, one monitor for each call that returns. -/
theorem monitor_returns_run_law (self : TestChannelMonitor Monitor Err)
    (calls : List (MonitorCall Monitor Update)) :
    (∀ j v, (run prims self calls).1[j]? = some v →
      v = if j = 0 then self.updateRet else self.nextUpdateRet.getD self.updateRet) ∧
    ((run prims self calls).1 = [] →
      (run prims self calls).2.updateRet = self.updateRet ∧
        (run prims self calls).2.nextUpdateRet = self.nextUpdateRet) ∧
    ((run prims self calls).1 ≠ [] →
      (run prims self calls).2.updateRet = self.nextUpdateRet.getD self.updateRet ∧
        (run prims self calls).2.nextUpdateRet = none) ∧
    self.addedMonitors <+: (run prims self calls).2.addedMonitors ∧
    ((run prims self calls).1.length = calls.length →
      (run prims self calls).2.addedMonitors.length = self.addedMonitors.length + calls.length) := by
  induction calls generalizing self with
  | nil => simp [run]
  | cons c cs ih =>
    obtain ⟨t, ⟨hout, hadd⟩ | ⟨hout, e, hadd⟩, hu, hn⟩ := c.apply_tailOf prims self
    · simp only [run, hout]
      refine ⟨by simp, fun _ => ⟨hu, hn⟩, by simp, ?_, by simp⟩
      rcases hadd with h | ⟨e, h⟩ <;> simp [h]
    · obtain ⟨ihv, ihnil, ihcons, ihpre, ihlen⟩ := ih (takeRet t).2
      simp only [takeRet_updateRet, takeRet_nextUpdateRet, takeRet_addedMonitors, Option.getD_none,
        ite_self, hu, hn, hadd] at ihv ihnil ihcons ihpre ihlen
      simp only [run, hout, takeRet_fst, hu]
      have hlast := (em ((run prims (takeRet t).2 cs).1 = [])).elim ihnil ihcons
      refine ⟨?_, fun h => absurd h (List.cons_ne_nil _ _), fun _ => hlast,
        (List.prefix_append _ _).trans ihpre, fun h => ?_⟩
      · rintro (_ | j) v h
        · simpa using h.symm
        · exact ihv j v (by simpa using h)
      · simp only [List.length_cons, Nat.add_right_cancel_iff] at h
        simp only [ihlen h, List.length_append, List.length_cons, List.length_nil]
        omega

end TestChannelMonitor

/-! ## The tail from several threads -/

/-- Where a call is in the tail: before it (an `update_monitor` first takes
`simple_monitor.monitors`), entered, with `update_ret` cloned, holding the `next_update_ret`
guard with the value it took, or returned. -/
inductive TailPhase (R : Type) where
  | ready
  | entered
  | cloned (ret : R)
  | storing (ret next : R)
  | returned (ret : R)
deriving DecidableEq

namespace TailPhase

variable {R : Type}

/-- Past entering the tail and not yet returned: an `update_monitor` there holds
`simple_monitor.monitors`. -/
def inTail : TailPhase R → Bool
  | .entered | .cloned _ | .storing _ _ => true
  | _ => false

/-- Holding the `next_update_ret` guard. -/
def isStoring : TailPhase R → Bool
  | .storing _ _ => true
  | _ => false

/-- The value the call cloned from `update_ret`, once it has. -/
def retValue : TailPhase R → Option R
  | .cloned v | .storing v _ | .returned v => some v
  | _ => none

end TailPhase

/-- Calls on `n` threads in their tails: the two values, which thread holds
`simple_monitor.monitors` and which the `next_update_ret` guard, and each call's phase. The
`update_ret` lock is held only inside a step. -/
structure Tails (R : Type) (n : Nat) where
  updateRet : R
  nextUpdateRet : Option R
  monitorsHolder : Option (Fin n)
  nextHolder : Option (Fin n)
  phase : Fin n → TailPhase R

namespace Tails

variable {R : Type} {n : Nat} (isUpdate : Fin n → Bool)

/-- Every call before its tail, no lock held. -/
def init (updateRet : R) (nextUpdateRet : Option R) : Tails R n :=
  ⟨updateRet, nextUpdateRet, none, none, fun _ => .ready⟩

/-- Call `i` reaches its tail; an `update_monitor` has taken `simple_monitor.monitors`. -/
def enter (s : Tails R n) (i : Fin n) : Tails R n :=
  { s with
    monitorsHolder := if isUpdate i then some i else s.monitorsHolder
    phase := Function.update s.phase i .entered }

/-- `let ret = self.update_ret.lock().unwrap().clone();` -/
def clone (s : Tails R n) (i : Fin n) : Tails R n :=
  { s with phase := Function.update s.phase i (.cloned s.updateRet) }

/-- `self.next_update_ret.lock().unwrap().take()` gave `Some(next)`: the guard lives on
through the store. -/
def take (s : Tails R n) (i : Fin n) (ret next : R) : Tails R n :=
  { s with
    nextUpdateRet := none
    nextHolder := some i
    phase := Function.update s.phase i (.storing ret next) }

/-- Call `i` returns `ret`; an `update_monitor` drops its `monitors` guard with it. -/
def finish (s : Tails R n) (i : Fin n) (ret : R) : Tails R n :=
  { s with
    phase := Function.update s.phase i (.returned ret)
    monitorsHolder := if isUpdate i then none else s.monitorsHolder }

/-- `*self.update_ret.lock().unwrap() = next_ret;`, the `next_update_ret` guard dropped, and
the call returns. -/
def store (s : Tails R n) (i : Fin n) (ret next : R) : Tails R n :=
  { finish isUpdate s i ret with updateRet := next, nextHolder := none }

/-- Call `i` takes its next step, `isUpdate i` telling an `update_monitor` from an
`add_monitor`. A step that would wait on a lock another thread holds leaves the state as it
is. `add_monitor`'s own call of `simple_monitor.add_monitor` takes and drops that lock before
the tail, which is left out: it only removes schedules. -/
def step (s : Tails R n) (i : Fin n) : Tails R n :=
  match s.phase i with
  | .ready => if isUpdate i && s.monitorsHolder.isSome then s else enter isUpdate s i
  | .entered => clone s i
  | .cloned ret =>
      if s.nextHolder.isSome then s
      else
        match s.nextUpdateRet with
        | some next => take s i ret next
        | none => finish isUpdate s i ret
  | .storing ret next => store isUpdate s i ret next
  | .returned _ => s

/-- The threads step in the order `sched`. -/
def run (s : Tails R n) (sched : List (Fin n)) : Tails R n := sched.foldl (step isUpdate) s

/-- Everything a step can do. -/
theorem step_cases (s : Tails R n) (i : Fin n) :
    step isUpdate s i = s ∨
    s.phase i = .ready ∧ (isUpdate i → s.monitorsHolder = none) ∧
      step isUpdate s i = enter isUpdate s i ∨
    s.phase i = .entered ∧ step isUpdate s i = clone s i ∨
    (∃ ret next, s.phase i = .cloned ret ∧ s.nextHolder = none ∧ s.nextUpdateRet = some next ∧
      step isUpdate s i = take s i ret next) ∨
    (∃ ret, s.phase i = .cloned ret ∧ s.nextHolder = none ∧ s.nextUpdateRet = none ∧
      step isUpdate s i = finish isUpdate s i ret) ∨
    ∃ ret next, s.phase i = .storing ret next ∧ step isUpdate s i = store isUpdate s i ret next := by
  unfold step
  split
  next hp =>
    by_cases h : isUpdate i && s.monitorsHolder.isSome
    · exact .inl (if_pos h)
    · refine .inr (.inl ⟨hp, fun hu => ?_, if_neg h⟩)
      simpa [hu] using h
  next hp => exact .inr (.inr (.inl ⟨hp, rfl⟩))
  next ret hp =>
    rcases s.nextHolder with _ | k
    · rcases s.nextUpdateRet with _ | next
      · exact .inr (.inr (.inr (.inr (.inl ⟨ret, hp, rfl, rfl, rfl⟩))))
      · exact .inr (.inr (.inr (.inl ⟨ret, next, hp, rfl, rfl, rfl⟩)))
    · exact .inl (by simp)
  next ret next hp => exact .inr (.inr (.inr (.inr (.inr ⟨ret, next, hp, rfl⟩))))
  next => exact .inl rfl

/-- What holds in every state the calls reach after a test set `update_ret` to `u` and
`next_update_ret` to `some r`. Each lock is held by the thread whose phase says so. The values
go through three stages: `r` waiting, `r` taken with its taker about to store it, and `r`
stored. A call returns only once `r` is stored. Of two `update_monitor` calls that cloned,
one cloned `r`. -/
structure Settles (u r : R) (s : Tails R n) : Prop where
  monitorsHeld : ∀ i, s.monitorsHolder = some i ↔ isUpdate i ∧ (s.phase i).inTail
  nextHeld : ∀ i, s.nextHolder = some i ↔ (s.phase i).isStoring
  storingNext : ∀ i v w, s.phase i = .storing v w → w = r
  stage : s.nextUpdateRet = some r ∧ s.nextHolder = none ∧ s.updateRet = u ∨
    s.nextUpdateRet = none ∧ s.nextHolder ≠ none ∧ s.updateRet = u ∨
    s.nextUpdateRet = none ∧ s.nextHolder = none ∧ s.updateRet = r
  returnedSettled : ∀ i v, s.phase i = .returned v → s.nextUpdateRet = none ∧ s.updateRet = r
  values : ∀ i v, (s.phase i).retValue = some v → v = u ∨ v = r
  oneOld : ∀ j k vj vk, j ≠ k → isUpdate j → isUpdate k → (s.phase j).retValue = some vj →
    (s.phase k).retValue = some vk → vj = r ∨ vk = r

theorem settles_init (u r : R) : Settles isUpdate u r (init u (some r) : Tails R n) where
  monitorsHeld i := by simp [init, TailPhase.inTail]
  nextHeld i := by simp [init, TailPhase.isStoring]
  storingNext i v w h := by simp [init] at h
  stage := .inl ⟨rfl, rfl, rfl⟩
  returnedSettled i v h := by simp [init] at h
  values i v h := by simp [init, TailPhase.retValue] at h
  oneOld j k vj vk _ _ _ h := by simp [init, TailPhase.retValue] at h

theorem retValue_update_of_eq {p : Fin n → TailPhase R} {i : Fin n} {q : TailPhase R}
    (h : q.retValue = (p i).retValue) (j : Fin n) :
    (Function.update p i q j).retValue = (p j).retValue := by
  by_cases hj : j = i
  · subst hj; simpa using h
  · simp [hj]

namespace Settles

variable {isUpdate} {u r : R} {s : Tails R n} {i : Fin n}

theorem values_of_retValue (hs : Settles isUpdate u r s) {t : Tails R n}
    (he : ∀ j, (t.phase j).retValue = (s.phase j).retValue) :
    ∀ j v, (t.phase j).retValue = some v → v = u ∨ v = r :=
  fun j v h => hs.values j v (he j ▸ h)

theorem oneOld_of_retValue (hs : Settles isUpdate u r s) {t : Tails R n}
    (he : ∀ j, (t.phase j).retValue = (s.phase j).retValue) :
    ∀ j k vj vk, j ≠ k → isUpdate j → isUpdate k → (t.phase j).retValue = some vj →
      (t.phase k).retValue = some vk → vj = r ∨ vk = r :=
  fun j k vj vk hjk huj huk hj hk => hs.oneOld j k vj vk hjk huj huk (he j ▸ hj) (he k ▸ hk)

theorem updateRet_mem (hs : Settles isUpdate u r s) : s.updateRet = u ∨ s.updateRet = r := by
  rcases hs.stage with ⟨-, -, h⟩ | ⟨-, -, h⟩ | ⟨-, -, h⟩ <;> simp [h]

theorem of_next_some (hs : Settles isUpdate u r s) {next : R} (hn : s.nextUpdateRet = some next) :
    next = r ∧ s.updateRet = u := by
  rcases hs.stage with ⟨h, -, hu⟩ | ⟨h, -⟩ | ⟨h, -⟩ <;> simp_all

theorem of_holder (hs : Settles isUpdate u r s) (hh : s.nextHolder ≠ none) :
    s.nextUpdateRet = none ∧ s.updateRet = u := by
  rcases hs.stage with ⟨-, h, -⟩ | ⟨hn, -, hu⟩ | ⟨-, h, -⟩ <;> simp_all

theorem of_free (hs : Settles isUpdate u r s) (hn : s.nextUpdateRet = none)
    (hh : s.nextHolder = none) : s.updateRet = r := by
  rcases hs.stage with ⟨h, -⟩ | ⟨-, h, -⟩ | ⟨-, -, hu⟩ <;> simp_all

/-- Two `update_monitor` calls are never both past entering their tails. -/
theorem eq_of_inTail (hs : Settles isUpdate u r s) {j k : Fin n} (huj : isUpdate j)
    (huk : isUpdate k) (hj : (s.phase j).inTail) (hk : (s.phase k).inTail) : j = k :=
  Option.some_injective _ (((hs.monitorsHeld j).2 ⟨huj, hj⟩).symm.trans
    ((hs.monitorsHeld k).2 ⟨huk, hk⟩))

/-- The monitors clause after call `i` returns from its tail. -/
theorem monitorsHeld_finish (hs : Settles isUpdate u r s) (hi : (s.phase i).inTail) (ret : R)
    (j : Fin n) : (finish isUpdate s i ret).monitorsHolder = some j ↔
      isUpdate j ∧ ((finish isUpdate s i ret).phase j).inTail := by
  have hj := hs.monitorsHeld j
  by_cases hji : j = i
  · subst hji
    cases hu : isUpdate j <;> simp_all [finish, TailPhase.inTail]
  · simp only [finish, Function.update_noteq hji]
    cases hu : isUpdate i
    · simpa using hj
    · exact ⟨fun h => by simp at h, fun ⟨huj, hk⟩ => absurd (hs.eq_of_inTail huj hu hk hi) hji⟩

theorem enter (hs : Settles isUpdate u r s) (hp : s.phase i = .ready)
    (hg : isUpdate i → s.monitorsHolder = none) : Settles isUpdate u r (Tails.enter isUpdate s i) where
  monitorsHeld j := by
    have hj := hs.monitorsHeld j
    by_cases hji : j = i
    · subst hji; cases hu : isUpdate j <;> simp_all [Tails.enter, TailPhase.inTail]
    · cases hu : isUpdate i <;> simp_all [Tails.enter, Function.update_noteq hji, Ne.symm hji]
  nextHeld j := by
    by_cases hji : j = i
    · subst hji; simpa [Tails.enter, hp, TailPhase.isStoring] using hs.nextHeld j
    · simpa [Tails.enter, Function.update_noteq hji] using hs.nextHeld j
  storingNext j v w h := by
    by_cases hji : j = i
    · subst hji; simp [Tails.enter] at h
    · exact hs.storingNext j v w (by simpa [Tails.enter, hji] using h)
  stage := hs.stage
  returnedSettled j v h := by
    by_cases hji : j = i
    · subst hji; simp [Tails.enter] at h
    · exact hs.returnedSettled j v (by simpa [Tails.enter, hji] using h)
  values := hs.values_of_retValue (retValue_update_of_eq (by simp [hp, TailPhase.retValue]))
  oneOld := hs.oneOld_of_retValue (retValue_update_of_eq (by simp [hp, TailPhase.retValue]))

/-- An `update_monitor` about to clone `update_ret` while another has cloned: the other has
returned, since it would hold `simple_monitor.monitors`, so `update_ret` is `r`. -/
theorem updateRet_of_cloned (hs : Settles isUpdate u r s) (hp : s.phase i = .entered)
    (hui : isUpdate i) {k : Fin n} (hki : k ≠ i) (huk : isUpdate k) {v : R}
    (hv : (s.phase k).retValue = some v) : s.updateRet = r := by
  have hi : (s.phase i).inTail := by simp [hp, TailPhase.inTail]
  rcases hk : s.phase k with _ | _ | w | ⟨w, x⟩ | w <;>
    simp only [hk, TailPhase.retValue, reduceCtorEq] at hv
  · exact absurd (hs.eq_of_inTail huk hui (by simp [hk, TailPhase.inTail]) hi) hki
  · exact absurd (hs.eq_of_inTail huk hui (by simp [hk, TailPhase.inTail]) hi) hki
  · exact (hs.returnedSettled k w hk).2

theorem clone (hs : Settles isUpdate u r s) (hp : s.phase i = .entered) :
    Settles isUpdate u r (Tails.clone s i) where
  monitorsHeld j := by
    by_cases hji : j = i
    · subst hji; simpa [Tails.clone, hp, TailPhase.inTail] using hs.monitorsHeld j
    · simpa [Tails.clone, Function.update_noteq hji] using hs.monitorsHeld j
  nextHeld j := by
    by_cases hji : j = i
    · subst hji; simpa [Tails.clone, hp, TailPhase.isStoring] using hs.nextHeld j
    · simpa [Tails.clone, Function.update_noteq hji] using hs.nextHeld j
  storingNext j v w h := by
    by_cases hji : j = i
    · subst hji; simp [Tails.clone] at h
    · exact hs.storingNext j v w (by simpa [Tails.clone, hji] using h)
  stage := hs.stage
  returnedSettled j v h := by
    by_cases hji : j = i
    · subst hji; simp [Tails.clone] at h
    · exact hs.returnedSettled j v (by simpa [Tails.clone, hji] using h)
  values j v h := by
    by_cases hji : j = i
    · subst hji
      simp only [Tails.clone, Function.update_same, TailPhase.retValue, Option.some.injEq] at h
      exact h ▸ hs.updateRet_mem
    · exact hs.values j v (by simpa [Tails.clone, hji] using h)
  oneOld j k vj vk hjk huj huk hj hk := by
    by_cases hji : j = i
    · subst hji
      simp only [Tails.clone, Function.update_same, TailPhase.retValue, Option.some.injEq] at hj
      exact .inl (hj ▸ hs.updateRet_of_cloned hp huj (Ne.symm hjk) huk
        (by simpa [Tails.clone, Ne.symm hjk] using hk))
    · by_cases hki : k = i
      · subst hki
        simp only [Tails.clone, Function.update_same, TailPhase.retValue, Option.some.injEq] at hk
        exact .inr (hk ▸ hs.updateRet_of_cloned hp huk hjk huj
          (by simpa [Tails.clone, hjk] using hj))
      · exact hs.oneOld j k vj vk hjk huj huk (by simpa [Tails.clone, hji] using hj)
          (by simpa [Tails.clone, hki] using hk)

theorem take (hs : Settles isUpdate u r s) {ret next : R} (hp : s.phase i = .cloned ret)
    (hh : s.nextHolder = none) (hn : s.nextUpdateRet = some next) :
    Settles isUpdate u r (Tails.take s i ret next) where
  monitorsHeld j := by
    by_cases hji : j = i
    · subst hji; simpa [Tails.take, hp, TailPhase.inTail] using hs.monitorsHeld j
    · simpa [Tails.take, Function.update_noteq hji] using hs.monitorsHeld j
  nextHeld j := by
    by_cases hji : j = i
    · subst hji; simp [Tails.take, TailPhase.isStoring]
    · simpa [Tails.take, Function.update_noteq hji, Ne.symm hji, hh] using hs.nextHeld j
  storingNext j v w h := by
    by_cases hji : j = i
    · subst hji
      simp only [Tails.take, Function.update_same, TailPhase.storing.injEq] at h
      exact h.2 ▸ (hs.of_next_some hn).1
    · exact hs.storingNext j v w (by simpa [Tails.take, hji] using h)
  stage := .inr (.inl ⟨rfl, by simp [Tails.take], (hs.of_next_some hn).2⟩)
  returnedSettled j v h := by
    by_cases hji : j = i
    · subst hji; simp [Tails.take] at h
    · simpa [hn] using (hs.returnedSettled j v (by simpa [Tails.take, hji] using h)).1
  values := hs.values_of_retValue (retValue_update_of_eq (by simp [hp, TailPhase.retValue]))
  oneOld := hs.oneOld_of_retValue (retValue_update_of_eq (by simp [hp, TailPhase.retValue]))

/-- Call `i`, past its clone, returns: from `cloned` when it found `next_update_ret` empty,
or from `storing` after its store. No call is storing after either. -/
theorem finish_of_free (hs : Settles isUpdate u r s) {ret : R} (hi : (s.phase i).inTail)
    (he : (s.phase i).retValue = some ret) {t : Tails R n} (hph : t.phase = (finish isUpdate s i ret).phase)
    (hmh : t.monitorsHolder = (finish isUpdate s i ret).monitorsHolder) (hh : t.nextHolder = none)
    (hst : ∀ j, j ≠ i → (s.phase j).isStoring = false) (hn : t.nextUpdateRet = none)
    (hu : t.updateRet = r) : Settles isUpdate u r t where
  monitorsHeld j := by rw [hph, hmh]; exact hs.monitorsHeld_finish hi ret j
  nextHeld j := by
    by_cases hji : j = i
    · subst hji; simp [hph, hh, finish, TailPhase.isStoring]
    · simp [hph, hh, finish, hji, hst j hji]
  storingNext j v w h := by
    by_cases hji : j = i
    · subst hji; simp [hph, finish] at h
    · exact hs.storingNext j v w (by simpa [hph, finish, hji] using h)
  stage := .inr (.inr ⟨hn, hh, hu⟩)
  returnedSettled _ _ _ := ⟨hn, hu⟩
  values := hs.values_of_retValue (hph ▸ retValue_update_of_eq (by rw [he]; rfl))
  oneOld := hs.oneOld_of_retValue (hph ▸ retValue_update_of_eq (by rw [he]; rfl))

theorem finish (hs : Settles isUpdate u r s) {ret : R} (hp : s.phase i = .cloned ret)
    (hh : s.nextHolder = none) (hn : s.nextUpdateRet = none) :
    Settles isUpdate u r (Tails.finish isUpdate s i ret) :=
  hs.finish_of_free (by simp [hp, TailPhase.inTail]) (by simp [hp, TailPhase.retValue]) rfl rfl hh
    (fun j _ => by simpa [hh] using hs.nextHeld j) hn (hs.of_free hn hh)

theorem store (hs : Settles isUpdate u r s) {ret next : R} (hp : s.phase i = .storing ret next) :
    Settles isUpdate u r (Tails.store isUpdate s i ret next) :=
  have hnh : s.nextHolder = some i := (hs.nextHeld i).2 (by simp [hp, TailPhase.isStoring])
  hs.finish_of_free (by simp [hp, TailPhase.inTail]) (by simp [hp, TailPhase.retValue]) rfl rfl rfl
    (fun j hji => by simpa [hnh, Ne.symm hji] using hs.nextHeld j)
    (hs.of_holder (by simp [hnh])).1 (hs.storingNext i ret next hp)

theorem step (hs : Settles isUpdate u r s) (i : Fin n) :
    Settles isUpdate u r (Tails.step isUpdate s i) := by
  rcases step_cases isUpdate s i with h | ⟨hp, hg, h⟩ | ⟨hp, h⟩ | ⟨ret, next, hp, hh, hn, h⟩ |
    ⟨ret, hp, hh, hn, h⟩ | ⟨ret, next, hp, h⟩ <;> rw [h]
  exacts [hs, hs.enter hp hg, hs.clone hp, hs.take hp hh hn, hs.finish hp hh hn, hs.store hp]

theorem run (hs : Settles isUpdate u r s) (sched : List (Fin n)) :
    Settles isUpdate u r (Tails.run isUpdate s sched) := by
  induction sched generalizing s with
  | nil => exact hs
  | cons i sched ih => exact ih (hs.step i)

theorem step_ne (h : (Tails.step isUpdate s i).phase i ≠ s.phase i) :
    Tails.step isUpdate s i ≠ s :=
  fun e => h (congrArg (fun t => t.phase i) e)

/-- A call holding the `next_update_ret` guard can always store. -/
theorem storing_moves {k : Fin n} {ret next : R} (hk : s.phase k = .storing ret next) :
    Tails.step isUpdate s k ≠ s :=
  step_ne (by simp [Tails.step, hk, Tails.store, Tails.finish])

/-- A call in its tail can move, or the call holding the guard it waits on can. -/
theorem inTail_moves (hs : Settles isUpdate u r s) {j : Fin n} (hj : (s.phase j).inTail) :
    ∃ k, Tails.step isUpdate s k ≠ s := by
  rcases hp : s.phase j with _ | _ | ret | ⟨ret, next⟩ | ret <;>
    simp only [hp, TailPhase.inTail, reduceCtorEq] at hj
  · exact ⟨j, step_ne (by simp [Tails.step, hp, Tails.clone])⟩
  · rcases hh : s.nextHolder with _ | k
    · refine ⟨j, step_ne ?_⟩
      rcases hn : s.nextUpdateRet with _ | next <;>
        simp [Tails.step, hp, hh, hn, Tails.take, Tails.finish]
    · obtain ⟨ret', next', hk⟩ : ∃ ret next, s.phase k = .storing ret next := by
        have := (hs.nextHeld k).1 hh
        revert this; cases s.phase k <;> simp [TailPhase.isStoring]
      exact ⟨k, storing_moves hk⟩
  · exact ⟨j, storing_moves hp⟩

/-- No thread waits forever on these locks: while a call has not returned, some thread can
move. -/
theorem progress (hs : Settles isUpdate u r s) (h : ∃ i, ∀ v, s.phase i ≠ .returned v) :
    ∃ k, Tails.step isUpdate s k ≠ s := by
  obtain ⟨i, hi⟩ := h
  by_cases hin : (s.phase i).inTail
  · exact hs.inTail_moves hin
  rcases hp : s.phase i with _ | _ | ret | ⟨ret, next⟩ | ret <;>
    simp only [hp, TailPhase.inTail, not_true_eq_false] at hin
  · rcases hm : s.monitorsHolder with _ | j
    · exact ⟨i, step_ne (by simp [Tails.step, hp, hm, Tails.enter])⟩
    · by_cases hu : isUpdate i
      · exact hs.inTail_moves ((hs.monitorsHeld j).1 hm).2
      · exact ⟨i, step_ne (by simp [Tails.step, hp, hu, Tails.enter])⟩
  · exact absurd hp (hi ret)

end Settles

/-- After a test set `update_ret` to `u` and `next_update_ret` to `some r`, on every schedule
of `add_monitor` and `update_monitor` tails: each call returns `u` or `r`; once one has
returned, `update_ret` is `r` and `next_update_ret` empty, so every call that clones from then
on returns `r`; of two `update_monitor` calls one returns `r`; and while a call has not
returned, some thread can move. The comment does not hold for `add_monitor`: two calls that
both clone before either takes both return `u`. -/
theorem update_ret_interleaved (u r : R) (sched : List (Fin n)) :
    (∀ i v, (run isUpdate (init u (some r)) sched).phase i = .returned v → v = u ∨ v = r) ∧
    ((∃ i v, (run isUpdate (init u (some r)) sched).phase i = .returned v) →
      (run isUpdate (init u (some r)) sched).updateRet = r ∧
        (run isUpdate (init u (some r)) sched).nextUpdateRet = none) ∧
    (∀ j k vj vk, j ≠ k → isUpdate j → isUpdate k →
      (run isUpdate (init u (some r)) sched).phase j = .returned vj →
      (run isUpdate (init u (some r)) sched).phase k = .returned vk → vj = r ∨ vk = r) ∧
    ((∃ i, ∀ v, (run isUpdate (init u (some r)) sched).phase i ≠ .returned v) →
      ∃ i, step isUpdate (run isUpdate (init u (some r)) sched) i ≠
        run isUpdate (init u (some r)) sched) ∧
    ((run (fun _ => false) (init u (some r) : Tails R 2) [0, 1, 0, 1, 0, 1, 0, 1]).phase 0 =
        .returned u ∧
      (run (fun _ => false) (init u (some r) : Tails R 2) [0, 1, 0, 1, 0, 1, 0, 1]).phase 1 =
        .returned u) := by
  have hs := (settles_init isUpdate u r).run sched
  refine ⟨fun i v h => hs.values i v (by simp [h, TailPhase.retValue]),
    fun ⟨i, v, h⟩ => (hs.returnedSettled i v h).symm, fun j k vj vk hjk huj huk hj hk => ?_,
    hs.progress, rfl, rfl⟩
  exact hs.oneOld j k vj vk hjk huj huk (by simp [hj, TailPhase.retValue])
    (by simp [hk, TailPhase.retValue])

/-- One call's tail run without interruption, both locks free, is `takeRet`: the layer of
threads refines the calls on one thread. -/
theorem run_alone {Monitor Err : Type} (s : Tails (Except Err Unit) n) (i : Fin n)
    (hp : s.phase i = .ready) (hm : s.monitorsHolder = none) (hh : s.nextHolder = none)
    (self : TestChannelMonitor Monitor Err) (hu : s.updateRet = self.updateRet)
    (hn : s.nextUpdateRet = self.nextUpdateRet) :
    (run isUpdate s (List.replicate 4 i)).phase i = .returned (TestChannelMonitor.takeRet self).1 ∧
    (run isUpdate s (List.replicate 4 i)).updateRet = (TestChannelMonitor.takeRet self).2.updateRet ∧
    (run isUpdate s (List.replicate 4 i)).nextUpdateRet =
      (TestChannelMonitor.takeRet self).2.nextUpdateRet ∧
    (run isUpdate s (List.replicate 4 i)).monitorsHolder = none ∧
    (run isUpdate s (List.replicate 4 i)).nextHolder = none := by
  rcases hx : self.nextUpdateRet with _ | next <;> rw [hx] at hn <;>
    cases hu' : isUpdate i <;>
    simp [run, step, hp, hm, hh, hn, hu, hu', hx, enter, clone, take, finish, store]

end Tails

end Lightning.Util
