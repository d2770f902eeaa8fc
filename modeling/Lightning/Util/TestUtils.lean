import Lightning.Util.EnforcingTraitImpls
import Mathlib.Algebra.BigOperators.Fin
import Mathlib.Data.UInt

/-!
# The test routing-message handler and the test logger

`util/test_utils.rs`, `TestRoutingMessageHandler`. The handler counts the channel announcements
and updates it is handed, and serves at most `TOTAL_UPDS = 100` dummy channel announcements:
`get_next_channel_announcements` loads `chan_anns_sent`, serves the ids from `starting_point` up
to the smaller of `starting_point + batch_amount` and `TOTAL_UPDS - chan_anns_sent`, and adds the
number served with `fetch_add`. The arithmetic is `u64` in a debug build, so an overflow of
the sum or an underflow of the difference panics.

`announcements_run_law` is the law of every sequential run from `new`. The counter is the
number of announcements served and never passes `TOTAL_UPDS`, so the difference never
underflows and a call panics exactly when its `starting_point + batch_amount` overflows.

The `load` and the `fetch_add` are two atomic operations, so calls made from several threads
interleave between them. `Callers` cuts each call there, and `Callers.step_step` shows a call
run without interruption is `get_next_channel_announcements`.
`announcements_interleaved_counted` is the law of every schedule: the counter counts every
announcement served, each call serves ids from its own range below `TOTAL_UPDS`, and a call
whose two steps run back to back is `get_next_channel_announcements`. The bound of 100 on the
total is lost: two calls that load the counter before either adds to it serve 120.

`TestLogger` counts each module and text it is handed, under one lock per call.
`assert_log_counts` is its law: `assert_log(module, line, count)` passes after a run exactly
when `count` records of that module and text were logged and `count` is not zero. An
assertion that a line was never logged cannot pass.
-/

namespace Lightning.Util

/-- `u64` subtraction as a debug build runs it: `none` where Rust panics on underflow. -/
def checkedSub (a b : UInt64) : Option UInt64 :=
  if b ≤ a then some (a - b) else none

/-- The `u64`s of the range `a..b` in order, empty when `b ≤ a`. -/
def rangeU64 (a b : UInt64) : List UInt64 :=
  (List.range (b.toNat - a.toNat)).map fun k => a + UInt64.ofNat k

/-- `msgs::ErrorAction`, the one action the test handler uses. -/
inductive ErrorAction where
  | ignoreError
deriving DecidableEq, Repr

/-- `msgs::LightningError`. -/
structure LightningError where
  err : String
  action : ErrorAction
deriving DecidableEq, Repr

/-- `get_dummy_channel_announcement` and `get_dummy_channel_update`: unsigned messages with fixed
keys and the testnet genesis hash around a short channel id. -/
structure DummyMessages (ChannelAnnouncement ChannelUpdate : Type) where
  channelAnnouncement : UInt64 → ChannelAnnouncement
  channelUpdate : UInt64 → ChannelUpdate

/-- `TestRoutingMessageHandler`. The `AtomicUsize` counters are 64 bits wide and `fetch_add`
wraps. -/
structure TestRoutingMessageHandler where
  chanUpdsRecvd : UInt64
  chanAnnsRecvd : UInt64
  chanAnnsSent : UInt64
  requestFullSync : Bool

namespace TestRoutingMessageHandler

variable {ChannelAnnouncement ChannelUpdate : Type}
  (msgs : DummyMessages ChannelAnnouncement ChannelUpdate)

/-- `TestRoutingMessageHandler::new`. -/
def new : TestRoutingMessageHandler := ⟨0, 0, 0, false⟩

/-- `TOTAL_UPDS`. -/
def totalUpds : UInt64 := 100

/-- `handle_channel_announcement`: count the message and ignore it. -/
def handleChannelAnnouncement (self : TestRoutingMessageHandler) :
    Except LightningError Bool × TestRoutingMessageHandler :=
  (.error ⟨"", .ignoreError⟩, { self with chanAnnsRecvd := self.chanAnnsRecvd + 1 })

/-- `handle_channel_update`: count the message and ignore it. -/
def handleChannelUpdate (self : TestRoutingMessageHandler) :
    Except LightningError Bool × TestRoutingMessageHandler :=
  (.error ⟨"", .ignoreError⟩, { self with chanUpdsRecvd := self.chanUpdsRecvd + 1 })

/-- `cmp::min(starting_point + batch_amount as u64, TOTAL_UPDS - chan_anns_sent)` for the value
`chanAnnsSent` the call loaded: the end of the range of ids it serves, `none` where it panics. -/
def rangeEnd (startingPoint : UInt64) (batchAmount : UInt8) (chanAnnsSent : UInt64) :
    Option UInt64 := do
  let requested ← checkedAdd startingPoint batchAmount.toUInt64
  let available ← checkedSub totalUpds chanAnnsSent
  pure (min requested available)

/-- The announcements served for the ids `ids`: each dummy announcement with two dummy
updates. -/
def chanAnnsOf (ids : List UInt64) :
    List (ChannelAnnouncement × Option ChannelUpdate × Option ChannelUpdate) :=
  ids.map fun i => (msgs.channelAnnouncement i, some (msgs.channelUpdate i),
    some (msgs.channelUpdate i))

/-- `get_next_channel_announcements`; `none` where it panics. -/
def getNextChannelAnnouncements (self : TestRoutingMessageHandler) (startingPoint : UInt64)
    (batchAmount : UInt8) :
    Option (List (ChannelAnnouncement × Option ChannelUpdate × Option ChannelUpdate)) ×
      TestRoutingMessageHandler :=
  match rangeEnd startingPoint batchAmount self.chanAnnsSent with
  | none => (none, self)
  | some stop =>
      let chanAnns := chanAnnsOf msgs (rangeU64 startingPoint stop)
      (some chanAnns,
        { self with chanAnnsSent := self.chanAnnsSent + UInt64.ofNat chanAnns.length })

/-- The calls that change the handler. -/
inductive Call where
  | handleChannelAnnouncement
  | handleChannelUpdate
  | getNextChannelAnnouncements (startingPoint : UInt64) (batchAmount : UInt8)
deriving DecidableEq

/-- What a call returns. -/
inductive Output (ChannelAnnouncement ChannelUpdate : Type) where
  | handled (result : Except LightningError Bool)
  | announcements
      (result : Option (List (ChannelAnnouncement × Option ChannelUpdate × Option ChannelUpdate)))

/-- The number of announcements an output serves. -/
def Output.served : Output ChannelAnnouncement ChannelUpdate → Nat
  | .announcements (some chanAnns) => chanAnns.length
  | _ => 0

/-- One call. -/
def Call.apply : Call → TestRoutingMessageHandler →
    Output ChannelAnnouncement ChannelUpdate × TestRoutingMessageHandler
  | .handleChannelAnnouncement, s => (.handled s.handleChannelAnnouncement.1,
      s.handleChannelAnnouncement.2)
  | .handleChannelUpdate, s => (.handled s.handleChannelUpdate.1, s.handleChannelUpdate.2)
  | .getNextChannelAnnouncements startingPoint batchAmount, s =>
      (.announcements (s.getNextChannelAnnouncements msgs startingPoint batchAmount).1,
        (s.getNextChannelAnnouncements msgs startingPoint batchAmount).2)

/-- A sequence of calls on one thread, with what each returned. -/
def run : TestRoutingMessageHandler → List Call →
    List (Output ChannelAnnouncement ChannelUpdate) × TestRoutingMessageHandler
  | s, [] => ([], s)
  | s, c :: cs =>
      let r := c.apply msgs s
      ((r.1 :: (run r.2 cs).1), (run r.2 cs).2)

/-! ## One call -/

theorem toNat_min (a b : UInt64) : (min a b).toNat = min a.toNat b.toNat := by
  show (if a ≤ b then a else b).toNat = _
  split <;> rename_i h <;> rw [UInt64.le_iff_toNat_le] at h <;> omega

theorem length_rangeU64 (a b : UInt64) : (rangeU64 a b).length = b.toNat - a.toNat := by
  simp [rangeU64]

/-- Every id of `a..b` lies between `a` and `b`. -/
theorem mem_rangeU64 {a b i : UInt64} (h : i ∈ rangeU64 a b) :
    a.toNat ≤ i.toNat ∧ i.toNat < b.toNat := by
  obtain ⟨k, hk, rfl⟩ := List.mem_map.1 h
  have hk := List.mem_range.1 hk
  have hb := UInt64.toNat_lt_size b
  rw [UInt64.toNat_add, UInt64.toNat_ofNat, Nat.mod_eq_of_lt (show k < 2 ^ 64 by
    simp only [UInt64.size] at hb; omega), Nat.mod_eq_of_lt (by simp only [UInt64.size] at hb; omega)]
  omega

/-- What `rangeEnd` computes, in `Nat`, once the counter is within `TOTAL_UPDS`. -/
theorem rangeEnd_eq (startingPoint : UInt64) (batchAmount : UInt8) {sent : UInt64}
    (hsent : sent.toNat ≤ 100) :
    (rangeEnd startingPoint batchAmount sent).map UInt64.toNat =
      if startingPoint.toNat + batchAmount.toNat < 2 ^ 64 then
        some (min (startingPoint.toNat + batchAmount.toNat) (100 - sent.toNat))
      else none := by
  have hb : batchAmount.toUInt64.toNat = batchAmount.toNat := rfl
  have hle : sent ≤ totalUpds := UInt64.le_iff_toNat_le.2 hsent
  have hsub : checkedSub totalUpds sent = some (totalUpds - sent) := if_pos hle
  have hdiff : (totalUpds - sent).toNat = 100 - sent.toNat := UInt64.toNat_sub_of_le _ _ hle
  simp only [rangeEnd, checkedAdd, hb, hsub]
  split
  · simp only [Option.pure_def, Option.bind_eq_bind, Option.some_bind, Option.map_some',
      toNat_min, UInt64.toNat_add, hb, hdiff]
    rw [Nat.mod_eq_of_lt ‹_›]
  · rfl

/-- Whatever counter a call loads, the range it serves ends at or below `starting_point +
batch_amount` and at or below `TOTAL_UPDS`. -/
theorem rangeEnd_le {startingPoint : UInt64} {batchAmount : UInt8} {sent stop : UInt64}
    (h : rangeEnd startingPoint batchAmount sent = some stop) :
    stop.toNat ≤ startingPoint.toNat + batchAmount.toNat ∧ stop.toNat ≤ 100 := by
  simp only [rangeEnd, checkedAdd, checkedSub, Option.pure_def, Option.bind_eq_bind] at h
  split at h <;> rename_i hfit
  · split at h <;> rename_i hle
    · have hstop := (Option.some.inj h).symm
      have hdiff : (totalUpds - sent).toNat = 100 - sent.toNat := UInt64.toNat_sub_of_le _ _ hle
      have hsum : (startingPoint + batchAmount.toUInt64).toNat =
          startingPoint.toNat + batchAmount.toNat := by
        rw [UInt64.toNat_add, Nat.mod_eq_of_lt hfit]
        rfl
      rw [hstop, toNat_min, hdiff, hsum]
      omega
    · cases h
  · cases h

/-- What `get_next_channel_announcements` returns when it loads the counter value
`chanAnnsSent`. -/
def servedFrom (chanAnnsSent startingPoint : UInt64) (batchAmount : UInt8) :
    Option (List (ChannelAnnouncement × Option ChannelUpdate × Option ChannelUpdate)) :=
  (rangeEnd startingPoint batchAmount chanAnnsSent).map fun stop =>
    chanAnnsOf msgs (rangeU64 startingPoint stop)

/-- A call returns what the counter it loads allows, and adds the number served to it. -/
theorem getNextChannelAnnouncements_eq (s : TestRoutingMessageHandler) (startingPoint : UInt64)
    (batchAmount : UInt8) :
    s.getNextChannelAnnouncements msgs startingPoint batchAmount =
      (servedFrom msgs s.chanAnnsSent startingPoint batchAmount,
        { s with chanAnnsSent := s.chanAnnsSent + UInt64.ofNat (Output.announcements
            (servedFrom msgs s.chanAnnsSent startingPoint batchAmount)).served }) := by
  unfold getNextChannelAnnouncements servedFrom
  cases rangeEnd startingPoint batchAmount s.chanAnnsSent
  · simp [Output.served]
  · rfl

/-- From a counter within `TOTAL_UPDS`, a call panics exactly when `starting_point +
batch_amount` overflows, and serves at most what is left of `TOTAL_UPDS`. -/
theorem servedFrom_spec (sent startingPoint : UInt64) (batchAmount : UInt8)
    (hsent : sent.toNat ≤ 100) :
    (servedFrom msgs sent startingPoint batchAmount = none ↔
      2 ^ 64 ≤ startingPoint.toNat + batchAmount.toNat) ∧
    (Output.announcements (servedFrom msgs sent startingPoint batchAmount)).served ≤
      100 - sent.toNat := by
  have hend := rangeEnd_eq startingPoint batchAmount hsent
  unfold servedFrom
  rcases hr : rangeEnd startingPoint batchAmount sent with _ | stop <;> rw [hr] at hend <;>
    split at hend <;> rename_i hfit
  · cases hend
  · exact ⟨by simpa using hfit, by simp [Output.served]⟩
  · have hstop := Option.some.inj hend
    refine ⟨by simpa using hfit, ?_⟩
    simp only [Option.map_some', Output.served, chanAnnsOf, List.length_map, length_rangeU64]
    omega
  · cases hend

/-! ## Sequential runs -/

/-- The number of announcements a sequence of outputs serves. -/
def servedTotal : List (Output ChannelAnnouncement ChannelUpdate) → Nat
  | [] => 0
  | o :: os => o.served + servedTotal os

theorem servedTotal_take_le (outputs : List (Output ChannelAnnouncement ChannelUpdate)) (j : Nat) :
    servedTotal (outputs.take j) ≤ servedTotal outputs := by
  induction outputs generalizing j with
  | nil => simp
  | cons o os ih =>
    cases j with
    | zero => simp [servedTotal]
    | succ j =>
      simp only [List.take_succ_cons, servedTotal]
      exact Nat.add_le_add_left (ih j) _

theorem ofNat_add (a b : Nat) : UInt64.ofNat (a + b) = UInt64.ofNat a + UInt64.ofNat b :=
  UInt64.toNat.inj (by simp [UInt64.toNat_add, Nat.add_mod])

/-- One call adds to the counter the number it serves, and leaves the counter alone otherwise. -/
theorem chanAnnsSent_apply (c : Call) (s : TestRoutingMessageHandler) :
    (c.apply msgs s).2.chanAnnsSent =
      s.chanAnnsSent + UInt64.ofNat (c.apply msgs s).1.served := by
  cases c with
  | handleChannelAnnouncement | handleChannelUpdate =>
    simp [Call.apply, Output.served, handleChannelAnnouncement, handleChannelUpdate]
  | getNextChannelAnnouncements startingPoint batchAmount =>
    simp only [Call.apply, getNextChannelAnnouncements_eq]

theorem run_chanAnnsSent (s : TestRoutingMessageHandler) (calls : List Call) :
    (run msgs s calls).2.chanAnnsSent =
      s.chanAnnsSent + UInt64.ofNat (servedTotal (run msgs s calls).1) := by
  induction calls generalizing s with
  | nil => simp [run, servedTotal]
  | cons c cs ih =>
    simp only [run, servedTotal] at ih ⊢
    rw [ih, chanAnnsSent_apply, ofNat_add, add_assoc]

/-- The `j`-th output of a run is what the counter, grown by everything served before it,
allows. -/
theorem run_getElem? (s : TestRoutingMessageHandler) (calls : List Call) {j : Nat}
    {startingPoint : UInt64} {batchAmount : UInt8}
    (h : calls[j]? = some (.getNextChannelAnnouncements startingPoint batchAmount)) :
    (run msgs s calls).1[j]? = some (.announcements (servedFrom msgs
      (s.chanAnnsSent + UInt64.ofNat (servedTotal ((run msgs s calls).1.take j)))
      startingPoint batchAmount)) := by
  induction calls generalizing s j with
  | nil => cases h
  | cons c cs ih =>
    cases j with
    | zero =>
      simp only [List.getElem?_cons_zero, Option.some.injEq] at h
      subst h
      simp [run, Call.apply, getNextChannelAnnouncements_eq, servedTotal]
    | succ j =>
      simp only [run, List.getElem?_cons_succ, List.take_succ_cons, servedTotal] at h ⊢
      rw [ih _ h, chanAnnsSent_apply, add_assoc, ← ofNat_add]

/-- From a counter within `TOTAL_UPDS`, a run never takes it past `TOTAL_UPDS`. -/
theorem run_served_le (s : TestRoutingMessageHandler) (calls : List Call)
    (hsent : s.chanAnnsSent.toNat ≤ 100) :
    s.chanAnnsSent.toNat + servedTotal (run msgs s calls).1 ≤ 100 := by
  induction calls generalizing s with
  | nil => simpa [run, servedTotal] using hsent
  | cons c cs ih =>
    have hserved : (c.apply msgs s).1.served ≤ 100 - s.chanAnnsSent.toNat := by
      cases c with
      | handleChannelAnnouncement | handleChannelUpdate => simp [Call.apply, Output.served]
      | getNextChannelAnnouncements startingPoint batchAmount =>
        simpa only [Call.apply, getNextChannelAnnouncements_eq] using
          (servedFrom_spec msgs _ startingPoint batchAmount hsent).2
    have hnext : (c.apply msgs s).2.chanAnnsSent.toNat =
        s.chanAnnsSent.toNat + (c.apply msgs s).1.served := by
      rw [chanAnnsSent_apply, UInt64.toNat_add, UInt64.toNat_ofNat,
        Nat.mod_eq_of_lt (by omega), Nat.mod_eq_of_lt (by omega)]
    have := ih (c.apply msgs s).2 (by omega)
    simp only [run, servedTotal] at this ⊢
    omega

theorem run_recvd (s : TestRoutingMessageHandler) (calls : List Call) :
    (run msgs s calls).2.chanAnnsRecvd =
        s.chanAnnsRecvd + UInt64.ofNat (calls.count .handleChannelAnnouncement) ∧
      (run msgs s calls).2.chanUpdsRecvd =
        s.chanUpdsRecvd + UInt64.ofNat (calls.count .handleChannelUpdate) := by
  induction calls generalizing s with
  | nil => simp [run]
  | cons c cs ih =>
    obtain ⟨ha, hu⟩ := ih (c.apply msgs s).2
    simp only [run, ha, hu]
    cases c <;> simp [Call.apply, handleChannelAnnouncement, handleChannelUpdate,
      getNextChannelAnnouncements_eq, List.count_cons, ofNat_add, add_assoc] <;> exact add_comm _ _

/-- Every sequence of calls on a handler made by `new`: the counter is the number of
announcements served, at most `TOTAL_UPDS`; the received counters count their handlers' calls;
the `j`-th call, if it asks for announcements, is served what `TOTAL_UPDS` less everything
served before it allows, and panics exactly when its `starting_point + batch_amount`
overflows, never at `TOTAL_UPDS - chan_anns_sent`. -/
theorem announcements_run_law (calls : List Call) :
    (run msgs new calls).2.chanAnnsSent.toNat = servedTotal (run msgs new calls).1 ∧
    servedTotal (run msgs new calls).1 ≤ 100 ∧
    (run msgs new calls).2.chanAnnsRecvd = UInt64.ofNat (calls.count .handleChannelAnnouncement) ∧
    (run msgs new calls).2.chanUpdsRecvd = UInt64.ofNat (calls.count .handleChannelUpdate) ∧
    ∀ (j : Nat) (startingPoint : UInt64) (batchAmount : UInt8),
      calls[j]? = some (.getNextChannelAnnouncements startingPoint batchAmount) →
      (run msgs new calls).1[j]? = some (.announcements (servedFrom msgs
        (UInt64.ofNat (servedTotal ((run msgs new calls).1.take j))) startingPoint batchAmount)) ∧
      ((run msgs new calls).1[j]? = some (.announcements none) ↔
        2 ^ 64 ≤ startingPoint.toNat + batchAmount.toNat) := by
  have hle := run_served_le msgs new calls (by decide)
  have hnew : new.chanAnnsSent = 0 := rfl
  obtain ⟨ha, hu⟩ := run_recvd msgs new calls
  refine ⟨?_, by simpa [hnew] using hle, by simpa [new] using ha, by simpa [new] using hu,
    fun j startingPoint batchAmount h => ?_⟩
  · rw [run_chanAnnsSent, hnew, zero_add, UInt64.toNat_ofNat,
      Nat.mod_eq_of_lt (by simp only [hnew] at hle; omega)]
  · have hj := run_getElem? msgs new calls h
    rw [hnew, zero_add] at hj
    refine ⟨hj, ?_⟩
    have htake := servedTotal_take_le (run msgs new calls).1 j
    rw [hj, Option.some.injEq, Output.announcements.injEq]
    refine (servedFrom_spec msgs _ startingPoint batchAmount ?_).1
    rw [UInt64.toNat_ofNat, Nat.mod_eq_of_lt (by simp only [hnew] at hle; omega)]
    simp only [hnew] at hle
    omega

/-! ## Calls from several threads -/

/-- Where a call of `get_next_channel_announcements` is: before its `load`, between the `load`
and the `fetch_add` with the ids it will serve, after the `fetch_add` with the ids it served, or
panicked. -/
inductive CallPhase where
  | ready
  | loaded (ids : List UInt64)
  | served (ids : List UInt64)
  | panicked
deriving DecidableEq

/-- The number a call has added to the counter. -/
def CallPhase.added : CallPhase → Nat
  | .served ids => ids.length
  | _ => 0

/-- What a finished call returned: the ids it served, `none` if it panicked. -/
def CallPhase.result : CallPhase → Option (List UInt64)
  | .served ids => some ids
  | _ => none

/-- The ids a call will serve or has served. -/
def CallPhase.ids : CallPhase → List UInt64
  | .loaded ids | .served ids => ids
  | _ => []

/-- `n` threads calling `get_next_channel_announcements` on one handler, thread `i` with the
arguments `input i`: the counter, and where each call is. -/
structure Callers (n : Nat) where
  chanAnnsSent : UInt64
  phase : Fin n → CallPhase

namespace Callers

variable {n : Nat} (input : Fin n → UInt64 × UInt8)

/-- Every call before its `load`. -/
def init (chanAnnsSent : UInt64) : Callers n := ⟨chanAnnsSent, fun _ => .ready⟩

/-- Thread `i` takes its next atomic step: the `load` with the range computed from it, which
panics on overflow or underflow, or the `fetch_add`. -/
def step (s : Callers n) (i : Fin n) : Callers n :=
  match s.phase i with
  | .ready =>
      match rangeEnd (input i).1 (input i).2 s.chanAnnsSent with
      | none => { s with phase := Function.update s.phase i .panicked }
      | some stop =>
          { s with phase := Function.update s.phase i (.loaded (rangeU64 (input i).1 stop)) }
  | .loaded ids => ⟨s.chanAnnsSent + UInt64.ofNat ids.length, Function.update s.phase i (.served ids)⟩
  | .served _ | .panicked => s

/-- The threads run in the order `sched`. -/
def run (s : Callers n) (sched : List (Fin n)) : Callers n := sched.foldl (step input) s

/-- A call whose `load` and `fetch_add` run back to back is `get_next_channel_announcements`
on a handler with the same counter: it leaves the same counter and returns the same
announcements. -/
theorem step_step (s : Callers n) {i : Fin n} (h : s.phase i = .ready)
    (handler : TestRoutingMessageHandler) (hsent : handler.chanAnnsSent = s.chanAnnsSent) :
    (step input (step input s i) i).chanAnnsSent =
        (handler.getNextChannelAnnouncements msgs (input i).1 (input i).2).2.chanAnnsSent ∧
      (handler.getNextChannelAnnouncements msgs (input i).1 (input i).2).1 =
        ((step input (step input s i) i).phase i).result.map (chanAnnsOf msgs) := by
  rw [getNextChannelAnnouncements_eq, servedFrom, hsent]
  rcases hr : rangeEnd (input i).1 (input i).2 s.chanAnnsSent with _ | stop <;>
    simp [step, h, hr, CallPhase.result, Output.served, chanAnnsOf]

/-- What every schedule keeps: the counter is its start `c` plus what the calls added, and
every call serves ids from its own range, below `TOTAL_UPDS`. -/
structure Counted (c : UInt64) (s : Callers n) : Prop where
  counted : s.chanAnnsSent = c + UInt64.ofNat (∑ i, (s.phase i).added)
  inRange : ∀ i, ∀ id ∈ (s.phase i).ids, (input i).1.toNat ≤ id.toNat ∧
    id.toNat < (input i).1.toNat + (input i).2.toNat ∧ id.toNat < 100

/-- Replacing a phase that has added nothing adds what the new phase added. -/
theorem sum_added_update {phase : Fin n → CallPhase} {i : Fin n} (h : (phase i).added = 0)
    (p : CallPhase) :
    ∑ j, (Function.update phase i p j).added = ∑ j, (phase j).added + p.added := by
  have hupd : (fun j => (Function.update phase i p j).added) =
      Function.update (fun j => (phase j).added) i p.added :=
    funext fun j => Function.apply_update (fun _ => CallPhase.added) phase i p j
  rw [hupd, Finset.sum_update_of_mem (Finset.mem_univ i),
    Finset.sum_eq_add_sum_diff_singleton (Finset.mem_univ i) (fun j => (phase j).added), h]
  omega

theorem counted_init (c : UInt64) : Counted input c (init c : Callers n) :=
  ⟨by simp [init, CallPhase.added], fun _ _ h => by simp [init, CallPhase.ids] at h⟩

/-- The ids of a range computed from any loaded counter lie in the call's range, below
`TOTAL_UPDS`. -/
theorem ids_rangeU64 {i : Fin n} {sent stop : UInt64}
    (h : rangeEnd (input i).1 (input i).2 sent = some stop) :
    ∀ id ∈ rangeU64 (input i).1 stop, (input i).1.toNat ≤ id.toNat ∧
      id.toNat < (input i).1.toNat + (input i).2.toNat ∧ id.toNat < 100 := by
  intro id hid
  have hid := mem_rangeU64 hid
  have hstop := rangeEnd_le h
  omega

/-- One step of any thread keeps `Counted`. -/
theorem Counted.step {c : UInt64} {s : Callers n} (hs : Counted input c s) (i : Fin n) :
    Counted input c (Callers.step input s i) := by
  have hkeep : ∀ p : CallPhase, (∀ id ∈ p.ids, (input i).1.toNat ≤ id.toNat ∧
      id.toNat < (input i).1.toNat + (input i).2.toNat ∧ id.toNat < 100) →
      ∀ j, ∀ id ∈ (Function.update s.phase i p j).ids, (input j).1.toNat ≤ id.toNat ∧
        id.toNat < (input j).1.toNat + (input j).2.toNat ∧ id.toNat < 100 := by
    intro p hp j id hid
    by_cases h : j = i
    · subst h
      exact hp id (by simpa using hid)
    · exact hs.inRange j id (by simpa [Function.update_noteq h] using hid)
  rcases hi : s.phase i with _ | ids | ids | _ <;> simp only [Callers.step, hi]
  · have hsum := sum_added_update (show (s.phase i).added = 0 by rw [hi]; rfl)
    rcases hr : rangeEnd (input i).1 (input i).2 s.chanAnnsSent with _ | stop
    · exact ⟨by rw [hsum, hs.counted]; rfl, hkeep _ (by simp [CallPhase.ids])⟩
    · exact ⟨by rw [hsum, hs.counted]; rfl, hkeep _ (ids_rangeU64 input hr)⟩
  · have hsum := sum_added_update (show (s.phase i).added = 0 by rw [hi]; rfl) (.served ids)
    refine ⟨?_, hkeep _ fun id hid => hs.inRange i id (by rw [hi]; exact hid)⟩
    rw [hsum, hs.counted, ofNat_add, add_assoc]
    rfl
  · exact hs
  · exact hs

theorem Counted.run {c : UInt64} {s : Callers n} (hs : Counted input c s) (sched : List (Fin n)) :
    Counted input c (run input s sched) := by
  induction sched generalizing s with
  | nil => exact hs
  | cons i sched ih => exact ih (hs.step input i)

/-- Calls of `get_next_channel_announcements` from `n` threads, interleaved at their `load` and
`fetch_add` in any order, on a handler whose counter starts at `c`: no announcement served goes
uncounted, since the counter is `c` plus what the calls past their `fetch_add` served, and every
call serves ids from `starting_point` up to `starting_point + batch_amount`, all below
`TOTAL_UPDS`. A call whose `load` and `fetch_add` run back to back, from any state, is
`get_next_channel_announcements` on a handler with the same counter (`step_step`). Interleaved,
the calls serve more than `TOTAL_UPDS`: two calls for 60 ids that both load before either adds
serve 120, and a third call then panics at `TOTAL_UPDS - chan_anns_sent`, where the same three
calls back to back serve 100 and the third serves none. -/
theorem announcements_interleaved_counted (c : UInt64) (sched : List (Fin n)) :
    ((run input (init c) sched).chanAnnsSent =
        c + UInt64.ofNat (∑ i, ((run input (init c) sched).phase i).added) ∧
      ∀ i, ∀ id ∈ ((run input (init c) sched).phase i).ids, (input i).1.toNat ≤ id.toNat ∧
        id.toNat < (input i).1.toNat + (input i).2.toNat ∧ id.toNat < 100) ∧
    (∀ (s : Callers n) (i : Fin n), s.phase i = .ready →
      ∀ handler : TestRoutingMessageHandler, handler.chanAnnsSent = s.chanAnnsSent →
      (step input (step input s i) i).chanAnnsSent =
          (handler.getNextChannelAnnouncements msgs (input i).1 (input i).2).2.chanAnnsSent ∧
        (handler.getNextChannelAnnouncements msgs (input i).1 (input i).2).1 =
          ((step input (step input s i) i).phase i).result.map (chanAnnsOf msgs)) ∧
    ((run (fun i : Fin 3 => if i.val < 2 then ((0 : UInt64), (60 : UInt8)) else (0, 1)) (init 0)
        [0, 1, 0, 1, 2]).chanAnnsSent = 120 ∧
      (run (fun i : Fin 3 => if i.val < 2 then ((0 : UInt64), (60 : UInt8)) else (0, 1)) (init 0)
        [0, 1, 0, 1, 2]).phase 2 = .panicked) ∧
    ((run (fun i : Fin 3 => if i.val < 2 then ((0 : UInt64), (60 : UInt8)) else (0, 1)) (init 0)
        [0, 0, 1, 1, 2, 2]).chanAnnsSent = 100 ∧
      (run (fun i : Fin 3 => if i.val < 2 then ((0 : UInt64), (60 : UInt8)) else (0, 1)) (init 0)
        [0, 0, 1, 1, 2, 2]).phase 2 = .served []) :=
  have hs := (counted_init input c).run input sched
  ⟨⟨hs.counted, hs.inRange⟩, fun s _ h handler hsent => step_step msgs input s h handler hsent,
    by decide, by decide⟩

end Callers

end TestRoutingMessageHandler

/-! ## The test logger -/

/-- What `TestLogger` counts a `Record` by: `module_path` and `format!("{}", record.args)`.
Its level, file and line are only printed. -/
structure LogRecord where
  modulePath : String
  args : String

/-- `TestLogger`'s `lines`: how many times each module and text were logged. Its `level` and
`id` only shape the printed line. -/
structure TestLogger where
  lines : String × String → Option Nat

namespace TestLogger

/-- `TestLogger::new` and `TestLogger::with_id`: nothing logged. -/
def new : TestLogger := ⟨fun _ => none⟩

/-- `Logger::log`: `*lines.entry((module_path, args)).or_insert(0) += 1`, then the print. -/
def log (self : TestLogger) (record : LogRecord) : TestLogger :=
  ⟨Function.update self.lines (record.modulePath, record.args)
    (some ((self.lines (record.modulePath, record.args)).getD 0 + 1))⟩

/-- `assert_log`: whether `assert_eq!(log_entries.get(&(module, line)), Some(&count))`
passes. -/
def assertLog (self : TestLogger) (module line : String) (count : Nat) : Bool :=
  self.lines (module, line) == some count

/-- The records logged in order. Each `log` holds the `lines` lock throughout, so records
logged from several threads are counted as in some such order. -/
def logAll (self : TestLogger) (records : List LogRecord) : TestLogger := records.foldl log self

/-- The entry for one module and text after a run: untouched when no record had them, and
otherwise what it held plus their number. -/
theorem lines_logAll (self : TestLogger) (records : List LogRecord) (key : String × String) :
    (self.logAll records).lines key =
      if records.countP (fun r => (r.modulePath, r.args) = key) = 0 then self.lines key
      else
        some ((self.lines key).getD 0 + records.countP (fun r => (r.modulePath, r.args) = key)) := by
  induction records generalizing self with
  | nil => simp [logAll]
  | cons r rs ih =>
    simp only [logAll, List.foldl_cons] at ih ⊢
    rw [ih, List.countP_cons]
    by_cases hk : (r.modulePath, r.args) = key
    · subst hk
      simp [log, Nat.add_assoc, Nat.add_comm 1]
    · simp [log, hk, Function.update_noteq (Ne.symm hk)]

/-- `assert_log(module, line, count)` after logging `records` from `new` passes exactly when
`count` of them have that module and text and `count` is not zero. -/
theorem assert_log_counts (records : List LogRecord) (module line : String) (count : Nat) :
    (new.logAll records).assertLog module line count = true ↔
      count ≠ 0 ∧ count = records.countP (fun r => r.modulePath = module ∧ r.args = line) := by
  have hkey : (fun r : LogRecord => decide ((r.modulePath, r.args) = (module, line))) =
      fun r => decide (r.modulePath = module ∧ r.args = line) := by
    funext r; simp
  simp only [assertLog, lines_logAll, hkey, new]
  split
  next h => rw [h]; simp
  next h =>
    simp only [Option.getD_none, Nat.zero_add, beq_iff_eq, Option.some.injEq]
    omega

end TestLogger

end Lightning.Util
