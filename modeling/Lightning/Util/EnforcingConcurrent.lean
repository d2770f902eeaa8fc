import Lightning.Util.Sync

/-!
# The signer-enforcement wrapper under concurrent calls

`sign_remote_commitment` takes `&self`, so several threads may call it on one wrapper at
once. Its guard on `commitment_number_obscure_and_last` lives only for the block that fixes the
mask, checks the number and raises the mark; the inner signer is called after the guard is
dropped. `signRemoteCommitmentCall` is the call cut at those points, and
`signRemoteCommitment_eq_call` says that cut is the sequential model of
`util/enforcing_trait_impls.rs`.

`sign_remote_commitment_linearizable` is the concurrent law: after any schedule the wrapper
and every thread are those of the calls made one after another, in the order the threads
passed `lock()`. The policy of `RunLaw` therefore holds of the lock order.
`concurrent_numbers_monotone` gives its monotonicity for a fresh wrapper, along an order that
is a lock order in that sense (`IsLockOrder`). The order in which
the inner signer is reached is not the lock order, though: number `1` can be signed while
number `0`, which passed the lock first, is still waiting for the signer (the example after
`concurrent_numbers_monotone_sample`).
-/

namespace Lightning.Util

/-- A call's result as an `Outcome`: `none` is a panic before the inner signer. -/
def Outcome.ofOption {Sig : Type} : Option (Except Unit Sig) → Outcome Sig
  | none => .aborted
  | some r => .delegated r

namespace EnforcingChannelKeys

variable {Args Sig : Type}

/-- The block `sign_remote_commitment` runs holding the guard on
`commitment_number_obscure_and_last`. It fixes the mask on the first call, de-obscures the
number and asserts it is the last one signed or the next; an overflowing `+ 1` panics there
too. Then it raises the high-water mark. -/
def commitmentDataUpdate (obscured : UInt64) (commitmentData : Option UInt64 × UInt64) :
    Option Unit × (Option UInt64 × UInt64) :=
  let obscure :=
    if commitmentData.1.isNone then some (obscured ^^^ commitmentData.2) else commitmentData.1
  let commitmentNumber := obscured ^^^ obscure.getD 0
  if commitmentNumber = commitmentData.2 ∨ checkedAdd commitmentData.2 1 = some commitmentNumber
  then (some (), (obscure, max commitmentNumber commitmentData.2))
  else (none, (obscure, commitmentData.2))

/-- `sign_remote_commitment` cut at its lock: the input count is checked before `lock()`, the
block above runs holding the guard, and the inner signer is called after the guard is dropped.
Its `Err` is left for `unwrap` to turn into a panic. -/
def signRemoteCommitmentCall (inner : Args → Transaction → Except Unit Sig) :
    LockedCall (Args × Transaction) (Option UInt64 × UInt64) Unit (Except Unit Sig) where
  pre call := decide (call.2.input.length = 1)
  body call commitmentData := commitmentDataUpdate (obscuredNumberOf call.2) commitmentData
  tail call _ := inner call.1 call.2

/-- The threads after `sched`, thread `i` calling `sign_remote_commitment` with `calls i` on
`self`. -/
def signConcurrently {n : Nat} (self : EnforcingChannelKeys Args Sig)
    (calls : Fin n → Args × Transaction) (sched : List (Fin n)) :
    Threads (Option UInt64 × UInt64) Unit (Except Unit Sig) n :=
  (signRemoteCommitmentCall self.inner).run calls (Threads.init self.commitmentNumberObscureAndLast)
    sched

/-- The wrapper `self` with its mutex replaced by `m`. -/
def withMutex (self : EnforcingChannelKeys Args Sig) (m : Mutex (Option UInt64 × UInt64)) :
    EnforcingChannelKeys Args Sig :=
  { self with commitmentNumberObscureAndLast := m }

@[simp] theorem inner_withMutex (self : EnforcingChannelKeys Args Sig) (m) :
    (self.withMutex m).inner = self.inner := rfl

@[simp] theorem commitmentNumberObscureAndLast_withMutex (self : EnforcingChannelKeys Args Sig)
    (m) : (self.withMutex m).commitmentNumberObscureAndLast = m := rfl

/-! ## The cut is the sequential call -/

/-- The block, in terms of the mask and number one call uses. -/
theorem commitmentDataUpdate_eq (self : EnforcingChannelKeys Args Sig) (obscured : UInt64) :
    commitmentDataUpdate obscured self.commitmentNumberObscureAndLast.data =
      if self.numberFor obscured = self.highWater ∨
          checkedAdd self.highWater 1 = some (self.numberFor obscured)
      then (some (), (some (self.maskFor obscured),
        max (self.numberFor obscured) self.highWater))
      else (none, (some (self.maskFor obscured), self.highWater)) := by
  have hobscure : (if self.commitmentNumberObscureAndLast.data.1.isNone then
      some (obscured ^^^ self.commitmentNumberObscureAndLast.data.2)
      else self.commitmentNumberObscureAndLast.data.1) = some (self.maskFor obscured) := by
    simp only [maskFor, mask, highWater]
    cases self.commitmentNumberObscureAndLast.data.1 <;> rfl
  simp only [commitmentDataUpdate, hobscure, Option.getD_some]
  rfl

/-- The cut call, made alone, is `sign_remote_commitment`. -/
theorem signRemoteCommitment_eq_call (self : EnforcingChannelKeys Args Sig) (args : Args)
    (commitmentTx : Transaction) :
    self.signRemoteCommitment args commitmentTx =
      (Outcome.ofOption ((signRemoteCommitmentCall self.inner).call
          self.commitmentNumberObscureAndLast (args, commitmentTx)).1,
        self.withMutex ((signRemoteCommitmentCall self.inner).call
          self.commitmentNumberObscureAndLast (args, commitmentTx)).2) := by
  rcases signRemoteCommitment_cases self args commitmentTx with
    ⟨hin | hp, h⟩ | ⟨hin, hp, hacc, h⟩ | ⟨hin, hp, hacc, h⟩ <;> rw [h]
  · simp [LockedCall.call, LockedCall.guarded, signRemoteCommitmentCall, hin, Outcome.ofOption,
      withMutex]
  · simp only [poisoned] at hp
    by_cases hin : commitmentTx.input.length = 1 <;>
      simp [LockedCall.call, LockedCall.guarded, signRemoteCommitmentCall, hin, hp,
        Outcome.ofOption, withMutex]
  all_goals
    rw [LockedCall.call, LockedCall.guarded_of_live (signRemoteCommitmentCall self.inner)
      (by simpa [signRemoteCommitmentCall] using hin) hp]
    simp only [signRemoteCommitmentCall, commitmentDataUpdate_eq, hacc, ↓reduceIte]
    rfl

/-- Calls made one after another leave the wrapper with the mutex `lockAll` gives. -/
theorem signAll_eq_lockAll (self : EnforcingChannelKeys Args Sig)
    (calls : List (Args × Transaction)) :
    self.signAll calls = self.withMutex
      ((signRemoteCommitmentCall self.inner).lockAll self.commitmentNumberObscureAndLast calls) := by
  induction calls generalizing self with
  | nil => rfl
  | cons c calls ih =>
    show (self.signRemoteCommitment c.1 c.2).2.signAll calls = _
    rw [ih, signRemoteCommitment_eq_call]
    rfl

/-! ## Any schedule -/

/-- What the invariant of a schedule says of the wrapper. Its mutex is the one the calls of
`order` leave. A thread of `order` has returned what its call returns at its place, or,
accepted there, has still to call the inner signer. Any other thread has not reached the inner
signer. -/
theorem linearizes_signRemoteCommitmentCall {n : Nat} {self : EnforcingChannelKeys Args Sig}
    {calls : Fin n → Args × Transaction} {s : Threads (Option UInt64 × UInt64) Unit (Except Unit Sig) n}
    {order : List (Fin n)}
    (hs : (signRemoteCommitmentCall self.inner).Linearizes calls self.commitmentNumberObscureAndLast
      s order) :
    self.withMutex s.mutex = self.signAll (order.map calls) ∧
      (∀ j i, order[j]? = some i →
        (s.phase i = .unlocked () ∧
            ((self.signAll ((order.take j).map calls)).signRemoteCommitment
              (calls i).1 (calls i).2).1.reachedSigner = true) ∨
          ∃ r, s.phase i = .finished r ∧
            Outcome.ofOption r = ((self.signAll ((order.take j).map calls)).signRemoteCommitment
              (calls i).1 (calls i).2).1) ∧
      ∀ i, i ∉ order → s.phase i = .ready ∨ s.phase i = .finished none := by
  refine ⟨by rw [signAll_eq_lockAll, ← hs.mutex_eq], fun j i hj => ?_, fun i hi => ?_⟩
  · have hpass := (hs.placed i).1 j hj
    rw [signAll_eq_lockAll, signRemoteCommitment_eq_call]
    revert hpass
    simp only [inner_withMutex, commitmentNumberObscureAndLast_withMutex, LockedCall.call]
    rcases (LockedCall.guarded _ _ (calls i)).1 with _ | ⟨⟩
    · intro h
      exact .inr ⟨none, h, rfl⟩
    · rintro (h | h)
      · exact .inl ⟨h, rfl⟩
      · exact .inr ⟨_, h, rfl⟩
  · rcases (hs.placed i).2 hi with h | ⟨h, -⟩
    · exact .inl h
    · exact .inr h

/-- Concurrent `sign_remote_commitment` calls on one wrapper are linearizable. After any
schedule there is an order of the threads past `lock()` such that the wrapper is the one those
calls leave made one after another. Each of them has returned what its call returns at its
place in that order, or, accepted there, has still to call the inner signer. No other thread
has reached the inner signer. -/
theorem sign_remote_commitment_linearizable {n : Nat} (self : EnforcingChannelKeys Args Sig)
    (calls : Fin n → Args × Transaction) (sched : List (Fin n)) :
    ∃ order : List (Fin n), order.Nodup ∧
      self.withMutex (self.signConcurrently calls sched).mutex = self.signAll (order.map calls) ∧
      (∀ j i, order[j]? = some i →
        ((self.signConcurrently calls sched).phase i = .unlocked () ∧
            ((self.signAll ((order.take j).map calls)).signRemoteCommitment
              (calls i).1 (calls i).2).1.reachedSigner = true) ∨
          ∃ r, (self.signConcurrently calls sched).phase i = .finished r ∧
            Outcome.ofOption r = ((self.signAll ((order.take j).map calls)).signRemoteCommitment
              (calls i).1 (calls i).2).1) ∧
      ∀ i, i ∉ order → (self.signConcurrently calls sched).phase i = .ready ∨
        (self.signConcurrently calls sched).phase i = .finished none :=
  have ⟨order, hs⟩ := LockedCall.linearizes_run (signRemoteCommitmentCall self.inner) calls
    self.commitmentNumberObscureAndLast sched
  ⟨order, hs.nodup, linearizes_signRemoteCommitmentCall hs⟩

/-- `order` is an order in which the threads of `s` passed `lock()`, as
`sign_remote_commitment_linearizable` gives one: no thread twice, the wrapper's mutex is the one
the calls of `order` leave made one after another, each thread of `order` has returned what its
call returns at its place or, accepted there, has still to call the inner signer, and no other
thread has reached the inner signer. -/
def IsLockOrder {n : Nat} (self : EnforcingChannelKeys Args Sig)
    (calls : Fin n → Args × Transaction)
    (s : Threads (Option UInt64 × UInt64) Unit (Except Unit Sig) n) (order : List (Fin n)) :
    Prop :=
  order.Nodup ∧ self.withMutex s.mutex = self.signAll (order.map calls) ∧
    (∀ j i, order[j]? = some i →
      (s.phase i = .unlocked () ∧
          ((self.signAll ((order.take j).map calls)).signRemoteCommitment
            (calls i).1 (calls i).2).1.reachedSigner = true) ∨
        ∃ r, s.phase i = .finished r ∧
          Outcome.ofOption r = ((self.signAll ((order.take j).map calls)).signRemoteCommitment
            (calls i).1 (calls i).2).1) ∧
    ∀ i, i ∉ order → s.phase i = .ready ∨ s.phase i = .finished none

/-- A thread that passed `lock()` and was let through to the inner signer: it is past the
block, or has returned from the signer. -/
def LetThrough {n : Nat} (s : Threads (Option UInt64 × UInt64) Unit (Except Unit Sig) n)
    (i : Fin n) : Prop :=
  s.phase i = .unlocked () ∨ ∃ r, s.phase i = .finished (some r)

/-- On a fresh wrapper, whatever the schedule, there is an order in which the threads passed
the lock, in the sense of `sign_remote_commitment_linearizable`, such that the calls let
through to the inner signer carry commitment numbers that never go down in that order. A
number is taken relative to the transaction of the first thread to pass the lock, as `RunLaw`
says, for single-input transactions. -/
theorem concurrent_numbers_monotone {n : Nat} (inner : Args → Transaction → Except Unit Sig)
    (calls : Fin n → Args × Transaction) (hone : ∀ i, (calls i).2.input.length = 1)
    (sched : List (Fin n)) :
    ∃ order : List (Fin n), IsLockOrder (new inner) calls
        ((new inner).signConcurrently calls sched) order ∧
      (∀ i, LetThrough ((new inner).signConcurrently calls sched) i → i ∈ order) ∧
      ∀ (a b : Nat) (ia ib : Fin n), order[a]? = some ia → order[b]? = some ib → a < b →
        LetThrough ((new inner).signConcurrently calls sched) ia →
        LetThrough ((new inner).signConcurrently calls sched) ib →
        ∀ i₀, order[0]? = some i₀ →
          (commitmentNumber (calls i₀).2 (calls ia).2).toNat ≤
            (commitmentNumber (calls i₀).2 (calls ib).2).toNat := by
  obtain ⟨order, hs⟩ : ∃ order, (signRemoteCommitmentCall (new inner).inner).Linearizes calls
      (new inner).commitmentNumberObscureAndLast ((new inner).signConcurrently calls sched) order :=
    LockedCall.linearizes_run _ calls _ sched
  have hlock := linearizes_signRemoteCommitmentCall hs
  have ⟨_, hpos, hout⟩ := hlock
  have hone' : ∀ c ∈ order.map calls, c.2.input.length = 1 := fun _ hc => by
    obtain ⟨i, -, rfl⟩ := List.mem_map.1 hc
    exact hone i
  -- a thread let through reached the signer at its place in the order
  have hreached : ∀ j i, order[j]? = some i →
      LetThrough ((new inner).signConcurrently calls sched) i →
      (outcomeAt inner (order.map calls) j (calls i)).reachedSigner = true := by
    intro j i hj hlet
    rcases hpos j i hj with ⟨-, h⟩ | ⟨r, hr, h⟩
    · rw [outcomeAt, stateBefore, ← List.map_take]
      exact h
    · rw [outcomeAt, stateBefore, ← List.map_take, ← h]
      rcases hlet with h' | ⟨r', h'⟩ <;> rw [hr] at h' <;> cases h'
      rfl
  refine ⟨order, ⟨hs.nodup, hlock⟩, fun i hlet => ?_,
    fun a b ia ib ha hb hab hla hlb i₀ h₀ => ?_⟩
  · by_contra hi
    rcases hout i hi with h | h <;> rcases hlet with h' | ⟨r, h'⟩ <;> rw [h] at h' <;> cases h'
  · exact commitmentNumber_mono_of_reachedSigner hone' (by simp [h₀])
      (by simp [ha]) (by simp [hb]) hab (hreached a ia ha hla) (hreached b ib hb hlb)

/-- Two calls at commitment numbers `0` and `1` under the obscured number `0x123456abcdef`. -/
def sampleCalls : Fin 2 → Unit × Transaction := fun i => sampleCall i.val.toUInt32 []

theorem concurrent_numbers_monotone_sample :
    (∀ i, (sampleCalls i).2.input.length = 1) ∧
      ∃ order : List (Fin 2), IsLockOrder (new fun _ _ => (.ok () : Except Unit Unit)) sampleCalls
          ((new fun _ _ => (.ok () : Except Unit Unit)).signConcurrently sampleCalls
            [0, 0, 1, 1, 1]) order ∧
        (∀ i, LetThrough ((new fun _ _ => (.ok () : Except Unit Unit)).signConcurrently
          sampleCalls [0, 0, 1, 1, 1]) i → i ∈ order) ∧
        ∀ (a b : Nat) (ia ib : Fin 2), order[a]? = some ia → order[b]? = some ib → a < b →
          LetThrough ((new fun _ _ => (.ok () : Except Unit Unit)).signConcurrently
            sampleCalls [0, 0, 1, 1, 1]) ia →
          LetThrough ((new fun _ _ => (.ok () : Except Unit Unit)).signConcurrently
            sampleCalls [0, 0, 1, 1, 1]) ib →
          ∀ i₀, order[0]? = some i₀ →
            (commitmentNumber (sampleCalls i₀).2 (sampleCalls ia).2).toNat ≤
              (commitmentNumber (sampleCalls i₀).2 (sampleCalls ib).2).toNat :=
  ⟨by decide, concurrent_numbers_monotone _ _ (by decide) _⟩

/- The inner signer is not reached in lock order. Thread `0`, at number `0`, passes the lock
first; thread `1`, at number `1`, then passes it and returns from the inner signer while
thread `0` has still to call it. -/
example :
    ((new fun _ _ => (.ok () : Except Unit Unit)).signConcurrently sampleCalls
        [0, 0, 1, 1, 1]).phase 0 = .unlocked () ∧
      ((new fun _ _ => (.ok () : Except Unit Unit)).signConcurrently sampleCalls
        [0, 0, 1, 1, 1]).phase 1 = .finished (some (.ok ())) ∧
      commitmentNumber (sampleCalls 0).2 (sampleCalls 0).2 = 0 ∧
      commitmentNumber (sampleCalls 0).2 (sampleCalls 1).2 = 1 :=
  ⟨rfl, rfl, rfl, rfl⟩

end EnforcingChannelKeys

end Lightning.Util
