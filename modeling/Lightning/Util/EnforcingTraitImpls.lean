import Lightning.Util.Bytes

/-!
# The signer-enforcement wrapper

`util/enforcing_trait_impls.rs`. `EnforcingChannelKeys` wraps an inner signer and, before every
`sign_remote_commitment`, de-obscures the commitment number of the transaction and asserts it
equals the last number signed or the next one. The state is a mutex-guarded pair: the
obscuring mask once the first call has fixed it, and the highest number signed. A failed
assertion panics while the lock is held, which poisons the mutex, so every later call panics
at `lock().unwrap()`.

A run is a sequence of calls from `new`; `stateBefore calls j` is the wrapper before call `j`.
`signRemoteCommitment_eq` says what one call does, `Inv` is what every reachable state
satisfies, and `sign_remote_commitment_run_law` is the law of whole runs.
-/

namespace Lightning.Util

/-- `bitcoin::OutPoint`. -/
structure OutPoint where
  txid : Mathlib.Vector UInt8 32
  vout : UInt32
deriving DecidableEq

/-- `bitcoin::TxIn`. -/
structure TxIn where
  previousOutput : OutPoint
  scriptSig : List UInt8
  sequence : UInt32
  witness : List (List UInt8)
deriving DecidableEq

/-- `bitcoin::TxOut`. -/
structure TxOut where
  value : UInt64
  scriptPubkey : List UInt8
deriving DecidableEq

/-- `bitcoin::Transaction`. -/
structure Transaction where
  version : UInt32
  lockTime : UInt32
  input : List TxIn
  output : List TxOut
deriving DecidableEq

/-- `std::sync::Mutex<T>`: the guarded data, and whether a thread panicked while holding the
lock, after which `lock().unwrap()` panics. -/
structure Mutex (α : Type) where
  data : α
  poisoned : Bool

/-- `u64` addition as a debug build runs it: `none` where Rust panics on overflow. -/
def checkedAdd (a b : UInt64) : Option UInt64 :=
  if a.toNat + b.toNat < 2 ^ 64 then some (a + b) else none

/-- How a call ended: it panicked before reaching the inner signer, or the inner signer was
called and returned `result`, whose `Err` the wrapper's `unwrap` turns into a panic. -/
inductive Outcome (Sig : Type) where
  | aborted
  | delegated (result : Except Unit Sig)

/-- Whether the call reached the inner signer. -/
def Outcome.reachedSigner {Sig : Type} : Outcome Sig → Bool
  | .aborted => false
  | .delegated _ => true

/-- `EnforcingChannelKeys`, over the inner signer's `sign_remote_commitment`; `Args` are the
call's arguments other than the transaction, passed through unchanged. -/
structure EnforcingChannelKeys (Args Sig : Type) where
  inner : Args → Transaction → Except Unit Sig
  commitmentNumberObscureAndLast : Mutex (Option UInt64 × UInt64)

namespace EnforcingChannelKeys

variable {Args Sig : Type}

/-- `EnforcingChannelKeys::new`: no mask yet, nothing signed. -/
def new (inner : Args → Transaction → Except Unit Sig) : EnforcingChannelKeys Args Sig :=
  ⟨inner, ⟨(none, 0), false⟩⟩

/-- The obscuring mask, once fixed. -/
def mask (self : EnforcingChannelKeys Args Sig) : Option UInt64 :=
  self.commitmentNumberObscureAndLast.data.1

/-- The highest commitment number signed so far. -/
def highWater (self : EnforcingChannelKeys Args Sig) : UInt64 :=
  self.commitmentNumberObscureAndLast.data.2

/-- Whether the mutex is poisoned. -/
def poisoned (self : EnforcingChannelKeys Args Sig) : Bool :=
  self.commitmentNumberObscureAndLast.poisoned

end EnforcingChannelKeys

/-- The obscured commitment number a commitment transaction carries: the low 24 bits of
`lock_time`, then the low 24 bits of its input's `sequence`. -/
def obscuredCommitmentTransactionNumber (commitmentTx : Transaction) (txin : TxIn) : UInt64 :=
  (commitmentTx.lockTime &&& 0xffffff).toUInt64 |||
    ((txin.sequence.toUInt64 &&& 0xffffff) <<< (3 * 8))

namespace EnforcingChannelKeys

variable {Args Sig : Type}

/-- `sign_remote_commitment`: panic unless the transaction has exactly one input; under the
lock, fix the mask on the first call, de-obscure the commitment number and assert it is the
last one signed or the next; advance the high-water mark; then delegate. -/
def signRemoteCommitment (self : EnforcingChannelKeys Args Sig) (args : Args)
    (commitmentTx : Transaction) : Outcome Sig × EnforcingChannelKeys Args Sig :=
  match commitmentTx.input with
  | [txin] =>
      let obscured := obscuredCommitmentTransactionNumber commitmentTx txin
      let lock := self.commitmentNumberObscureAndLast
      if lock.poisoned then (.aborted, self)
      else
        let (obscure, last) := lock.data
        let obscure := if obscure.isNone then some (obscured ^^^ last) else obscure
        let commitmentNumber := obscured ^^^ obscure.getD 0
        if commitmentNumber = last ∨ checkedAdd last 1 = some commitmentNumber then
          (.delegated (self.inner args commitmentTx),
            { self with commitmentNumberObscureAndLast :=
                ⟨(obscure, max commitmentNumber last), false⟩ })
        else
          (.aborted, { self with commitmentNumberObscureAndLast := ⟨(obscure, last), true⟩ })
  | _ => (.aborted, self)

/-- The wrapper after a sequence of calls, each an argument bundle and a transaction. -/
def signAll (self : EnforcingChannelKeys Args Sig) (calls : List (Args × Transaction)) :
    EnforcingChannelKeys Args Sig :=
  calls.foldl (fun s call => (s.signRemoteCommitment call.1 call.2).2) self

/-- The wrapper before call `j` of a run from `new`. -/
def stateBefore (inner : Args → Transaction → Except Unit Sig)
    (calls : List (Args × Transaction)) (j : Nat) : EnforcingChannelKeys Args Sig :=
  (new inner).signAll (calls.take j)

/-- The outcome of call `j` of a run from `new`, which is `call`. -/
def outcomeAt (inner : Args → Transaction → Except Unit Sig)
    (calls : List (Args × Transaction)) (j : Nat) (call : Args × Transaction) : Outcome Sig :=
  ((stateBefore inner calls j).signRemoteCommitment call.1 call.2).1

end EnforcingChannelKeys

/-- The obscured commitment number of a single-input transaction. -/
def obscuredNumberOf (commitmentTx : Transaction) : UInt64 :=
  match commitmentTx.input with
  | [txin] => obscuredCommitmentTransactionNumber commitmentTx txin
  | _ => 0

/-! ## The obscured commitment number -/

theorem toNat_and_low24 (a : UInt32) : (a &&& 0xffffff).toNat = a.toNat % 2 ^ 24 := by
  rw [UInt32.and_toNat, ← Nat.and_pow_two_sub_one_eq_mod]
  rfl

/-- The obscured number is the 24-bit lock time below the 24-bit sequence. -/
theorem toNat_obscuredCommitmentTransactionNumber (commitmentTx : Transaction) (txin : TxIn) :
    (obscuredCommitmentTransactionNumber commitmentTx txin).toNat =
      commitmentTx.lockTime.toNat % 2 ^ 24 + 2 ^ 24 * (txin.sequence.toNat % 2 ^ 24) := by
  have hseq : (txin.sequence.toUInt64 &&& 0xffffff).toNat = txin.sequence.toNat % 2 ^ 24 := by
    rw [UInt64.and_toNat, UInt32.toNat_toUInt64, ← Nat.and_pow_two_sub_one_eq_mod]
    rfl
  have hhigh : ((txin.sequence.toUInt64 &&& 0xffffff) <<< (3 * 8 : UInt64)).toNat =
      2 ^ 24 * (txin.sequence.toNat % 2 ^ 24) := by
    show ((txin.sequence.toUInt64 &&& 0xffffff).toBitVec <<< (24 : Nat)).toNat = _
    rw [BitVec.toNat_shiftLeft, Nat.shiftLeft_eq]
    change (txin.sequence.toUInt64 &&& 0xffffff).toNat * 2 ^ 24 % 2 ^ 64 = _
    rw [hseq]
    have : txin.sequence.toNat % 2 ^ 24 < 2 ^ 24 := Nat.mod_lt _ (by decide)
    omega
  rw [obscuredCommitmentTransactionNumber, UInt64.toNat_lor, UInt32.toNat_toUInt64,
    toNat_and_low24, hhigh, Nat.or_comm, ← Nat.mul_add_lt_is_or (Nat.mod_lt _ (by decide))]
  omega

theorem obscuredCommitmentTransactionNumber_lt (commitmentTx : Transaction) (txin : TxIn) :
    (obscuredCommitmentTransactionNumber commitmentTx txin).toNat < 2 ^ 48 := by
  rw [toNat_obscuredCommitmentTransactionNumber]
  omega

theorem obscuredNumberOf_eq {commitmentTx : Transaction} {txin : TxIn}
    (h : commitmentTx.input = [txin]) :
    obscuredNumberOf commitmentTx = obscuredCommitmentTransactionNumber commitmentTx txin := by
  simp [obscuredNumberOf, h]

theorem obscuredNumberOf_lt (commitmentTx : Transaction) :
    (obscuredNumberOf commitmentTx).toNat < 2 ^ 48 := by
  unfold obscuredNumberOf
  split
  · exact obscuredCommitmentTransactionNumber_lt _ _
  · decide

/-- Two single-input transactions carry the same obscured number exactly when they agree on
the low 24 bits of `lock_time` and of the input's `sequence`. -/
theorem obscuredCommitmentTransactionNumber_eq_iff (tx tx' : Transaction) (txin txin' : TxIn) :
    obscuredCommitmentTransactionNumber tx txin = obscuredCommitmentTransactionNumber tx' txin' ↔
      tx.lockTime.toNat % 2 ^ 24 = tx'.lockTime.toNat % 2 ^ 24 ∧
        txin.sequence.toNat % 2 ^ 24 = txin'.sequence.toNat % 2 ^ 24 := by
  rw [← UInt64.toNat_inj, toNat_obscuredCommitmentTransactionNumber,
    toNat_obscuredCommitmentTransactionNumber]
  omega

theorem checkedAdd_one {a : UInt64} (h : a.toNat < 2 ^ 48) : checkedAdd a 1 = some (a + 1) := by
  simp only [checkedAdd, UInt64.toNat_one]
  rw [if_pos (by omega)]

theorem toNat_add_one {a : UInt64} (h : a.toNat < 2 ^ 48) : (a + 1).toNat = a.toNat + 1 := by
  rw [UInt64.toNat_add, UInt64.toNat_one, Nat.mod_eq_of_lt (by omega)]

/-! ## One call -/

namespace EnforcingChannelKeys

variable {Args Sig : Type} {self : EnforcingChannelKeys Args Sig} {args : Args}
  {commitmentTx : Transaction}

/-- The mask a call uses: the fixed one, or on the first call the one that makes the
de-obscured number the current high-water mark. -/
def maskFor (self : EnforcingChannelKeys Args Sig) (obscured : UInt64) : UInt64 :=
  self.mask.getD (obscured ^^^ self.highWater)

/-- The commitment number a call de-obscures. -/
def numberFor (self : EnforcingChannelKeys Args Sig) (obscured : UInt64) : UInt64 :=
  obscured ^^^ self.maskFor obscured

/-- The wrapper after a call, with the given mask, high-water mark and poisoning. -/
def withLock (self : EnforcingChannelKeys Args Sig) (m last : UInt64) (poisoned : Bool) :
    EnforcingChannelKeys Args Sig :=
  { self with commitmentNumberObscureAndLast := ⟨(some m, last), poisoned⟩ }

/-- The wrapper after a call that passed the assertion. -/
def advance (self : EnforcingChannelKeys Args Sig) (obscured : UInt64) :
    EnforcingChannelKeys Args Sig :=
  self.withLock (self.maskFor obscured) (max (self.numberFor obscured) self.highWater) false

/-- The wrapper after a call that failed the assertion while holding the lock. -/
def poison (self : EnforcingChannelKeys Args Sig) (obscured : UInt64) :
    EnforcingChannelKeys Args Sig :=
  self.withLock (self.maskFor obscured) self.highWater true

@[simp] theorem mask_withLock (m last : UInt64) (p : Bool) :
    (self.withLock m last p).mask = some m := rfl

@[simp] theorem highWater_withLock (m last : UInt64) (p : Bool) :
    (self.withLock m last p).highWater = last := rfl

@[simp] theorem poisoned_withLock (m last : UInt64) (p : Bool) :
    (self.withLock m last p).poisoned = p := rfl

/-- A call with a transaction that does not have exactly one input panics and changes
nothing. -/
theorem signRemoteCommitment_of_input (h : commitmentTx.input.length ≠ 1) :
    self.signRemoteCommitment args commitmentTx = (.aborted, self) := by
  unfold signRemoteCommitment
  split
  · simp_all
  · rfl

/-- A call on a poisoned wrapper panics and changes nothing. -/
theorem signRemoteCommitment_of_poisoned (h : self.poisoned = true) :
    self.signRemoteCommitment args commitmentTx = (.aborted, self) := by
  unfold signRemoteCommitment
  split
  · exact if_pos h
  · rfl

/-- What a call with a single-input transaction on a live wrapper does: it signs when the
de-obscured number is the high-water mark or the next number, and otherwise panics holding
the lock, which poisons it. Either way the mask is fixed. -/
theorem signRemoteCommitment_of_live (hin : commitmentTx.input.length = 1)
    (hp : self.poisoned = false) :
    self.signRemoteCommitment args commitmentTx =
      if self.numberFor (obscuredNumberOf commitmentTx) = self.highWater ∨
          checkedAdd self.highWater 1 = some (self.numberFor (obscuredNumberOf commitmentTx))
      then (.delegated (self.inner args commitmentTx), self.advance (obscuredNumberOf commitmentTx))
      else (.aborted, self.poison (obscuredNumberOf commitmentTx)) := by
  obtain ⟨txin, hin⟩ := List.length_eq_one.1 hin
  unfold signRemoteCommitment advance poison numberFor maskFor withLock
  rw [poisoned] at hp
  simp only [hin, hp, obscuredNumberOf_eq hin, Bool.false_eq_true, ↓reduceIte]
  cases hm : self.mask <;> simp_all [mask, highWater]

/-- Everything a call can do: panic and change nothing, sign and advance, or panic and poison
the lock; the last two only for a single-input transaction on a live wrapper. -/
theorem signRemoteCommitment_cases (self : EnforcingChannelKeys Args Sig) (args : Args)
    (commitmentTx : Transaction) :
    ((commitmentTx.input.length ≠ 1 ∨ self.poisoned = true) ∧
        self.signRemoteCommitment args commitmentTx = (.aborted, self)) ∨
      (commitmentTx.input.length = 1 ∧ self.poisoned = false ∧
        (self.numberFor (obscuredNumberOf commitmentTx) = self.highWater ∨
          checkedAdd self.highWater 1 = some (self.numberFor (obscuredNumberOf commitmentTx))) ∧
        self.signRemoteCommitment args commitmentTx =
          (.delegated (self.inner args commitmentTx),
            self.advance (obscuredNumberOf commitmentTx))) ∨
      (commitmentTx.input.length = 1 ∧ self.poisoned = false ∧
        ¬(self.numberFor (obscuredNumberOf commitmentTx) = self.highWater ∨
          checkedAdd self.highWater 1 = some (self.numberFor (obscuredNumberOf commitmentTx))) ∧
        self.signRemoteCommitment args commitmentTx =
          (.aborted, self.poison (obscuredNumberOf commitmentTx))) := by
  by_cases hin : commitmentTx.input.length = 1
  · cases hp : self.poisoned
    · rw [signRemoteCommitment_of_live hin hp]
      split
      · exact .inr (.inl ⟨hin, rfl, ‹_›, rfl⟩)
      · exact .inr (.inr ⟨hin, rfl, ‹_›, rfl⟩)
    · exact .inl ⟨.inr rfl, signRemoteCommitment_of_poisoned hp⟩
  · exact .inl ⟨.inl hin, signRemoteCommitment_of_input hin⟩

/-- The assertion, for a high-water mark that cannot overflow: the number is the mark or the
next one. -/
theorem accepts_iff {n last : UInt64} (hl : last.toNat < 2 ^ 48) :
    (n = last ∨ checkedAdd last 1 = some n) ↔
      n.toNat = last.toNat ∨ n.toNat = last.toNat + 1 := by
  rw [checkedAdd_one hl, Option.some_inj, ← UInt64.toNat_inj, ← UInt64.toNat_inj,
    toNat_add_one hl]
  omega

/-! ## What every reachable wrapper satisfies -/

/-- Before the mask is fixed nothing has been signed, and the mask and the high-water mark
stay below `2 ^ 48`, the widest number a commitment transaction carries. -/
structure Inv (keys : EnforcingChannelKeys Args Sig) : Prop where
  highWater_of_mask_none : keys.mask = none → keys.highWater = 0
  mask_lt : ∀ m, keys.mask = some m → m.toNat < 2 ^ 48
  highWater_lt : keys.highWater.toNat < 2 ^ 48

theorem inv_new (inner : Args → Transaction → Except Unit Sig) : Inv (new inner) :=
  ⟨fun _ => rfl, fun _ h => Option.noConfusion h, show (0 : UInt64).toNat < 2 ^ 48 by decide⟩

theorem inv_withLock {m last : UInt64} (p : Bool) (hm : m.toNat < 2 ^ 48)
    (hl : last.toNat < 2 ^ 48) : Inv (self.withLock m last p) :=
  ⟨fun h => by simp at h, fun _ h => by cases h; exact hm, hl⟩

theorem Inv.maskFor_lt (hs : Inv self) {o : UInt64} (ho : o.toNat < 2 ^ 48) :
    (self.maskFor o).toNat < 2 ^ 48 := by
  unfold maskFor
  cases hm : self.mask with
  | none => simpa [UInt64.toNat_xor] using Nat.xor_lt_two_pow ho hs.highWater_lt
  | some m => exact hs.mask_lt m hm

theorem Inv.numberFor_lt (hs : Inv self) {o : UInt64} (ho : o.toNat < 2 ^ 48) :
    (self.numberFor o).toNat < 2 ^ 48 := by
  rw [numberFor, UInt64.toNat_xor]
  exact Nat.xor_lt_two_pow ho (hs.maskFor_lt ho)

/-- Every call keeps the invariant. -/
theorem Inv.signRemoteCommitment (hs : Inv self) :
    Inv (self.signRemoteCommitment args commitmentTx).2 := by
  have ho := obscuredNumberOf_lt commitmentTx
  rcases signRemoteCommitment_cases self args commitmentTx with
    ⟨-, h⟩ | ⟨-, -, -, h⟩ | ⟨-, -, -, h⟩ <;> rw [h]
  · exact hs
  · refine inv_withLock _ (hs.maskFor_lt ho) ?_
    rw [UInt64.toNat_max]
    exact max_lt (hs.numberFor_lt ho) hs.highWater_lt
  · exact inv_withLock _ (hs.maskFor_lt ho) hs.highWater_lt

/-- A fixed mask stays fixed. -/
theorem mask_signRemoteCommitment {m : UInt64} (hm : self.mask = some m) :
    (self.signRemoteCommitment args commitmentTx).2.mask = some m := by
  rcases signRemoteCommitment_cases self args commitmentTx with
    ⟨-, h⟩ | ⟨-, -, -, h⟩ | ⟨-, -, -, h⟩ <;> rw [h] <;> simp [advance, poison, maskFor, hm]

/-- A call that reaches the signer had a single-input transaction and a live wrapper. -/
theorem live_of_reachedSigner
    (h : (self.signRemoteCommitment args commitmentTx).1.reachedSigner = true) :
    commitmentTx.input.length = 1 ∧ self.poisoned = false := by
  rcases signRemoteCommitment_cases self args commitmentTx with
    ⟨-, h'⟩ | ⟨hin, hp, -, -⟩ | ⟨-, -, -, h'⟩
  · rw [h'] at h; cases h
  · exact ⟨hin, hp⟩
  · rw [h'] at h; cases h

/-- On a single-input transaction the wrapper ends poisoned exactly when the call did not
reach the signer. -/
theorem poisoned_signRemoteCommitment (hin : commitmentTx.input.length = 1) :
    (self.signRemoteCommitment args commitmentTx).2.poisoned =
      !(self.signRemoteCommitment args commitmentTx).1.reachedSigner := by
  rcases signRemoteCommitment_cases self args commitmentTx with
    ⟨hp, h⟩ | ⟨-, -, -, h⟩ | ⟨-, -, -, h⟩ <;> rw [h]
  · simpa [hin] using hp
  · rfl
  · rfl

/-- A call that does not reach the signer changes neither the mask nor the high-water mark. -/
theorem mask_highWater_of_not_reachedSigner (hs : Inv self)
    (h : (self.signRemoteCommitment args commitmentTx).1.reachedSigner = false) :
    (self.signRemoteCommitment args commitmentTx).2.mask = self.mask ∧
      (self.signRemoteCommitment args commitmentTx).2.highWater = self.highWater := by
  rcases signRemoteCommitment_cases self args commitmentTx with
    ⟨-, h'⟩ | ⟨-, -, -, h'⟩ | ⟨-, -, hc, h'⟩ <;> rw [h'] at h ⊢
  · exact ⟨rfl, rfl⟩
  · cases h
  · refine ⟨?_, rfl⟩
    cases hm : self.mask with
    | some m => simp [poison, maskFor, hm]
    | none =>
      simp [numberFor, maskFor, hm, UInt64.xor_xor_cancel_left,
        hs.highWater_of_mask_none hm] at hc

/-- A call that reaches the signer de-obscured the high-water mark or the next number and
advanced the mark to it. -/
theorem highWater_of_reachedSigner (hs : Inv self)
    (h : (self.signRemoteCommitment args commitmentTx).1.reachedSigner = true) :
    ((self.numberFor (obscuredNumberOf commitmentTx)).toNat = self.highWater.toNat ∨
        (self.numberFor (obscuredNumberOf commitmentTx)).toNat = self.highWater.toNat + 1) ∧
      (self.signRemoteCommitment args commitmentTx).2.highWater =
        max (self.numberFor (obscuredNumberOf commitmentTx)) self.highWater ∧
      max (self.numberFor (obscuredNumberOf commitmentTx)) self.highWater =
        self.numberFor (obscuredNumberOf commitmentTx) := by
  rcases signRemoteCommitment_cases self args commitmentTx with
    ⟨-, h'⟩ | ⟨-, -, hc, h'⟩ | ⟨-, -, -, h'⟩ <;> rw [h'] at h ⊢
  · cases h
  · have hc := (accepts_iff hs.highWater_lt).1 hc
    refine ⟨hc, rfl, UInt64.toNat.inj ?_⟩
    rw [UInt64.toNat_max]
    omega
  · cases h

/-- From `new`, a single-input call always signs, at number `0`, and fixes the mask to the
transaction's obscured number. -/
theorem signRemoteCommitment_new (inner : Args → Transaction → Except Unit Sig)
    (hin : commitmentTx.input.length = 1) :
    (new inner).signRemoteCommitment args commitmentTx =
      (.delegated (inner args commitmentTx),
        (new inner).withLock (obscuredNumberOf commitmentTx) 0 false) := by
  have hmax : max (0 : UInt64) 0 = 0 := rfl
  have hlive : (new inner : EnforcingChannelKeys Args Sig).poisoned = false := rfl
  rw [signRemoteCommitment_of_live hin hlive]
  simp [advance, numberFor, maskFor, new, mask, highWater, UInt64.xor_xor_cancel_left, hmax]

/-! ## Runs -/

variable {inner : Args → Transaction → Except Unit Sig} {calls : List (Args × Transaction)}
  {j : Nat} {c c₀ : Args × Transaction}

theorem stateBefore_succ (h : calls[j]? = some c) :
    stateBefore inner calls (j + 1) =
      ((stateBefore inner calls j).signRemoteCommitment c.1 c.2).2 := by
  simp [stateBefore, signAll, List.take_succ, h, List.foldl_append]

theorem stateBefore_succ_of_none (h : calls[j]? = none) :
    stateBefore inner calls (j + 1) = stateBefore inner calls j := by
  simp [stateBefore, List.take_succ, h]

theorem Inv.signAll (hs : Inv self) (calls : List (Args × Transaction)) :
    Inv (self.signAll calls) := by
  induction calls generalizing self with
  | nil => exact hs
  | cons c calls ih => exact ih hs.signRemoteCommitment

/-- Every state of a run satisfies the invariant. -/
theorem inv_stateBefore (inner : Args → Transaction → Except Unit Sig)
    (calls : List (Args × Transaction)) (j : Nat) : Inv (stateBefore inner calls j) :=
  (inv_new inner).signAll _

/-- Every call before call `j` reached the inner signer. -/
def AcceptedBefore (inner : Args → Transaction → Except Unit Sig)
    (calls : List (Args × Transaction)) (j : Nat) : Prop :=
  ∀ i c, i < j → calls[i]? = some c → (outcomeAt inner calls i c).reachedSigner = true

/-- With single-input transactions only, the wrapper is live before call `j` exactly when
every earlier call reached the signer: a refused call poisons the lock for good. -/
theorem live_stateBefore_iff (hone : ∀ c ∈ calls, c.2.input.length = 1)
    (hj : j ≤ calls.length) :
    (stateBefore inner calls j).poisoned = false ↔ AcceptedBefore inner calls j := by
  induction j with
  | zero => exact ⟨fun _ _ _ hi => absurd hi (Nat.not_lt_zero _), fun _ => rfl⟩
  | succ j ih =>
    have hc : calls[j]? = some calls[j] := List.getElem?_eq_getElem hj
    rw [stateBefore_succ hc, poisoned_signRemoteCommitment (hone _ (List.getElem?_mem hc)),
      Bool.not_eq_false']
    constructor
    · intro hr i ci hi hci
      rcases Nat.lt_succ_iff_lt_or_eq.1 hi with hi | rfl
      · exact (ih (by omega)).1 (live_of_reachedSigner hr).2 i ci hi hci
      · rw [hc] at hci
        cases hci
        exact hr
    · intro h
      exact h j _ (Nat.lt_succ_self j) hc

/-- From the second call on, the mask is the first transaction's obscured number. -/
theorem mask_stateBefore (hone : ∀ c ∈ calls, c.2.input.length = 1)
    (hc₀ : calls[0]? = some c₀) (hj : 1 ≤ j) :
    (stateBefore inner calls j).mask = some (obscuredNumberOf c₀.2) := by
  induction j, hj using Nat.le_induction with
  | base =>
    rw [stateBefore_succ hc₀, stateBefore, signAll, List.take_zero, List.foldl_nil,
      signRemoteCommitment_new inner (hone _ (List.getElem?_mem hc₀))]
    rfl
  | succ j _ ih =>
    cases hc : calls[j]? with
    | none => rwa [stateBefore_succ_of_none hc]
    | some c => rw [stateBefore_succ hc]; exact mask_signRemoteCommitment ih

/-- `n_j = o_j XOR o_1`: the commitment number of a transaction in a run whose first
transaction is `first`. -/
def commitmentNumber (first commitmentTx : Transaction) : UInt64 :=
  obscuredNumberOf commitmentTx ^^^ obscuredNumberOf first

/-- Every call of a run de-obscures with the first transaction's obscured number, so the
number the wrapper checks is `commitmentNumber`. -/
theorem numberFor_stateBefore (hone : ∀ c ∈ calls, c.2.input.length = 1)
    (hc₀ : calls[0]? = some c₀) (hc : calls[j]? = some c) :
    (stateBefore inner calls j).numberFor (obscuredNumberOf c.2) =
      commitmentNumber c₀.2 c.2 := by
  cases j with
  | zero =>
    rw [hc₀] at hc
    cases hc
    simp [numberFor, maskFor, stateBefore, signAll, new, mask, highWater, commitmentNumber]
  | succ j =>
    simp [numberFor, maskFor, mask_stateBefore hone hc₀ (Nat.succ_pos j), commitmentNumber]

/-- A call on a live wrapper reaches the signer exactly when its number is the high-water mark
or the next one. -/
theorem reachedSigner_iff_of_live (hs : Inv self) (hin : commitmentTx.input.length = 1)
    (hp : self.poisoned = false) :
    (self.signRemoteCommitment args commitmentTx).1.reachedSigner = true ↔
      (self.numberFor (obscuredNumberOf commitmentTx)).toNat = self.highWater.toNat ∨
        (self.numberFor (obscuredNumberOf commitmentTx)).toNat = self.highWater.toNat + 1 := by
  rw [signRemoteCommitment_of_live hin hp, ← accepts_iff hs.highWater_lt]
  split <;> simp_all [Outcome.reachedSigner]

/-- The high-water mark never goes down. -/
theorem highWater_le_signRemoteCommitment :
    self.highWater.toNat ≤ (self.signRemoteCommitment args commitmentTx).2.highWater.toNat := by
  rcases signRemoteCommitment_cases self args commitmentTx with
    ⟨-, h⟩ | ⟨-, -, -, h⟩ | ⟨-, -, -, h⟩ <;> rw [h] <;> simp [advance, poison, UInt64.toNat_max]

theorem highWater_stateBefore_mono {k k' : Nat} (hk : k ≤ k') :
    (stateBefore inner calls k).highWater.toNat ≤ (stateBefore inner calls k').highWater.toNat := by
  induction k', hk using Nat.le_induction with
  | base => exact Nat.le_refl _
  | succ k' _ ih =>
    cases hc : calls[k']? with
    | none => rwa [stateBefore_succ_of_none hc]
    | some c => rw [stateBefore_succ hc]; exact ih.trans highWater_le_signRemoteCommitment

/-- A call of a run that reaches the signer found the mark at most its number, and left it at
its number. -/
theorem highWater_of_reachedSigner_run (hone : ∀ c ∈ calls, c.2.input.length = 1)
    (hc₀ : calls[0]? = some c₀) (hc : calls[j]? = some c)
    (hr : (outcomeAt inner calls j c).reachedSigner = true) :
    ((commitmentNumber c₀.2 c.2).toNat = (stateBefore inner calls j).highWater.toNat ∨
        (commitmentNumber c₀.2 c.2).toNat = (stateBefore inner calls j).highWater.toNat + 1) ∧
      (stateBefore inner calls (j + 1)).highWater =
        max (commitmentNumber c₀.2 c.2) (stateBefore inner calls j).highWater ∧
      max (commitmentNumber c₀.2 c.2) (stateBefore inner calls j).highWater =
        commitmentNumber c₀.2 c.2 := by
  rw [stateBefore_succ hc, ← numberFor_stateBefore hone hc₀ hc]
  exact highWater_of_reachedSigner (inv_stateBefore inner calls j) hr

/-- A call that reaches the signer comes after calls that all did. -/
theorem acceptedBefore_of_reachedSigner (hone : ∀ c ∈ calls, c.2.input.length = 1)
    (hc : calls[j]? = some c) (hr : (outcomeAt inner calls j c).reachedSigner = true) :
    AcceptedBefore inner calls j :=
  (live_stateBefore_iff hone (List.getElem?_eq_some_iff.1 hc).1.le).1
    (live_of_reachedSigner hr).2

/-- The numbers the signer is reached at never go down along a run. -/
theorem commitmentNumber_mono_of_reachedSigner (hone : ∀ c ∈ calls, c.2.input.length = 1)
    (hc₀ : calls[0]? = some c₀) {a b : Nat} {ca cb : Args × Transaction}
    (ha : calls[a]? = some ca) (hb : calls[b]? = some cb) (hab : a < b)
    (hra : (outcomeAt inner calls a ca).reachedSigner = true)
    (hrb : (outcomeAt inner calls b cb).reachedSigner = true) :
    (commitmentNumber c₀.2 ca.2).toNat ≤ (commitmentNumber c₀.2 cb.2).toNat := by
  obtain ⟨-, hLa, hma⟩ := highWater_of_reachedSigner_run hone hc₀ ha hra
  obtain ⟨hnb, -, -⟩ := highWater_of_reachedSigner_run hone hc₀ hb hrb
  calc (commitmentNumber c₀.2 ca.2).toNat
      = (stateBefore inner calls (a + 1)).highWater.toNat := by rw [hLa, hma]
    _ ≤ (stateBefore inner calls b).highWater.toNat := highWater_stateBefore_mono hab
    _ ≤ (commitmentNumber c₀.2 cb.2).toNat := by omega

/-! ## The law of a run -/

/-- The law of a run of `sign_remote_commitment` calls from `new` whose first call is `c₀`;
`commitmentNumber c₀.2 c.2` is the number `n_j` of call `j`, and the high-water mark before
call `j` is `L`. -/
structure RunLaw (inner : Args → Transaction → Except Unit Sig)
    (calls : List (Args × Transaction)) (c₀ : Args × Transaction) : Prop where
  /-- The first call signs and leaves the mark at `0`. -/
  first_reachedSigner : (outcomeAt inner calls 0 c₀).reachedSigner = true
  first_highWater : (stateBefore inner calls 1).highWater = 0
  /-- The first call fixes the mask to its obscured number for good. -/
  mask_fixed : ∀ j, 1 ≤ j → (stateBefore inner calls j).mask = some (obscuredNumberOf c₀.2)
  /-- So the number every call checks is `n_j`. -/
  number_checked : ∀ j c, calls[j]? = some c →
    (stateBefore inner calls j).numberFor (obscuredNumberOf c.2) = commitmentNumber c₀.2 c.2
  /-- While every earlier call signed, a call signs iff `n_j` is `L` or `L + 1`. -/
  reachedSigner_iff : ∀ j c, calls[j]? = some c → AcceptedBefore inner calls j →
    ((outcomeAt inner calls j c).reachedSigner = true ↔
      (commitmentNumber c₀.2 c.2).toNat = (stateBefore inner calls j).highWater.toNat ∨
        (commitmentNumber c₀.2 c.2).toNat = (stateBefore inner calls j).highWater.toNat + 1)
  /-- After a signing call the mark is `max n_j L = n_j`. -/
  highWater_of_reachedSigner : ∀ j c, calls[j]? = some c →
    (outcomeAt inner calls j c).reachedSigner = true →
    (stateBefore inner calls (j + 1)).highWater =
        max (commitmentNumber c₀.2 c.2) (stateBefore inner calls j).highWater ∧
      max (commitmentNumber c₀.2 c.2) (stateBefore inner calls j).highWater =
        commitmentNumber c₀.2 c.2
  /-- A refused call changes neither the mask nor the mark. -/
  unchanged_of_refused : ∀ j c, calls[j]? = some c →
    (outcomeAt inner calls j c).reachedSigner = false →
    (stateBefore inner calls (j + 1)).mask = (stateBefore inner calls j).mask ∧
      (stateBefore inner calls (j + 1)).highWater = (stateBefore inner calls j).highWater
  /-- The signing calls are a prefix of the run ... -/
  acceptedBefore : ∀ j c, calls[j]? = some c → (outcomeAt inner calls j c).reachedSigner = true →
    AcceptedBefore inner calls j
  /-- ... whose numbers never go down and never skip. -/
  number_succ : ∀ j c c', calls[j]? = some c → calls[j + 1]? = some c' →
    (outcomeAt inner calls (j + 1) c').reachedSigner = true →
    (commitmentNumber c₀.2 c'.2).toNat = (commitmentNumber c₀.2 c.2).toNat ∨
      (commitmentNumber c₀.2 c'.2).toNat = (commitmentNumber c₀.2 c.2).toNat + 1
  /-- Every state keeps the mask and the mark below `2 ^ 48` ... -/
  inv : ∀ j, Inv (stateBefore inner calls j)
  /-- ... so `commitment_data.1 + 1` never overflows. -/
  no_overflow : ∀ j, checkedAdd (stateBefore inner calls j).highWater 1 =
    some ((stateBefore inner calls j).highWater + 1)

/-- Every run of single-input calls from `new` obeys the run law. -/
theorem sign_remote_commitment_run_law (inner : Args → Transaction → Except Unit Sig)
    (calls : List (Args × Transaction)) (c₀ : Args × Transaction)
    (hone : ∀ c ∈ calls, c.2.input.length = 1) (hc₀ : calls[0]? = some c₀) :
    RunLaw inner calls c₀ := by
  have hin₀ := hone c₀ (List.getElem?_mem hc₀)
  have hfirst : ((new inner).signRemoteCommitment c₀.1 c₀.2) =
      (.delegated (inner c₀.1 c₀.2), (new inner).withLock (obscuredNumberOf c₀.2) 0 false) :=
    signRemoteCommitment_new inner hin₀
  refine ⟨?_, ?_, fun j => mask_stateBefore hone hc₀, fun j c => numberFor_stateBefore hone hc₀,
    ?_, fun j c hc hr => (highWater_of_reachedSigner_run hone hc₀ hc hr).2,
    ?_, fun j c => acceptedBefore_of_reachedSigner hone, ?_,
    inv_stateBefore inner calls,
    fun j => checkedAdd_one (inv_stateBefore inner calls j).highWater_lt⟩
  · simp only [outcomeAt, stateBefore, signAll, List.take_zero, List.foldl_nil, hfirst]
    rfl
  · rw [stateBefore_succ hc₀]
    simp only [stateBefore, signAll, List.take_zero, List.foldl_nil, hfirst]
    rfl
  · intro j c hc hacc
    have hlive := (live_stateBefore_iff hone (List.getElem?_eq_some_iff.1 hc).1.le).2 hacc
    rw [outcomeAt, reachedSigner_iff_of_live (inv_stateBefore inner calls j)
      (hone c (List.getElem?_mem hc)) hlive, numberFor_stateBefore hone hc₀ hc]
  · intro j c hc hr
    rw [stateBefore_succ hc]
    exact mask_highWater_of_not_reachedSigner (inv_stateBefore inner calls j) hr
  · intro j c c' hc hc' hr'
    have hr := acceptedBefore_of_reachedSigner hone hc' hr' j c (Nat.lt_succ_self j) hc
    obtain ⟨-, hL, hmax⟩ := highWater_of_reachedSigner_run hone hc₀ hc hr
    obtain ⟨hn', -⟩ := highWater_of_reachedSigner_run hone hc₀ hc' hr'
    rwa [hL, hmax] at hn'

/-- A commitment transaction spending the zero outpoint, with the given lock time and input
sequence, paying the given outputs. -/
def sampleCommitmentTx (lockTime sequence : UInt32) (output : List TxOut) : Transaction :=
  ⟨2, lockTime, [⟨⟨Mathlib.Vector.replicate 32 0, 0⟩, [], sequence, []⟩], output⟩

/-- The call at commitment number `n < 2 ^ 24` under the obscured number `0x123456abcdef`. -/
def sampleCall (n : UInt32) (output : List TxOut) : Unit × Transaction :=
  ((), sampleCommitmentTx (0x20abcdef ^^^ n) 0x80123456 output)

/-- A run at numbers `0`, `1`, `1`, whose last two transactions differ in their outputs. -/
def sampleRun : List (Unit × Transaction) :=
  [sampleCall 0 [], sampleCall 1 [], sampleCall 1 [⟨1000, []⟩]]

theorem sign_remote_commitment_run_law_sample :
    (∀ c ∈ sampleRun, c.2.input.length = 1) ∧ sampleRun[0]? = some (sampleCall 0 []) ∧
      RunLaw (fun _ _ => .ok ()) sampleRun (sampleCall 0 []) :=
  ⟨by decide, rfl, sign_remote_commitment_run_law _ _ _ (by decide) rfl⟩

/-! ## Re-signing at one number -/

/-- The wrapper reads of a transaction only its input count and its obscured number: two
transactions that agree on both are signed or refused alike, and leave the same wrapper. -/
theorem signRemoteCommitment_congr (self : EnforcingChannelKeys Args Sig) (args : Args)
    {tx tx' : Transaction} (hin : tx.input.length = tx'.input.length)
    (ho : obscuredNumberOf tx = obscuredNumberOf tx') :
    (self.signRemoteCommitment args tx).1.reachedSigner =
        (self.signRemoteCommitment args tx').1.reachedSigner ∧
      (self.signRemoteCommitment args tx).2 = (self.signRemoteCommitment args tx').2 := by
  by_cases h1 : tx.input.length = 1
  · cases hp : self.poisoned
    · rw [signRemoteCommitment_of_live h1 hp, signRemoteCommitment_of_live (hin ▸ h1) hp, ho]
      split <;> exact ⟨rfl, rfl⟩
    · rw [signRemoteCommitment_of_poisoned hp, signRemoteCommitment_of_poisoned hp]
      exact ⟨rfl, rfl⟩
  · rw [signRemoteCommitment_of_input h1, signRemoteCommitment_of_input (hin ▸ h1)]
    exact ⟨rfl, rfl⟩

/-- The wrapper reads only the low 24 bits of `lock_time` and of the input's `sequence`
(`signRemoteCommitment_congr`): it signs two different transactions that carry the same
commitment number. -/
theorem signs_two_transactions_at_one_number :
    ¬ ∀ (inner : Unit → Transaction → Except Unit Unit) (calls : List (Unit × Transaction))
        (c₀ ci cj : Unit × Transaction) (i j : Nat),
      (∀ c ∈ calls, c.2.input.length = 1) → calls[0]? = some c₀ →
      calls[i]? = some ci → calls[j]? = some cj → i ≠ j →
      (outcomeAt inner calls i ci).reachedSigner = true →
      (outcomeAt inner calls j cj).reachedSigner = true →
      commitmentNumber c₀.2 ci.2 = commitmentNumber c₀.2 cj.2 → ci.2 = cj.2 := by
  intro h
  exact absurd (h (fun _ _ => .ok ()) sampleRun (sampleCall 0 []) (sampleCall 1 [])
    (sampleCall 1 [⟨1000, []⟩]) 1 2 (by decide) rfl rfl rfl (by decide) (by decide) (by decide)
    (by decide)) (by decide)

/-- Two signed calls at one commitment number carry transactions that agree on the low 24
bits of `lock_time` and of the input's `sequence`, the only fields the wrapper reads, and
every call between them is signed at that same number. -/
theorem same_number_calls_share_committed_fields (inner : Args → Transaction → Except Unit Sig)
    (calls : List (Args × Transaction)) (c₀ ci cj : Args × Transaction) (i j : Nat)
    (hone : ∀ c ∈ calls, c.2.input.length = 1) (hc₀ : calls[0]? = some c₀)
    (hi : calls[i]? = some ci) (hj : calls[j]? = some cj) (hij : i < j)
    (hrj : (outcomeAt inner calls j cj).reachedSigner = true)
    (hn : commitmentNumber c₀.2 ci.2 = commitmentNumber c₀.2 cj.2) :
    (outcomeAt inner calls i ci).reachedSigner = true ∧
      ci.2.lockTime &&& 0xffffff = cj.2.lockTime &&& 0xffffff ∧
      ci.2.input.map (fun txin => txin.sequence &&& 0xffffff) =
        cj.2.input.map (fun txin => txin.sequence &&& 0xffffff) ∧
      ∀ k ck, i < k → k < j → calls[k]? = some ck →
        (outcomeAt inner calls k ck).reachedSigner = true ∧
          commitmentNumber c₀.2 ck.2 = commitmentNumber c₀.2 ci.2 := by
  have hri := acceptedBefore_of_reachedSigner hone hj hrj i ci hij hi
  obtain ⟨txi, hti⟩ := List.length_eq_one.1 (hone ci (List.getElem?_mem hi))
  obtain ⟨txj, htj⟩ := List.length_eq_one.1 (hone cj (List.getElem?_mem hj))
  have ho : obscuredNumberOf ci.2 = obscuredNumberOf cj.2 := by
    simpa [commitmentNumber, UInt64.xor_xor_cancel_right] using
      congrArg (· ^^^ obscuredNumberOf c₀.2) hn
  rw [obscuredNumberOf_eq hti, obscuredNumberOf_eq htj,
    obscuredCommitmentTransactionNumber_eq_iff] at ho
  refine ⟨hri, UInt32.toNat.inj (by rw [toNat_and_low24, toNat_and_low24, ho.1]), ?_, ?_⟩
  · simp only [hti, htj, List.map_cons, List.map_nil, List.cons.injEq, and_true]
    exact UInt32.toNat.inj (by rw [toNat_and_low24, toNat_and_low24, ho.2])
  · intro k ck hik hkj hk
    have hrk := acceptedBefore_of_reachedSigner hone hj hrj k ck hkj hk
    have hle := commitmentNumber_mono_of_reachedSigner hone hc₀ hi hk hik hri hrk
    have hge := commitmentNumber_mono_of_reachedSigner hone hc₀ hk hj hkj hrk hrj
    rw [← hn] at hge
    exact ⟨hrk, UInt64.toNat.inj (by omega)⟩

theorem same_number_calls_share_committed_fields_sample :
    (∀ c ∈ sampleRun, c.2.input.length = 1) ∧ sampleRun[0]? = some (sampleCall 0 []) ∧
      sampleRun[1]? = some (sampleCall 1 []) ∧ sampleRun[2]? = some (sampleCall 1 [⟨1000, []⟩]) ∧
      1 < 2 ∧
      (outcomeAt (fun _ _ => .ok ()) sampleRun 2 (sampleCall 1 [⟨1000, []⟩])).reachedSigner = true ∧
      commitmentNumber (sampleCall 0 []).2 (sampleCall 1 []).2 =
        commitmentNumber (sampleCall 0 []).2 (sampleCall 1 [⟨1000, []⟩]).2 ∧
      ((outcomeAt (fun _ _ => .ok ()) sampleRun 1 (sampleCall 1 [])).reachedSigner = true ∧
        (sampleCall 1 []).2.lockTime &&& 0xffffff =
          (sampleCall 1 [⟨1000, []⟩]).2.lockTime &&& 0xffffff ∧
        (sampleCall 1 []).2.input.map (fun txin => txin.sequence &&& 0xffffff) =
          (sampleCall 1 [⟨1000, []⟩]).2.input.map (fun txin => txin.sequence &&& 0xffffff) ∧
        ∀ k ck, 1 < k → k < 2 → sampleRun[k]? = some ck →
          (outcomeAt (fun _ _ => .ok ()) sampleRun k ck).reachedSigner = true ∧
            commitmentNumber (sampleCall 0 []).2 ck.2 =
              commitmentNumber (sampleCall 0 []).2 (sampleCall 1 []).2) :=
  ⟨by decide, rfl, rfl, rfl, by decide, by decide, by decide,
    same_number_calls_share_committed_fields _ _ _ _ _ 1 2 (by decide) rfl rfl rfl (by decide)
      (by decide) (by decide)⟩

end EnforcingChannelKeys

end Lightning.Util
