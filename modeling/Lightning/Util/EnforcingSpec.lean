import Lightning.Util.EnforcingTraitImpls

/-!
# What the signer-enforcement wrapper is for

An abstract signing policy over commitment numbers, and the wrapper refining it. The policy
signs the first request, then signs a request exactly when its number is the last number signed
or the next one, and after any other request halts for good. Read
`signer_policy_refinement` first: along every run of single-input calls from `new`, the
wrapper's state abstracts to the policy's state on the numbers `n_j = o_j XOR o_1`, and each
call reaches the inner signer exactly when the policy signs.
-/

namespace Lightning.Util

/-- The abstract signing history of one channel. -/
inductive SignerState where
  /-- Nothing signed yet. -/
  | fresh
  /-- The highest commitment number signed so far. -/
  | signed (last : Nat)
  /-- A request broke the policy; nothing is signed again. -/
  | halted
deriving DecidableEq, Repr

namespace SignerState

/-- One request to sign commitment number `n`: whether it is signed, and the next state. -/
def request : SignerState → Nat → Bool × SignerState
  | fresh, n => (true, signed n)
  | signed last, n => if n = last ∨ n = last + 1 then (true, signed n) else (false, halted)
  | halted, _ => (false, halted)

/-- The policy's state after a sequence of requests. -/
def run (s : SignerState) (numbers : List Nat) : SignerState :=
  numbers.foldl (fun s n => (s.request n).2) s

@[simp] theorem run_nil (s : SignerState) : s.run [] = s := rfl

@[simp] theorem run_cons (s : SignerState) (n : Nat) (numbers : List Nat) :
    s.run (n :: numbers) = (s.request n).2.run numbers := rfl

theorem run_append (s : SignerState) (xs ys : List Nat) :
    s.run (xs ++ ys) = (s.run xs).run ys :=
  List.foldl_append _ _ _ _

theorem run_concat (s : SignerState) (xs : List Nat) (n : Nat) :
    s.run (xs ++ [n]) = ((s.run xs).request n).2 := by
  rw [run_append]
  rfl

/-- A halted policy signs nothing. -/
@[simp] theorem request_halted (n : Nat) : halted.request n = (false, halted) := rfl

end SignerState

namespace EnforcingChannelKeys

variable {Args Sig : Type}

/-- The policy state a wrapper stands for: halted once its lock is poisoned, fresh before the
mask is fixed, and otherwise signed up to its high-water mark. -/
def abstraction (keys : EnforcingChannelKeys Args Sig) : SignerState :=
  if keys.poisoned then .halted
  else match keys.mask with
    | none => .fresh
    | some _ => .signed keys.highWater.toNat

theorem abstraction_new (inner : Args → Transaction → Except Unit Sig) :
    (new inner).abstraction = .fresh := rfl

/-- One call on a reachable wrapper does what the policy does with the number the call
de-obscures. -/
theorem signRemoteCommitment_refines {self : EnforcingChannelKeys Args Sig} (hs : Inv self)
    (args : Args) {commitmentTx : Transaction} (hin : commitmentTx.input.length = 1) :
    let n := (self.numberFor (obscuredNumberOf commitmentTx)).toNat
    (self.signRemoteCommitment args commitmentTx).1.reachedSigner =
        (self.abstraction.request n).1 ∧
      (self.signRemoteCommitment args commitmentTx).2.abstraction =
        (self.abstraction.request n).2 := by
  intro n
  cases hp : self.poisoned
  · rw [signRemoteCommitment_of_live hin hp]
    cases hm : self.mask with
    | none =>
      -- the first call de-obscures the high-water mark, `0`, and signs it
      have hL := hs.highWater_of_mask_none hm
      have hn : self.numberFor (obscuredNumberOf commitmentTx) = self.highWater := by
        simp [numberFor, maskFor, hm, UInt64.xor_xor_cancel_left]
      have hmax : max (0 : UInt64) 0 = 0 := rfl
      simp [hn, abstraction, hp, hm, advance, hL, n, hmax, SignerState.request,
        Outcome.reachedSigner]
    | some m =>
      have hacc : (self.numberFor (obscuredNumberOf commitmentTx) = self.highWater ∨
            checkedAdd self.highWater 1 = some (self.numberFor (obscuredNumberOf commitmentTx))) ↔
          n = self.highWater.toNat ∨ n = self.highWater.toNat + 1 :=
        accepts_iff hs.highWater_lt
      have hmax : (max (self.numberFor (obscuredNumberOf commitmentTx)) self.highWater).toNat =
          max n self.highWater.toNat := UInt64.toNat_max _ _
      simp only [abstraction, hp, hm, Bool.false_eq_true, ↓reduceIte, SignerState.request, hacc]
      split
      · simp only [advance, poisoned_withLock, mask_withLock, highWater_withLock, hmax,
          Outcome.reachedSigner, Bool.false_eq_true, ↓reduceIte, true_and]
        congr 1
        omega
      · simp [poison, Outcome.reachedSigner]
  · rw [signRemoteCommitment_of_poisoned hp]
    simp [abstraction, hp, Outcome.reachedSigner]

/-- Before call `j` of a run from `new`, the wrapper stands for the policy's state after the
numbers of the earlier calls. -/
theorem abstraction_stateBefore {inner : Args → Transaction → Except Unit Sig}
    {calls : List (Args × Transaction)} {c₀ : Args × Transaction}
    (hone : ∀ c ∈ calls, c.2.input.length = 1) (hc₀ : calls[0]? = some c₀) (j : Nat) :
    (stateBefore inner calls j).abstraction = SignerState.fresh.run
      ((calls.take j).map fun c => (commitmentNumber c₀.2 c.2).toNat) := by
  induction j with
  | zero => rfl
  | succ j ih =>
    cases hc : calls[j]? with
    | none =>
      rw [stateBefore_succ_of_none hc, List.take_succ, hc, Option.toList_none,
        List.append_nil, ih]
    | some c =>
      have hstep := signRemoteCommitment_refines (inv_stateBefore inner calls j) c.1
        (hone c (List.getElem?_mem hc))
      rw [numberFor_stateBefore hone hc₀ hc, ih] at hstep
      rw [stateBefore_succ hc, hstep.2, List.take_succ, hc, Option.toList_some,
        List.map_append, List.map_singleton, SignerState.run_concat]

/-- The wrapper refines the abstract signing policy. Along every run of single-input calls
from `new` whose first call is `c₀`, the wrapper before call `j` stands for the policy's state
after the numbers `n_i = o_i XOR o_1` of the earlier calls, and call `j` reaches the inner
signer exactly when the policy signs `n_j`. -/
theorem signer_policy_refinement (inner : Args → Transaction → Except Unit Sig)
    (calls : List (Args × Transaction)) (c₀ : Args × Transaction)
    (hone : ∀ c ∈ calls, c.2.input.length = 1) (hc₀ : calls[0]? = some c₀) (j : Nat) :
    (stateBefore inner calls j).abstraction =
        SignerState.fresh.run
          ((calls.take j).map fun c => (commitmentNumber c₀.2 c.2).toNat) ∧
      ∀ c, calls[j]? = some c →
        (outcomeAt inner calls j c).reachedSigner =
          ((SignerState.fresh.run
            ((calls.take j).map fun c => (commitmentNumber c₀.2 c.2).toNat)).request
              (commitmentNumber c₀.2 c.2).toNat).1 := by
  refine ⟨abstraction_stateBefore hone hc₀ j, fun c hc => ?_⟩
  have hstep := signRemoteCommitment_refines (inv_stateBefore inner calls j) c.1
    (hone c (List.getElem?_mem hc))
  rw [numberFor_stateBefore hone hc₀ hc, abstraction_stateBefore hone hc₀ j] at hstep
  exact hstep.1

theorem signer_policy_refinement_sample :
    (∀ c ∈ sampleRun, c.2.input.length = 1) ∧ sampleRun[0]? = some (sampleCall 0 []) ∧
      ((stateBefore (fun _ _ => .ok ()) sampleRun 2).abstraction =
          SignerState.fresh.run
            ((sampleRun.take 2).map fun c => (commitmentNumber (sampleCall 0 []).2 c.2).toNat) ∧
        ∀ c, sampleRun[2]? = some c →
          (outcomeAt (fun _ _ => .ok ()) sampleRun 2 c).reachedSigner =
            ((SignerState.fresh.run
              ((sampleRun.take 2).map fun c =>
                (commitmentNumber (sampleCall 0 []).2 c.2).toNat)).request
                  (commitmentNumber (sampleCall 0 []).2 c.2).toNat).1) :=
  ⟨by decide, rfl, signer_policy_refinement _ _ _ (by decide) rfl 2⟩

end EnforcingChannelKeys

end Lightning.Util
