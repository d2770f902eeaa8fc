import Mathlib.Data.List.Nodup

/-!
# Ownership across the C bindings

`lightning-c-bindings/src/ln/chan_utils.rs`. Each native type of `ln::chan_utils` reaches C as
a struct `{ inner, is_owned }`: `inner` is a pointer `Box::into_raw` returned, and the struct's
`Drop` frees it when the struct is owned and the pointer is not null. A C caller keeps these
structs in variables and passes them by value to give them up (`_free`, or a constructor that
moves the native out with `take_ptr`), or by reference otherwise. `_read` returns an owned
struct with a null `inner` when deserialization fails, and the two `trust_key_derivation`
return a struct that is not owned and points at the `TxCreationKeys` inside another native.

`Memory` is the Rust heap together with the caller's variables. Each binding is written with
the primitives it uses: `alloc`, `deref` (`&*inner`), `boxFromRaw` (dropping
`Box::from_raw`), `dropWrapper` and `takePtr`. `Holds` says every live allocation is held by
exactly one owned struct, and a struct pointing inside a native is not owned.

`bindings_faults_only_through_views_or_null` is the law of every sequence of calls. The run
either ends with `Holds` restored or stops at an error the caller causes: it names a variable it
already gave up, it uses a view after freeing the view's owner, it uses a struct whose `_read`
failed, it passes a view by value, or it passes bytes that the binding parses and unwraps,
as a transaction or a secret key, and that do not parse. No call frees an allocation twice, frees a pointer
`Box::into_raw` did not return, or reads through an owned struct after a free.
`free_all_releases_heap` says that freeing every variable the caller holds then frees every
allocation.
-/

namespace Lightning.Bindings

/-- The structs of `chan_utils.rs`, each around the native type of the same name. -/
inductive Kind where
  | txCreationKeys
  | preCalculatedTxCreationKeys
  | channelPublicKeys
  | htlcOutputInCommitment
  | localCommitmentTransaction
deriving DecidableEq, Repr

/-- A struct's `inner`: null, an allocation `Box::into_raw` returned, or the `TxCreationKeys`
inside the native at an allocation. -/
inductive Ptr where
  | null
  | box (addr : Nat)
  | keysIn (addr : Nat)
deriving DecidableEq, Repr

/-- The allocation a pointer names, if `Box::into_raw` returned it. -/
def Ptr.boxAddr : Ptr → Option Nat
  | .box addr => some addr
  | _ => none

/-- `&(*ret) as *const _` for the `TxCreationKeys` inside the native `p` points to. -/
def Ptr.keys : Ptr → Ptr
  | .box addr => .keysIn addr
  | p => p

/-- A struct `{ inner, is_owned }` of C type `kind`. -/
structure Wrapper where
  kind : Kind
  inner : Ptr
  isOwned : Bool
deriving DecidableEq, Repr

/-- The heap, allocation `a` holding `some k` while its native of type `k` is live and `none`
once freed, and the caller's variables, `none` once passed by value. -/
structure Memory where
  heap : List (Option Kind)
  vars : List (Option Wrapper)
deriving DecidableEq, Repr

/-- Undefined behaviour, or a panic unwinding into C: `take_ptr`'s assert (`notOwned`), or an
`unwrap` of a value parsed from the caller's bytes (`unwrapFailed`). -/
inductive Fault where
  | useAfterFree (p : Ptr)
  | nullDeref
  | doubleFree (addr : Nat)
  | invalidFree (p : Ptr)
  | notOwned
  | unwrapFailed
deriving DecidableEq, Repr

/-- How a call fails: the caller names a variable it already gave up or one of another C type
(`misuse`), or the Rust code faults. -/
inductive Error where
  | misuse
  | fault (f : Fault)
deriving DecidableEq, Repr

/-- `take_ptr`: `assert!(self.is_owned)`, then `inner`; the struct is left null for its
`Drop`. -/
def takePtr (w : Wrapper) : Except Error Ptr :=
  if w.isOwned then .ok w.inner else .error (.fault .notOwned)

/-- `unwrap` of a value a binding parses from the caller's bytes: a transaction
`deserialize`d, or a `SecretKey::from_slice`. `ok` says whether the bytes parse; otherwise the
panic unwinds into C. -/
def unwrapParsed (ok : Bool) : Except Error Unit :=
  if ok then .ok () else .error (.fault .unwrapFailed)

namespace Memory

/-- No allocation and no variable. -/
def empty : Memory := ⟨[], []⟩

/-- The structs the caller holds. -/
def held (m : Memory) : List Wrapper := m.vars.filterMap id

/-- The variables that still hold a struct. -/
def heldIndices (m : Memory) : List Nat :=
  (List.range m.vars.length).filter fun i => (m.vars[i]?.join).isSome

/-- `Box::into_raw(Box::new(native))` for a native of type `k`. -/
def alloc (m : Memory) (k : Kind) : Ptr × Memory :=
  (.box m.heap.length, { m with heap := m.heap ++ [some k] })

/-- `&*p`: the type of the native `p` points to. -/
def deref (m : Memory) : Ptr → Except Error Kind
  | .null => .error (.fault .nullDeref)
  | .box a =>
      match m.heap[a]? with
      | some (some k) => .ok k
      | _ => .error (.fault (.useAfterFree (.box a)))
  | .keysIn a =>
      match m.heap[a]? with
      | some (some _) => .ok .txCreationKeys
      | _ => .error (.fault (.useAfterFree (.keysIn a)))

/-- Dropping `Box::from_raw(p)`: the allocation `p` names is freed. -/
def boxFromRaw (m : Memory) : Ptr → Except Error Memory
  | .null => .error (.fault .nullDeref)
  | .box a =>
      match m.heap[a]? with
      | some (some _) => .ok { m with heap := m.heap.set a none }
      | _ => .error (.fault (.doubleFree a))
  | .keysIn a => .error (.fault (.invalidFree (.keysIn a)))

/-- `*Box::from_raw(p)`: the native moved out and its allocation freed. -/
def moveOut (m : Memory) (p : Ptr) : Except Error Memory := do
  let _ ← m.deref p
  m.boxFromRaw p

/-- `Drop` of every struct: `if self.is_owned && !self.inner.is_null()`, drop
`Box::from_raw(self.inner)`. -/
def dropWrapper (m : Memory) (w : Wrapper) : Except Error Memory :=
  if w.isOwned && w.inner != .null then m.boxFromRaw w.inner else .ok m

/-- Passing variable `i`, of C type `k`, by value. -/
def take (m : Memory) (k : Kind) (i : Nat) : Except Error (Wrapper × Memory) :=
  match m.vars[i]? with
  | some (some w) =>
      if w.kind = k then .ok (w, { m with vars := m.vars.set i none }) else .error .misuse
  | _ => .error .misuse

/-- Passing the variables `is`, of C type `k`, by value, in a vector. -/
def takeAll (m : Memory) (k : Kind) : List Nat → Except Error (List Wrapper × Memory)
  | [] => .ok ([], m)
  | i :: is => do
      let (w, m) ← m.take k i
      let (ws, m) ← m.takeAll k is
      pure (w :: ws, m)

/-- Passing variable `i`, of C type `k`, by reference. -/
def borrow (m : Memory) (k : Kind) (i : Nat) : Except Error Wrapper :=
  match m.vars[i]? with
  | some (some w) => if w.kind = k then .ok w else .error .misuse
  | _ => .error .misuse

/-- Returning a struct to the caller, in a new variable. -/
def give (m : Memory) (w : Wrapper) : Memory := { m with vars := m.vars ++ [some w] }

/-- The loop over the HTLCs passed by value: `*Box::from_raw(item.take_ptr())` for each, in
order. -/
def moveHtlcs (m : Memory) : List Wrapper → Except Error Memory
  | [] => .ok m
  | w :: ws => do
      let p ← takePtr w
      let m ← m.moveOut p
      moveHtlcs m ws

end Memory

/-! ## The bindings -/

/-- A fresh native of type `k` returned owned: `<T>_new`, and `<T>_read` or
`TxCreationKeys_derive_new` when they succeed. -/
def newOwned (k : Kind) (m : Memory) : Memory :=
  (m.alloc k).2.give ⟨k, (m.alloc k).1, true⟩

/-- `TxCreationKeys_new`. -/
def txCreationKeysNew (m : Memory) : Memory := newOwned .txCreationKeys m

/-- `ChannelPublicKeys_new`. -/
def channelPublicKeysNew (m : Memory) : Memory := newOwned .channelPublicKeys m

/-- `TxCreationKeys_derive_new`, `ok` when key derivation succeeds; its `Err` holds no
struct. -/
def txCreationKeysDeriveNew (ok : Bool) (m : Memory) : Memory :=
  if ok then newOwned .txCreationKeys m else m

/-- `<T>_read`, `ok` when `deserialize_obj` succeeds; otherwise an owned struct with a null
`inner`. -/
def read (k : Kind) (ok : Bool) (m : Memory) : Memory :=
  if ok then newOwned k m else m.give ⟨k, .null, true⟩

/-- `<T>_free(this_ptr)`: the struct is moved in and dropped. -/
def free (k : Kind) (i : Nat) (m : Memory) : Except Error Memory := do
  let (w, m) ← m.take k i
  m.dropWrapper w

/-- A binding that reads or writes through a struct passed by reference, `&*this_ptr.inner`
or `&mut *this_ptr.inner`, and parses nothing: the getters and the setters but
`set_unsigned_tx`, `<T>_write`, `get_htlc_redeemscript`, `build_htlc_transaction` (whose
`Txid::from_slice` of 32 bytes cannot fail), `LocalCommitmentTransaction_txid`,
`PreCalculatedTxCreationKeys_per_commitment_point`. -/
def access (k : Kind) (i : Nat) (m : Memory) : Except Error Memory := do
  let w ← m.borrow k i
  let _ ← m.deref w.inner
  pure m

/-- A binding that calls a method of the native through a struct passed by reference with a
secret key it unwraps from the caller's bytes: the receiver `&*this_arg.inner` comes first. -/
def accessThenUnwrap (k : Kind) (i : Nat) (keyOk : Bool) (m : Memory) : Except Error Memory := do
  let m ← access k i m
  unwrapParsed keyOk
  pure m

/-- `LocalCommitmentTransaction_get_local_sig(this_arg, funding_key, ..)`. -/
def localCommitmentTransactionGetLocalSig (i : Nat) (fundingKeyOk : Bool) (m : Memory) :
    Except Error Memory :=
  accessThenUnwrap .localCommitmentTransaction i fundingKeyOk m

/-- `LocalCommitmentTransaction_get_htlc_sigs(this_arg, htlc_base_key, ..)`. -/
def localCommitmentTransactionGetHtlcSigs (i : Nat) (htlcBaseKeyOk : Bool) (m : Memory) :
    Except Error Memory :=
  accessThenUnwrap .localCommitmentTransaction i htlcBaseKeyOk m

/-- `LocalCommitmentTransaction_set_unsigned_tx(this_ptr, val)`: the assignment's right side,
`deserialize(val).unwrap()`, runs before the place `&mut *this_ptr.inner`. -/
def localCommitmentTransactionSetUnsignedTx (i : Nat) (valOk : Bool) (m : Memory) :
    Except Error Memory := do
  let w ← m.borrow .localCommitmentTransaction i
  unwrapParsed valOk
  let _ ← m.deref w.inner
  pure m

/-- `derive_private_key(per_commitment_point, base_secret)`: the base secret unwrapped; no
struct is read or made. -/
def derivePrivateKey (baseSecretOk : Bool) (m : Memory) : Except Error Memory := do
  unwrapParsed baseSecretOk
  pure m

/-- `derive_private_revocation_key(per_commitment_secret, revocation_base_secret)`: the two
secrets unwrapped in order; no struct is read or made. -/
def derivePrivateRevocationKey (perCommitmentSecretOk revocationBaseSecretOk : Bool)
    (m : Memory) : Except Error Memory := do
  unwrapParsed perCommitmentSecretOk
  unwrapParsed revocationBaseSecretOk
  pure m

/-- `Clone for <T>`: a copy of `&*self.inner` in a fresh owned allocation. -/
def clone (k : Kind) (i : Nat) (m : Memory) : Except Error Memory := do
  let w ← m.borrow k i
  let _ ← m.deref w.inner
  pure (newOwned k m)

/-- `PreCalculatedTxCreationKeys_new(keys)`: `*Box::from_raw(keys.take_ptr())` moved into a
fresh native. -/
def preCalculatedTxCreationKeysNew (keys : Nat) (m : Memory) : Except Error Memory := do
  let (w, m) ← m.take .txCreationKeys keys
  let p ← takePtr w
  let m ← m.moveOut p
  pure (newOwned .preCalculatedTxCreationKeys m)

/-- `trust_key_derivation(this_arg)`: a `TxCreationKeys` struct, not owned, pointing at the
keys inside the native of `this_arg`. -/
def trustKeyDerivation (k : Kind) (i : Nat) (m : Memory) : Except Error Memory := do
  let w ← m.borrow k i
  let _ ← m.deref w.inner
  pure (m.give ⟨.txCreationKeys, w.inner.keys, false⟩)

/-- `PreCalculatedTxCreationKeys_trust_key_derivation`. -/
def preCalculatedTxCreationKeysTrustKeyDerivation (i : Nat) (m : Memory) :
    Except Error Memory :=
  trustKeyDerivation .preCalculatedTxCreationKeys i m

/-- `LocalCommitmentTransaction_trust_key_derivation`. -/
def localCommitmentTransactionTrustKeyDerivation (i : Nat) (m : Memory) :
    Except Error Memory :=
  trustKeyDerivation .localCommitmentTransaction i m

/-- `LocalCommitmentTransaction_new_missing_local_sig(unsigned_tx, .., local_keys, ..,
htlc_data)`: the HTLCs moved out one by one, then the arguments in order, the transaction
`deserialize(unsigned_tx).unwrap()` first and the keys moved out later, into a fresh native. -/
def localCommitmentTransactionNewMissingLocalSig (unsignedTxOk : Bool) (localKeys : Nat)
    (htlcData : List Nat) (m : Memory) : Except Error Memory := do
  let (keys, m) ← m.take .txCreationKeys localKeys
  let (htlcs, m) ← m.takeAll .htlcOutputInCommitment htlcData
  let m ← m.moveHtlcs htlcs
  unwrapParsed unsignedTxOk
  let p ← takePtr keys
  let m ← m.moveOut p
  pure (newOwned .localCommitmentTransaction m)

/-- `LocalCommitmentTransaction_set_per_htlc(this_ptr, val)`: the HTLCs moved out one by one,
then stored through `&mut *this_ptr.inner`. -/
def localCommitmentTransactionSetPerHtlc (i : Nat) (val : List Nat) (m : Memory) :
    Except Error Memory := do
  let w ← m.borrow .localCommitmentTransaction i
  let (htlcs, m) ← m.takeAll .htlcOutputInCommitment val
  let m ← m.moveHtlcs htlcs
  let _ ← m.deref w.inner
  pure m

/-- A call the C caller makes, naming its variables by index. -/
inductive Call where
  | txCreationKeysNew
  | channelPublicKeysNew
  | txCreationKeysDeriveNew (ok : Bool)
  | read (k : Kind) (ok : Bool)
  | free (k : Kind) (i : Nat)
  | access (k : Kind) (i : Nat)
  | clone (k : Kind) (i : Nat)
  | preCalculatedTxCreationKeysNew (keys : Nat)
  | trustKeyDerivation (k : Kind) (i : Nat)
  | localCommitmentTransactionNewMissingLocalSig (unsignedTxOk : Bool) (localKeys : Nat)
      (htlcData : List Nat)
  | localCommitmentTransactionSetPerHtlc (i : Nat) (val : List Nat)
  | localCommitmentTransactionSetUnsignedTx (i : Nat) (valOk : Bool)
  | localCommitmentTransactionGetLocalSig (i : Nat) (fundingKeyOk : Bool)
  | localCommitmentTransactionGetHtlcSigs (i : Nat) (htlcBaseKeyOk : Bool)
  | derivePrivateKey (baseSecretOk : Bool)
  | derivePrivateRevocationKey (perCommitmentSecretOk revocationBaseSecretOk : Bool)
deriving DecidableEq, Repr

/-- One call. `PreCalculatedTxCreationKeys` has no `_read` and no `Clone`, and only it and
`LocalCommitmentTransaction` have `trust_key_derivation`: naming one that does not exist is
the caller's error. -/
def Call.apply : Call → Memory → Except Error Memory
  | .txCreationKeysNew, m => .ok (Bindings.txCreationKeysNew m)
  | .channelPublicKeysNew, m => .ok (Bindings.channelPublicKeysNew m)
  | .txCreationKeysDeriveNew ok, m => .ok (Bindings.txCreationKeysDeriveNew ok m)
  | .read k ok, m =>
      if k = .preCalculatedTxCreationKeys then .error .misuse else .ok (Bindings.read k ok m)
  | .free k i, m => Bindings.free k i m
  | .access k i, m => Bindings.access k i m
  | .clone k i, m =>
      if k = .preCalculatedTxCreationKeys then .error .misuse else Bindings.clone k i m
  | .preCalculatedTxCreationKeysNew keys, m => Bindings.preCalculatedTxCreationKeysNew keys m
  | .trustKeyDerivation k i, m =>
      match k with
      | .preCalculatedTxCreationKeys => preCalculatedTxCreationKeysTrustKeyDerivation i m
      | .localCommitmentTransaction => localCommitmentTransactionTrustKeyDerivation i m
      | _ => .error .misuse
  | .localCommitmentTransactionNewMissingLocalSig unsignedTxOk localKeys htlcData, m =>
      Bindings.localCommitmentTransactionNewMissingLocalSig unsignedTxOk localKeys htlcData m
  | .localCommitmentTransactionSetPerHtlc i val, m =>
      Bindings.localCommitmentTransactionSetPerHtlc i val m
  | .localCommitmentTransactionSetUnsignedTx i valOk, m =>
      Bindings.localCommitmentTransactionSetUnsignedTx i valOk m
  | .localCommitmentTransactionGetLocalSig i fundingKeyOk, m =>
      Bindings.localCommitmentTransactionGetLocalSig i fundingKeyOk m
  | .localCommitmentTransactionGetHtlcSigs i htlcBaseKeyOk, m =>
      Bindings.localCommitmentTransactionGetHtlcSigs i htlcBaseKeyOk m
  | .derivePrivateKey baseSecretOk, m => Bindings.derivePrivateKey baseSecretOk m
  | .derivePrivateRevocationKey perCommitmentSecretOk revocationBaseSecretOk, m =>
      Bindings.derivePrivateRevocationKey perCommitmentSecretOk revocationBaseSecretOk m

/-- A C program: its calls in order, stopping at the first error. -/
def run : Memory → List Call → Except Error Memory
  | m, [] => .ok m
  | m, c :: cs => do
      let m ← c.apply m
      run m cs

/-! ## The ownership invariant -/

/-- Allocation `a` holds a live native. -/
def LiveIn (heap : List (Option Kind)) (a : Nat) : Prop := ∃ k, heap[a]? = some (some k)

/-- The structs `ws` own the live allocations of `heap`: each allocation a struct points to
is live and the struct owns it, no two structs point to one allocation, every live allocation
has such a struct, and a struct pointing inside a native is not owned. -/
structure Owns (heap : List (Option Kind)) (ws : List Wrapper) : Prop where
  live : ∀ w ∈ ws, ∀ a, w.inner = .box a → w.isOwned = true ∧ LiveIn heap a
  unique : (ws.filterMap fun w => w.inner.boxAddr).Nodup
  noLeak : ∀ a, LiveIn heap a → ∃ w ∈ ws, w.inner = .box a
  views : ∀ w ∈ ws, ∀ a, w.inner = .keysIn a → w.isOwned = false

/-- `Owns` of the structs the caller holds and the structs `ws` a call under way holds. -/
def Holds (m : Memory) (ws : List Wrapper) : Prop := Owns m.heap (m.held ++ ws)

theorem LiveIn.lt_length {heap : List (Option Kind)} {a : Nat} (h : LiveIn heap a) :
    a < heap.length := by
  obtain ⟨k, hk⟩ := h
  exact (List.getElem?_eq_some_iff.1 hk).1

namespace Owns

variable {heap : List (Option Kind)} {ws ws' : List Wrapper}

theorem perm (h : Owns heap ws) (hp : ws.Perm ws') : Owns heap ws' where
  live w hw := h.live w (hp.mem_iff.2 hw)
  unique := (hp.filterMap _).nodup_iff.1 h.unique
  noLeak a ha := by
    obtain ⟨w, hw, hbox⟩ := h.noLeak a ha
    exact ⟨w, hp.mem_iff.1 hw, hbox⟩
  views w hw := h.views w (hp.mem_iff.2 hw)

/-- A fresh allocation, owned by a new struct. -/
theorem alloc (h : Owns heap ws) (k : Kind) :
    Owns (heap ++ [some k]) (⟨k, .box heap.length, true⟩ :: ws) := by
  have hold : ∀ {a}, LiveIn heap a → LiveIn (heap ++ [some k]) a := fun ha => by
    have hlt := ha.lt_length
    obtain ⟨k', hk'⟩ := ha
    exact ⟨k', by rw [List.getElem?_append_left hlt, hk']⟩
  refine ⟨?_, ?_, ?_, ?_⟩
  · intro w hw a ha
    rcases List.mem_cons.1 hw with rfl | hw
    · cases ha
      exact ⟨rfl, k, by simp⟩
    · exact (h.live w hw a ha).imp_right hold
  · refine List.nodup_cons.2 ⟨fun hmem => ?_, h.unique⟩
    obtain ⟨w, hw, hbox⟩ := List.mem_filterMap.1 hmem
    cases hinner : w.inner <;> simp only [hinner, Ptr.boxAddr, reduceCtorEq,
      Option.some.injEq] at hbox
    exact Nat.lt_irrefl _ (hbox ▸ (h.live w hw _ hinner).2.lt_length)
  · intro a ⟨k', hk'⟩
    rcases Nat.lt_or_ge a heap.length with hlt | hge
    · rw [List.getElem?_append_left hlt] at hk'
      obtain ⟨w, hw, hbox⟩ := h.noLeak a ⟨k', hk'⟩
      exact ⟨w, List.mem_cons_of_mem _ hw, hbox⟩
    · have : a = heap.length := by
        have := (List.getElem?_eq_some_iff.1 hk').1
        simp at this
        omega
      exact ⟨_, List.mem_cons_self _ _, by rw [this]⟩
  · intro w hw a ha
    rcases List.mem_cons.1 hw with rfl | hw
    · cases ha
    · exact h.views w hw a ha

/-- A struct that owns no allocation. -/
theorem cons_unowned (h : Owns heap ws) {w : Wrapper} (hbox : w.inner.boxAddr = none)
    (hview : ∀ a, w.inner = .keysIn a → w.isOwned = false) : Owns heap (w :: ws) := by
  refine ⟨?_, ?_, fun a ha => ?_, ?_⟩
  · intro w' hw' a ha
    rcases List.mem_cons.1 hw' with rfl | hw'
    · rw [ha] at hbox
      cases hbox
    · exact h.live w' hw' a ha
  · simpa [List.filterMap_cons, hbox] using h.unique
  · obtain ⟨w', hw', hb⟩ := h.noLeak a ha
    exact ⟨w', List.mem_cons_of_mem _ hw', hb⟩
  · intro w' hw'
    rcases List.mem_cons.1 hw' with rfl | hw'
    · exact hview
    · exact h.views w' hw'

/-- Dropping a struct that owns no allocation. -/
theorem of_cons_unowned {w : Wrapper} (h : Owns heap (w :: ws))
    (hbox : w.inner.boxAddr = none) : Owns heap ws := by
  refine ⟨fun w' hw' => h.live w' (List.mem_cons_of_mem _ hw'), ?_, fun a ha => ?_,
    fun w' hw' => h.views w' (List.mem_cons_of_mem _ hw')⟩
  · simpa [List.filterMap_cons, hbox] using h.unique
  · obtain ⟨w', hw', hb⟩ := h.noLeak a ha
    rcases List.mem_cons.1 hw' with rfl | hw'
    · rw [hb] at hbox
      cases hbox
    · exact ⟨w', hw', hb⟩

/-- Freeing the allocation a struct owns, the struct gone. -/
theorem free {w : Wrapper} {a : Nat} (h : Owns heap (w :: ws)) (hw : w.inner = .box a) :
    Owns (heap.set a none) ws := by
  have hnd := h.unique
  simp only [List.filterMap_cons, hw, Ptr.boxAddr, List.nodup_cons] at hnd
  have hne : ∀ w' ∈ ws, ∀ b, w'.inner = .box b → b ≠ a := fun w' hw' b hb hba =>
    hnd.1 (List.mem_filterMap.2 ⟨w', hw', by rw [hb, hba]⟩)
  refine ⟨fun w' hw' b hb => ?_, hnd.2, fun b ⟨k, hk⟩ => ?_,
    fun w' hw' => h.views w' (List.mem_cons_of_mem _ hw')⟩
  · obtain ⟨hown, k, hk⟩ := h.live w' (List.mem_cons_of_mem _ hw') b hb
    exact ⟨hown, k, by rw [List.getElem?_set_ne (hne w' hw' b hb).symm, hk]⟩
  · have hba : b ≠ a := by
      rintro rfl
      simp [List.getElem?_set] at hk
    rw [List.getElem?_set_ne hba.symm] at hk
    obtain ⟨w', hw', hb⟩ := h.noLeak b ⟨k, hk⟩
    rcases List.mem_cons.1 hw' with rfl | hw'
    · rw [hw] at hb
      cases hb
      exact absurd rfl hba
    · exact ⟨w', hw', hb⟩

end Owns

/-- An error the caller causes: naming a variable it gave up or one of another C type, using a
view after its owner was freed, using a struct whose `_read` failed, passing a view by value,
or passing bytes that do not parse as the transaction or secret key the binding unwraps. -/
def Error.CallerCaused : Error → Prop
  | .misuse => True
  | .fault (.useAfterFree (.keysIn _)) => True
  | .fault .nullDeref => True
  | .fault .notOwned => True
  | .fault .unwrapFailed => True
  | _ => False

/-- A result that is `ok` with `P`, or an error the caller causes. -/
def Sat {α : Type} (P : α → Prop) : Except Error α → Prop
  | .ok a => P a
  | .error e => e.CallerCaused

theorem Sat.bind {α β : Type} {P : α → Prop} {Q : β → Prop} {x : Except Error α}
    {f : α → Except Error β} (hx : Sat P x) (hf : ∀ a, P a → Sat Q (f a)) :
    Sat Q (x >>= f) := by
  cases x with
  | error e => exact hx
  | ok a => exact hf a hx

theorem Sat.imp {α : Type} {P Q : α → Prop} {x : Except Error α} (hx : Sat P x)
    (hPQ : ∀ a, P a → Q a) : Sat Q x := by
  cases x with
  | error e => exact hx
  | ok a => exact hPQ a hx

theorem sat_unwrapParsed (ok : Bool) : Sat (fun _ => True) (unwrapParsed ok) := by
  unfold unwrapParsed
  split <;> trivial

theorem sat_takePtr (w : Wrapper) : Sat (fun p => w.isOwned = true ∧ p = w.inner) (takePtr w) := by
  unfold takePtr
  split
  · exact ⟨‹_›, rfl⟩
  · trivial

namespace Memory

theorem held_give (m : Memory) (w : Wrapper) : (m.give w).held = m.held ++ [w] := by
  simp [give, held]

/-- Setting variable `i` of the caller to `none` takes its struct out of `held`. -/
theorem perm_held_set {vars : List (Option Wrapper)} {i : Nat} {w : Wrapper}
    (hi : vars[i]? = some (some w)) :
    (vars.filterMap id).Perm (w :: (vars.set i none).filterMap id) := by
  induction vars generalizing i with
  | nil => cases hi
  | cons v vars ih =>
    cases i with
    | zero =>
      simp only [List.getElem?_cons_zero, Option.some.injEq] at hi
      subst hi
      simp
    | succ i =>
      have ih := ih (i := i) (by simpa using hi)
      cases v with
      | none => simpa using ih
      | some x => exact (ih.cons x).trans (List.Perm.swap w x _)

end Memory

open Memory

variable {m : Memory} {ws : List Wrapper}

theorem Holds.give {w : Wrapper} (h : Holds m (w :: ws)) : Holds (m.give w) ws := by
  unfold Holds at *
  rwa [held_give, List.append_assoc, List.singleton_append]

theorem Holds.newOwned (h : Holds m ws) (k : Kind) : Holds (Bindings.newOwned k m) ws :=
  Holds.give ((Owns.alloc h k).perm List.perm_middle.symm)

theorem Holds.give_unowned {w : Wrapper} (h : Holds m ws) (hbox : w.inner.boxAddr = none)
    (hview : ∀ a, w.inner = .keysIn a → w.isOwned = false) : Holds (m.give w) ws :=
  Holds.give ((Owns.cons_unowned h hbox hview).perm List.perm_middle.symm)

/-- What passing variable `i` by value does, when the caller may: its struct leaves the
variable. -/
theorem take_spec (m : Memory) (k : Kind) (i : Nat) :
    Sat (fun r : Wrapper × Memory => m.vars[i]? = some (some r.1) ∧ r.1.kind = k ∧
      r.2 = { m with vars := m.vars.set i none }) (m.take k i) := by
  unfold Memory.take
  split
  · rename_i w hi
    split
    · exact ⟨hi, ‹_›, rfl⟩
    · trivial
  · trivial

theorem Holds.take (h : Holds m ws) (k : Kind) (i : Nat) :
    Sat (fun r : Wrapper × Memory => Holds r.2 (r.1 :: ws) ∧ r.1.kind = k ∧
      m.held.Perm (r.1 :: r.2.held)) (m.take k i) :=
  (take_spec m k i).imp fun ⟨w, m'⟩ ⟨hi, hk, hr⟩ => by
    subst hr
    exact ⟨h.perm ((List.Perm.append_right ws (perm_held_set hi)).trans List.perm_middle.symm),
      hk, perm_held_set hi⟩

theorem Holds.takeAll (h : Holds m ws) (k : Kind) (is : List Nat) :
    Sat (fun r : List Wrapper × Memory => Holds r.2 (r.1 ++ ws) ∧ (∀ w ∈ r.1, w.kind = k) ∧
      m.held.Perm (r.1 ++ r.2.held)) (m.takeAll k is) := by
  induction is generalizing m ws with
  | nil => exact ⟨h, by simp, List.Perm.refl _⟩
  | cons i is ih =>
    refine (h.take k i).bind fun r1 ⟨h1, hk1, hp1⟩ => (ih h1).bind fun r2 ⟨h2, hk2, hp2⟩ => ?_
    refine ⟨h2.perm (List.perm_middle.append_left _), ?_, hp1.trans (hp2.cons _)⟩
    rintro w (_ | ⟨_, hw⟩)
    · exact hk1
    · exact hk2 w hw

theorem mem_held_of_borrow (m : Memory) (k : Kind) (i : Nat) :
    Sat (fun w => w ∈ m.held ∧ w.kind = k) (m.borrow k i) := by
  unfold borrow
  split
  · rename_i w hi
    split
    · exact ⟨List.mem_filterMap.2 ⟨some w, List.getElem?_mem hi, rfl⟩, ‹_›⟩
    · trivial
  · trivial

/-- Reading through a struct of the caller's or of a call under way faults only through a
view or a null pointer. -/
theorem Holds.deref {w : Wrapper} (h : Holds m ws) (hw : w ∈ m.held ++ ws) :
    Sat (fun _ => True) (m.deref w.inner) := by
  cases hinner : w.inner with
  | null => trivial
  | box a =>
    obtain ⟨k, hk⟩ := (h.live w hw a hinner).2
    simp [Memory.deref, hk, Sat]
  | keysIn a =>
    rcases hk : m.heap[a]? with _ | _ | k <;> simp [Memory.deref, hk, Sat, Error.CallerCaused]

/-- `Drop` of a struct a call holds never faults, and keeps the invariant without it. -/
theorem Holds.dropWrapper {w : Wrapper} (h : Holds m (w :: ws)) :
    ∃ m', m.dropWrapper w = .ok m' ∧ m'.vars = m.vars ∧ Holds m' ws := by
  have h' : Owns m.heap (w :: (m.held ++ ws)) := h.perm List.perm_middle
  have hw : w ∈ m.held ++ w :: ws := List.mem_append_right _ (List.mem_cons_self _ _)
  unfold Memory.dropWrapper
  split <;> rename_i hcond
  · cases hinner : w.inner with
    | null => simp [hinner] at hcond
    | box a =>
      obtain ⟨k, hk⟩ := (h.live w hw a hinner).2
      exact ⟨{ m with heap := m.heap.set a none }, by simp [boxFromRaw, hk], rfl, h'.free hinner⟩
    | keysIn a =>
      simp [h.views w hw a hinner] at hcond
  · refine ⟨m, rfl, rfl, h'.of_cons_unowned ?_⟩
    cases hinner : w.inner with
    | box a => simp [hinner, (h.live w hw a hinner).1] at hcond
    | null | keysIn _ => rfl

/-- Moving the native out of an owned struct a call holds faults only at a null pointer. -/
theorem Holds.moveOut {w : Wrapper} (h : Holds m (w :: ws)) (hown : w.isOwned = true) :
    Sat (fun m' => Holds m' ws ∧ m'.vars = m.vars) (m.moveOut w.inner) := by
  have hw : w ∈ m.held ++ w :: ws := List.mem_append_right _ (List.mem_cons_self _ _)
  cases hinner : w.inner with
  | null => trivial
  | box a =>
    obtain ⟨k, hk⟩ := (h.live w hw a hinner).2
    have hd : m.deref (.box a) = .ok k := by simp [Memory.deref, hk]
    have hb : m.boxFromRaw (.box a) = .ok { m with heap := m.heap.set a none } := by
      simp [boxFromRaw, hk]
    rw [Memory.moveOut, hd]
    show Sat _ (m.boxFromRaw (.box a))
    rw [hb]
    exact ⟨(h.perm List.perm_middle).free hinner, rfl⟩
  | keysIn a => simp [h.views w hw a hinner] at hown

theorem Holds.moveHtlcs {hs : List Wrapper} (h : Holds m (hs ++ ws)) :
    Sat (fun m' => Holds m' ws ∧ m'.vars = m.vars) (m.moveHtlcs hs) := by
  induction hs generalizing m with
  | nil => exact ⟨h, rfl⟩
  | cons w hs ih =>
    refine (sat_takePtr w).bind fun p ⟨hown, hp⟩ => hp ▸ (h.moveOut hown).bind
      fun _ ⟨h1, hv1⟩ => (ih h1).imp fun _ ⟨h2, hv2⟩ => ⟨h2, hv2.trans hv1⟩

/-! ## Every call keeps the invariant -/

theorem boxAddr_keys (p : Ptr) : p.keys.boxAddr = none := by
  cases p <;> rfl

theorem holds_empty : Holds Memory.empty [] :=
  ⟨by simp [Memory.empty, held], by simp [Memory.empty, held],
    fun _ ⟨_, hk⟩ => by simp [Memory.empty] at hk, by simp [Memory.empty, held]⟩

theorem Holds.read (h : Holds m []) (k : Kind) (ok : Bool) : Holds (Bindings.read k ok m) [] := by
  unfold Bindings.read
  split
  · exact h.newOwned k
  · exact h.give_unowned rfl fun _ h => by cases h

theorem Holds.free (h : Holds m []) (k : Kind) (i : Nat) :
    Sat (fun m' => Holds m' []) (Bindings.free k i m) :=
  (h.take k i).bind fun ⟨w, m1⟩ ⟨h1, _, _⟩ => by
    obtain ⟨m2, hd, -, h2⟩ := h1.dropWrapper
    show Sat _ (m1.dropWrapper w)
    rw [hd]
    exact h2

theorem Holds.access (h : Holds m []) (k : Kind) (i : Nat) :
    Sat (fun m' => Holds m' []) (Bindings.access k i m) :=
  (mem_held_of_borrow m k i).bind fun _ ⟨hw, _⟩ =>
    (h.deref (List.mem_append_left _ hw)).bind fun _ _ => h

theorem Holds.accessThenUnwrap (h : Holds m []) (k : Kind) (i : Nat) (keyOk : Bool) :
    Sat (fun m' => Holds m' []) (Bindings.accessThenUnwrap k i keyOk m) :=
  (h.access k i).bind fun _ h' => (sat_unwrapParsed keyOk).bind fun _ _ => h'

theorem Holds.localCommitmentTransactionSetUnsignedTx (h : Holds m []) (i : Nat) (valOk : Bool) :
    Sat (fun m' => Holds m' []) (Bindings.localCommitmentTransactionSetUnsignedTx i valOk m) :=
  (mem_held_of_borrow m _ i).bind fun _ ⟨hw, _⟩ => (sat_unwrapParsed valOk).bind fun _ _ =>
    (h.deref (List.mem_append_left _ hw)).bind fun _ _ => h

theorem Holds.clone (h : Holds m []) (k : Kind) (i : Nat) :
    Sat (fun m' => Holds m' []) (Bindings.clone k i m) :=
  (mem_held_of_borrow m k i).bind fun _ ⟨hw, _⟩ =>
    (h.deref (List.mem_append_left _ hw)).bind fun _ _ => h.newOwned k

theorem Holds.preCalculatedTxCreationKeysNew (h : Holds m []) (keys : Nat) :
    Sat (fun m' => Holds m' []) (Bindings.preCalculatedTxCreationKeysNew keys m) :=
  (h.take _ keys).bind fun ⟨w, _⟩ ⟨h1, _, _⟩ => (sat_takePtr w).bind fun _ ⟨hown, hp⟩ =>
    hp ▸ (h1.moveOut hown).bind fun _ ⟨h2, _⟩ => h2.newOwned _

theorem Holds.trustKeyDerivation (h : Holds m []) (k : Kind) (i : Nat) :
    Sat (fun m' => Holds m' []) (Bindings.trustKeyDerivation k i m) :=
  (mem_held_of_borrow m k i).bind fun _ ⟨hw, _⟩ =>
    (h.deref (List.mem_append_left _ hw)).bind fun _ _ =>
      h.give_unowned (boxAddr_keys _) fun _ _ => rfl

theorem Holds.localCommitmentTransactionNewMissingLocalSig (h : Holds m [])
    (unsignedTxOk : Bool) (localKeys : Nat) (htlcData : List Nat) :
    Sat (fun m' => Holds m' [])
      (Bindings.localCommitmentTransactionNewMissingLocalSig unsignedTxOk localKeys htlcData m) :=
  (h.take _ localKeys).bind fun ⟨keys, _⟩ ⟨h1, _, _⟩ =>
    (h1.takeAll _ htlcData).bind fun _ ⟨h2, _, _⟩ => h2.moveHtlcs.bind fun _ ⟨h3, _⟩ =>
      (sat_unwrapParsed unsignedTxOk).bind fun _ _ => (sat_takePtr keys).bind fun _ ⟨hown, hp⟩ =>
        hp ▸ (h3.moveOut hown).bind fun _ ⟨h4, _⟩ => h4.newOwned _

/-- `set_per_htlc` moves out structs of another C type than the one it writes through, so that
one is still the caller's when it is written. -/
theorem Holds.localCommitmentTransactionSetPerHtlc (h : Holds m []) (i : Nat) (val : List Nat) :
    Sat (fun m' => Holds m' []) (Bindings.localCommitmentTransactionSetPerHtlc i val m) :=
  (mem_held_of_borrow m _ i).bind fun w ⟨hw, hkw⟩ =>
    (h.takeAll _ val).bind fun ⟨hs, m2⟩ ⟨h2, hks, hperm⟩ => h2.moveHtlcs.bind fun m3 ⟨h3, hv3⟩ => by
      have hw2 : w ∈ m2.held := by
        rcases List.mem_append.1 (hperm.mem_iff.1 hw) with hin | hin
        · exact absurd (hks w hin) (by rw [hkw]; decide)
        · exact hin
      have hw3 : w ∈ m3.held := by
        rw [held, hv3]
        exact hw2
      exact (h3.deref (List.mem_append_left _ hw3)).bind fun _ _ => h3

/-- Every call keeps the invariant or fails by the caller's fault. -/
theorem Holds.apply (h : Holds m []) : ∀ c : Call, Sat (fun m' => Holds m' []) (c.apply m)
  | .txCreationKeysNew | .channelPublicKeysNew => h.newOwned _
  | .txCreationKeysDeriveNew ok => by
    cases ok
    · exact h
    · exact h.newOwned _
  | .read k ok => by
    simp only [Call.apply]
    split
    · trivial
    · exact h.read k ok
  | .clone k i => by
    simp only [Call.apply]
    split
    · trivial
    · exact h.clone k i
  | .free k i => h.free k i
  | .access k i => h.access k i
  | .preCalculatedTxCreationKeysNew keys => h.preCalculatedTxCreationKeysNew keys
  | .trustKeyDerivation k i => by
    cases k <;> first | trivial | exact h.trustKeyDerivation _ i
  | .localCommitmentTransactionNewMissingLocalSig unsignedTxOk localKeys htlcData =>
    h.localCommitmentTransactionNewMissingLocalSig unsignedTxOk localKeys htlcData
  | .localCommitmentTransactionSetPerHtlc i val => h.localCommitmentTransactionSetPerHtlc i val
  | .localCommitmentTransactionSetUnsignedTx i valOk =>
    h.localCommitmentTransactionSetUnsignedTx i valOk
  | .localCommitmentTransactionGetLocalSig i fundingKeyOk => h.accessThenUnwrap _ i fundingKeyOk
  | .localCommitmentTransactionGetHtlcSigs i htlcBaseKeyOk => h.accessThenUnwrap _ i htlcBaseKeyOk
  | .derivePrivateKey baseSecretOk => (sat_unwrapParsed baseSecretOk).bind fun _ _ => h
  | .derivePrivateRevocationKey perCommitmentSecretOk revocationBaseSecretOk =>
    (sat_unwrapParsed perCommitmentSecretOk).bind fun _ _ =>
      (sat_unwrapParsed revocationBaseSecretOk).bind fun _ _ => h

theorem Holds.run (h : Holds m []) (calls : List Call) :
    Sat (fun m' => Holds m' []) (Bindings.run m calls) := by
  induction calls generalizing m with
  | nil => exact h
  | cons c cs ih => exact (h.apply c).bind fun _ h' => ih h'

theorem take_of_held {m : Memory} {k : Kind} {i : Nat} {w : Wrapper}
    (hi : m.vars[i]? = some (some w)) (hk : w.kind = k) :
    m.take k i = .ok (w, { m with vars := m.vars.set i none }) := by
  simp [Memory.take, hi, hk]

theorem held_eq_nil {m : Memory} (h : ∀ i : Nat, (m.vars[i]?.join).isSome = false) :
    m.held = [] := by
  refine List.filterMap_eq_nil_iff.2 fun v hv => ?_
  obtain ⟨i, hi, rfl⟩ := List.getElem_of_mem hv
  simpa [List.getElem?_eq_getElem hi] using h i

/-- `_free` of every variable the caller holds, each once and in any order, from a memory
that keeps the invariant. -/
theorem Holds.run_frees (frees : List (Kind × Nat)) (h : Holds m [])
    (hnd : (frees.map Prod.snd).Nodup)
    (hkind : ∀ p ∈ frees, (m.vars[p.2]?.join).map Wrapper.kind = some p.1)
    (hall : ∀ i, (m.vars[i]?.join).isSome → i ∈ frees.map Prod.snd) :
    ∃ m', Bindings.run m (frees.map fun p => .free p.1 p.2) = .ok m' ∧
      ∀ a, ¬ LiveIn m'.heap a := by
  induction frees generalizing m with
  | nil =>
    refine ⟨m, rfl, fun a ha => ?_⟩
    obtain ⟨w, hw, -⟩ := h.noLeak a ha
    rw [held_eq_nil fun i => by simpa using hall i] at hw
    cases hw
  | cons p frees ih =>
    obtain ⟨k, i⟩ := p
    obtain ⟨hi, hnd⟩ := List.nodup_cons.1 hnd
    obtain ⟨w, hw, hk⟩ : ∃ w, m.vars[i]? = some (some w) ∧ w.kind = k := by
      have := hkind (k, i) (List.mem_cons_self _ _)
      rcases hv : m.vars[i]? with _ | _ | w
      · simp [hv] at this
      · simp [hv] at this
      · exact ⟨w, rfl, by simpa [hv] using this⟩
    have h1 := (h.take k i).imp fun r hr => hr.1
    rw [take_of_held hw hk] at h1
    obtain ⟨m2, hd, hv2, h2⟩ := Holds.dropWrapper h1
    have hvars : ∀ j, j ≠ i → m2.vars[j]? = m.vars[j]? := fun j hj => by
      rw [hv2, List.getElem?_set_ne hj.symm]
    obtain ⟨m', hrun, hfree⟩ := ih h2 hnd
      (fun q hq => by
        rw [hvars q.2 fun hq' => hi (by simpa [← hq'] using List.mem_map_of_mem Prod.snd hq)]
        exact hkind q (List.mem_cons_of_mem _ hq))
      (fun j hj => by
        have hji : j ≠ i := by
          rintro rfl
          simp [hv2, List.getElem?_set, (List.getElem?_eq_some_iff.1 hw).1] at hj
        rw [hvars j hji] at hj
        simpa [hji] using hall j hj)
    have hstep : (Call.free k i).apply m = .ok m2 := by
      show Bindings.free k i m = _
      rw [Bindings.free, take_of_held hw hk]
      exact hd
    refine ⟨m', ?_, hfree⟩
    show ((Call.free k i).apply m >>= fun m => Bindings.run m _) = _
    rw [hstep]
    exact hrun

/-- After any sequence of calls from an empty heap, `_free` of every variable the caller
still holds, each once and in any order, succeeds and leaves no live allocation: the
bindings leak nothing the caller can free. -/
theorem free_all_releases_heap {calls : List Call} {m : Memory}
    (hrun : run Memory.empty calls = .ok m) (frees : List (Kind × Nat))
    (hperm : (frees.map Prod.snd).Perm m.heldIndices)
    (hkind : ∀ p ∈ frees, (m.vars[p.2]?.join).map Wrapper.kind = some p.1) :
    ∃ m', run m (frees.map fun p => .free p.1 p.2) = .ok m' ∧ ∀ a, ¬ LiveIn m'.heap a := by
  have h := holds_empty.run calls
  rw [hrun] at h
  refine h.run_frees frees (hperm.nodup_iff.2 ((List.nodup_range _).filter _)) hkind
    fun i hi => hperm.mem_iff.2 (List.mem_filter.2 ⟨List.mem_range.2 ?_, hi⟩)
  rcases hv : m.vars[i]? with _ | v
  · simp [hv] at hi
  · exact (List.getElem?_eq_some_iff.1 hv).1

theorem free_all_releases_heap_sample :
    run Memory.empty [.txCreationKeysNew, .preCalculatedTxCreationKeysNew 0,
        .trustKeyDerivation .preCalculatedTxCreationKeys 1,
        .read .htlcOutputInCommitment false] =
      .ok ⟨[none, some .preCalculatedTxCreationKeys], [none,
        some ⟨.preCalculatedTxCreationKeys, .box 1, true⟩,
        some ⟨.txCreationKeys, .keysIn 1, false⟩,
        some ⟨.htlcOutputInCommitment, .null, true⟩]⟩ ∧
    ∃ m', run ⟨[none, some .preCalculatedTxCreationKeys], [none,
        some ⟨.preCalculatedTxCreationKeys, .box 1, true⟩,
        some ⟨.txCreationKeys, .keysIn 1, false⟩,
        some ⟨.htlcOutputInCommitment, .null, true⟩]⟩
      ([(.txCreationKeys, 2), (.preCalculatedTxCreationKeys, 1), (.htlcOutputInCommitment, 3)].map
        fun p => .free p.1 p.2) = .ok m' ∧ ∀ a, ¬ LiveIn m'.heap a :=
  have hrun : run Memory.empty [.txCreationKeysNew, .preCalculatedTxCreationKeysNew 0,
        .trustKeyDerivation .preCalculatedTxCreationKeys 1,
        .read .htlcOutputInCommitment false] =
      .ok ⟨[none, some .preCalculatedTxCreationKeys], [none,
        some ⟨.preCalculatedTxCreationKeys, .box 1, true⟩,
        some ⟨.txCreationKeys, .keysIn 1, false⟩,
        some ⟨.htlcOutputInCommitment, .null, true⟩]⟩ := rfl
  ⟨hrun, free_all_releases_heap hrun
    [(.txCreationKeys, 2), (.preCalculatedTxCreationKeys, 1), (.htlcOutputInCommitment, 3)]
    (by decide) (by decide)⟩

/-- A view used after its owner is freed. -/
example : run Memory.empty [.txCreationKeysNew, .preCalculatedTxCreationKeysNew 0,
    .trustKeyDerivation .preCalculatedTxCreationKeys 1, .free .preCalculatedTxCreationKeys 1,
    .access .txCreationKeys 2] = .error (.fault (.useAfterFree (.keysIn 1))) := rfl

/-- A struct whose `_read` failed, used. -/
example : run Memory.empty [.read .txCreationKeys false, .access .txCreationKeys 0] =
    .error (.fault .nullDeref) := rfl

/-- Bytes that do not deserialize as a transaction, passed to `set_unsigned_tx`. -/
example : run Memory.empty [.read .localCommitmentTransaction true,
    .localCommitmentTransactionSetUnsignedTx 0 false] = .error (.fault .unwrapFailed) := rfl

/-- A view passed by value to `PreCalculatedTxCreationKeys_new`. -/
example : run Memory.empty [.txCreationKeysNew, .preCalculatedTxCreationKeysNew 0,
    .trustKeyDerivation .preCalculatedTxCreationKeys 1, .preCalculatedTxCreationKeysNew 2] =
    .error (.fault .notOwned) := rfl

end Lightning.Bindings
