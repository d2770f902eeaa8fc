import Lightning.Util.Bytes

/-!
# Feature flags

`ln/features.rs`. A feature bitfield is a little-endian vector of flag bytes, tagged by the
message context it appears in; `Features.bit f i` is feature bit `i`, a byte past the end
counting as zero. Each operation is stated bit by bit: `InitFeatures.bit_or` says `or` is
bitwise union, `NodeFeatures.bit_withKnownRelevantInitFlags` that the projection keeps exactly
the node-relevant known bits, and `supportsUnknownBits_iff` and `requiresUnknownBits_iff`
that the two hand-written mask scanners agree with one set of known bits, `knownBits`.
`ours_has_no_unknown_bits` says every bitfield the node builds itself stays within them.

The test builds' helpers come last. `clear_after_set_require_unknown_bits`: setting bit 14
adds exactly that bit and clearing it removes exactly that bit, so clearing after setting gives
back every bit, but not always the same vector: empty flags, or two bytes with a zero second
byte, come back as their first byte alone.
`unset_upfront_shutdown_script_flips`: the "unset" helper flips its bit.
-/

namespace Lightning.Ln

/-- The message a feature bitfield appears in: `sealed::InitContext`, `sealed::NodeContext` or
`sealed::ChannelContext`. -/
inductive Context where
  | init
  | node
  | channel
deriving DecidableEq, Repr

/-- `Features<T>`. The flags are little-endian: byte `k` holds feature bits `8k` to `8k + 7`.
Equality is `PartialEq`, equality of the flag vectors. -/
structure Features (T : Context) where
  flags : List UInt8
deriving DecidableEq, Repr

/-- A feature message as it appears in an init message. -/
abbrev InitFeatures := Features .init
/-- A feature message as it appears in a node_announcement message. -/
abbrev NodeFeatures := Features .node
/-- A feature message as it appears in a channel_announcement message. -/
abbrev ChannelFeatures := Features .channel

namespace Features

variable {T : Context}

/-- Feature bit `i`: bit `i % 8` of flag byte `i / 8`, a missing byte counting as zero. -/
def bit (f : Features T) (i : Nat) : Bool :=
  (f.flags.getD (i / 8) 0).toBitVec.getLsbD (i % 8)

/-- Create a blank Features with no features set. -/
def empty : Features T := ⟨[]⟩

/-- The scan `requires_unknown_bits` and `supports_unknown_bits` share:
`flags.iter().enumerate().any(|(idx, &byte)| select(idx, byte) != 0)`. -/
def anySelected (select : Nat → UInt8 → UInt8) (f : Features T) : Bool :=
  f.flags.enum.any fun entry => select entry.1 entry.2 != 0

/-- `requires_unknown_bits`: some even bit outside the known ones is set. -/
def requiresUnknownBits (f : Features T) : Bool :=
  f.anySelected fun idx byte =>
    match idx with
    | 0 => byte &&& 0b01000100
    | 1 => byte &&& 0b01010100
    | _ => byte &&& 0b01010101

/-- `supports_unknown_bits`: some bit outside the known ones is set. -/
def supportsUnknownBits (f : Features T) : Bool :=
  f.anySelected fun idx byte =>
    match idx with
    | 0 => byte &&& 0b11000100
    | 1 => byte &&& 0b11111100
    | _ => byte

/-- `byte_count`: the number of flag bytes, without the length prefix. -/
def byteCount (f : Features T) : Nat := f.flags.length

/-- The test the `supports_*` getters share: `flags.len() > idx && (flags[idx] & mask) != 0`. -/
def flagSet (idx : Nat) (mask : UInt8) (f : Features T) : Bool :=
  decide (f.flags.length > idx) && (f.flags.getD idx 0 &&& mask) != 0

/-- `supports_data_loss_protect` (init and node contexts). -/
def supportsDataLossProtect (f : Features T) : Bool := f.flagSet 0 3

/-- `supports_upfront_shutdown_script` (init and node contexts). -/
def supportsUpfrontShutdownScript (f : Features T) : Bool := f.flagSet 0 ((3 : UInt8) <<< 4)

/-- `supports_variable_length_onion` (init and node contexts). -/
def supportsVariableLengthOnion (f : Features T) : Bool := f.flagSet 1 3

end Features

/-- `initial_routing_sync`, defined for the init context only. -/
def InitFeatures.initialRoutingSync (f : InitFeatures) : Bool := f.flagSet 0 ((1 : UInt8) <<< 3)

/-- `set_initial_routing_sync`: a blank vector becomes the single byte `1 << 3`; otherwise bit
3 of byte 0 is set. -/
def InitFeatures.setInitialRoutingSync (f : InitFeatures) : InitFeatures :=
  if f.flags.length = 0 then ⟨vecResize f.flags 1 ((1 : UInt8) <<< 3)⟩
  else ⟨f.flags.set 0 (f.flags.getD 0 0 ||| (1 : UInt8) <<< 3)⟩

/-- `InitFeatures::supported`: `data_loss_protect`, `upfront_shutdown_script` and
`var_onion_optin`, all optional. -/
def InitFeatures.supported : InitFeatures :=
  ⟨[(2 : UInt8) ||| (1 : UInt8) <<< 5, (1 : UInt8) <<< (9 - 8)]⟩

/-- `NodeFeatures::supported`. -/
def NodeFeatures.supported : NodeFeatures :=
  ⟨[(2 : UInt8) ||| (1 : UInt8) <<< 5, (1 : UInt8) <<< (9 - 8)]⟩

/-- `ChannelFeatures::supported`: no channel feature is defined. -/
def ChannelFeatures.supported : ChannelFeatures := ⟨[]⟩

/-- The `zip` loop of `InitFeatures::or`: each byte of the second vector is OR-ed into the
byte of the first at the same index, and the loop stops at the shorter of the two. -/
def orZip : List UInt8 → List UInt8 → List UInt8
  | byte :: bytes, oByte :: oBytes => (byte ||| oByte) :: orZip bytes oBytes
  | bytes, _ => bytes

/-- `InitFeatures::or`: resize `self` to the longer length with zero bytes, then OR `o` in. -/
def InitFeatures.or (self o : InitFeatures) : InitFeatures :=
  let totalFeatureLen := max self.flags.length o.flags.length
  ⟨orZip (vecResize self.flags totalFeatureLen 0) o.flags⟩

/-- The loop of `NodeFeatures::with_known_relevant_init_flags` from byte index `i`: byte 0
keeps bits 0, 1, 4 and 5, byte 1 keeps bits 8 and 9, and later bytes are dropped. -/
def nodeRelevantFlags : Nat → List UInt8 → List UInt8
  | _, [] => []
  | i, featureByte :: rest =>
      (match i with
        | 0 => [featureByte &&& 0b00110011]
        | 1 => [featureByte &&& 0b00000011]
        | _ => []) ++ nodeRelevantFlags (i + 1) rest

/-- `NodeFeatures::with_known_relevant_init_flags`. -/
def NodeFeatures.withKnownRelevantInitFlags (initCtx : InitFeatures) : NodeFeatures :=
  ⟨nodeRelevantFlags 0 initCtx.flags⟩

/-- `ChannelFeatures::with_known_relevant_init_flags`: no channel flag is understood. -/
def ChannelFeatures.withKnownRelevantInitFlags (_initCtx : InitFeatures) : ChannelFeatures :=
  ⟨[]⟩

/-! ## Bits -/

namespace Features

variable {T : Context}

theorem bit_eq_false_of_length_le {f : Features T} {i : Nat} (h : f.flags.length ≤ i / 8) :
    f.bit i = false := by
  simp [bit, List.getD_eq_getElem?_getD, List.getElem?_eq_none h]

/-- Bit `i` is the bit of flag byte `i / 8` when that byte exists. -/
theorem bit_of_getElem? {f : Features T} {k j : Nat} {byte : UInt8} (hj : j < 8)
    (h : f.flags[k]? = some byte) : f.bit (8 * k + j) = byte.toBitVec.getLsbD j := by
  simp [bit, List.getD_eq_getElem?_getD, show (8 * k + j) / 8 = k by omega,
    show (8 * k + j) % 8 = j by omega, h]

/-- Two bitfields of one length with the same bits are equal. -/
theorem ext_bit {f g : Features T} (hlen : f.flags.length = g.flags.length)
    (h : ∀ i, f.bit i = g.bit i) : f = g := by
  cases f
  cases g
  congr
  refine bytes_ext_getD hlen fun k => UInt8.eq_of_bits fun j hj => ?_
  simpa [bit, show (8 * k + j) / 8 = k by omega, show (8 * k + j) % 8 = j by omega]
    using h (8 * k + j)

/-- A scan whose selector keeps, in byte `idx`, exactly the bits `8 * idx + j` satisfying `P`
finds a nonzero byte exactly when some bit satisfying `P` is set. -/
theorem anySelected_iff {select : Nat → UInt8 → UInt8} {P : Nat → Prop} [DecidablePred P]
    (hselect : ∀ idx byte j, j < 8 → (select idx byte).toBitVec.getLsbD j =
      (byte.toBitVec.getLsbD j && decide (P (8 * idx + j))))
    (f : Features T) : f.anySelected select = true ↔ ∃ i, P i ∧ f.bit i = true := by
  simp only [anySelected, List.any_eq_true, bne_iff_ne, ne_eq, Prod.exists,
    List.mem_enum_iff_getElem?]
  constructor
  · rintro ⟨idx, byte, hget, hne⟩
    obtain ⟨j, hj, hbit⟩ := UInt8.ne_zero_iff_bit.1 hne
    rw [hselect idx byte j hj, Bool.and_eq_true, decide_eq_true_eq] at hbit
    exact ⟨8 * idx + j, hbit.2, by rw [bit_of_getElem? hj hget, hbit.1]⟩
  · rintro ⟨i, hP, hbit⟩
    have hlt : i / 8 < f.flags.length := by
      by_contra hle
      rw [bit_eq_false_of_length_le (by omega)] at hbit
      exact Bool.false_ne_true hbit
    have hj : i % 8 < 8 := Nat.mod_lt _ (by omega)
    have hi : 8 * (i / 8) + i % 8 = i := Nat.div_add_mod i 8
    have hget := List.getElem?_eq_getElem hlt
    refine ⟨i / 8, _, hget, UInt8.ne_zero_iff_bit.2 ⟨i % 8, hj, ?_⟩⟩
    rw [hselect _ _ _ hj, hi, ← bit_of_getElem? hj hget, hi, hbit]
    simpa using hP

/-- The feature bits this implementation understands: `data_loss_protect` (0 and 1),
`initial_routing_sync` (3, only valid as optional), `upfront_shutdown_script` (4 and 5) and
`var_onion_optin` (8 and 9). -/
def knownBits : List Nat := [0, 1, 3, 4, 5, 8, 9]

theorem not_mem_knownBits {i : Nat} (h : 16 ≤ i) : i ∉ knownBits := by
  simp only [knownBits, List.mem_cons, List.mem_singleton, List.not_mem_nil, or_false]
  omega

/-- `requires_unknown_bits` holds exactly when an even bit outside `knownBits` is set. -/
theorem requiresUnknownBits_iff (f : Features T) :
    f.requiresUnknownBits = true ↔ ∃ i, (i % 2 = 0 ∧ i ∉ knownBits) ∧ f.bit i = true := by
  refine anySelected_iff (fun idx byte j hj => ?_) f
  rcases idx with _ | _ | idx <;>
    simp only [UInt8.toBitVec_land, BitVec.getLsbD_and] <;> congr 1 <;> revert j
  · decide
  · decide
  · intro j hj
    have hmask : ∀ j < 8, (0b01010101 : UInt8).toBitVec.getLsbD j = decide (j % 2 = 0) := by
      decide
    rw [hmask j hj, decide_eq_decide]
    exact ⟨fun h => ⟨by omega, not_mem_knownBits (by omega)⟩, fun h => by omega⟩

/-- `supports_unknown_bits` holds exactly when a bit outside `knownBits` is set. -/
theorem supportsUnknownBits_iff (f : Features T) :
    f.supportsUnknownBits = true ↔ ∃ i, i ∉ knownBits ∧ f.bit i = true := by
  refine anySelected_iff (fun idx byte j hj => ?_) f
  rcases idx with _ | _ | idx
  · simp only [UInt8.toBitVec_land, BitVec.getLsbD_and]
    congr 1
    revert j
    decide
  · simp only [UInt8.toBitVec_land, BitVec.getLsbD_and]
    congr 1
    revert j
    decide
  · simp [not_mem_knownBits (show 16 ≤ 8 * (idx + 2) + j by omega)]

/-- A `supports_*` getter reads the bits its mask selects in byte `idx`. -/
theorem flagSet_iff (f : Features T) (idx : Nat) (mask : UInt8) :
    f.flagSet idx mask = true ↔
      ∃ j < 8, mask.toBitVec.getLsbD j = true ∧ f.bit (8 * idx + j) = true := by
  by_cases hlen : idx < f.flags.length
  · have hget := List.getElem?_eq_getElem hlen
    simp only [flagSet, gt_iff_lt, hlen, decide_True, Bool.true_and, bne_iff_ne, ne_eq,
      ← ne_eq, UInt8.ne_zero_iff_bit, UInt8.toBitVec_land, BitVec.getLsbD_and,
      Bool.and_eq_true, List.getD_eq_getElem?_getD, hget, Option.getD_some]
    exact exists_congr fun j => and_congr_right fun hj => by
      rw [bit_of_getElem? hj hget, and_comm]
  · simp only [flagSet, gt_iff_lt, hlen, decide_False, Bool.false_and, Bool.false_eq_true,
      false_iff, not_exists, not_and]
    intro j hj _
    rw [bit_eq_false_of_length_le (by omega)]
    exact Bool.false_ne_true

/-- `requires_unknown_bits` and `supports_unknown_bits` read one set of known bits: any set
bit outside it is supported-unknown, an even one is required-unknown, so the first implies the
second. -/
theorem unknown_bits_scanners_agree (f : Features T) :
    (f.supportsUnknownBits = true ↔ ∃ i, i ∉ knownBits ∧ f.bit i = true) ∧
    (f.requiresUnknownBits = true ↔ ∃ i, i % 2 = 0 ∧ i ∉ knownBits ∧ f.bit i = true) ∧
    (f.requiresUnknownBits = true → f.supportsUnknownBits = true) := by
  refine ⟨supportsUnknownBits_iff f, by simp [requiresUnknownBits_iff, and_assoc], ?_⟩
  rw [requiresUnknownBits_iff, supportsUnknownBits_iff]
  rintro ⟨i, ⟨-, hi⟩, hbit⟩
  exact ⟨i, hi, hbit⟩

/-- Zero flag bytes past the end change no bit. -/
theorem bit_append_zeros (f : Features T) (k i : Nat) :
    (⟨f.flags ++ List.replicate k 0⟩ : Features T).bit i = f.bit i := by
  rcases Nat.lt_or_ge (i / 8) f.flags.length with h | h
  · simp only [bit, List.getD_eq_getElem?_getD, List.getElem?_append_left h]
  · rw [bit_eq_false_of_length_le h]
    simp only [bit, List.getD_eq_getElem?_getD, List.getElem?_append_right h,
      List.getElem?_replicate]
    split <;> simp

/-- Two bitfields with the same bits agree on both unknown-bits scans and every getter. -/
theorem queries_eq_of_bit_eq {f g : Features T} (h : ∀ i, g.bit i = f.bit i) :
    g.requiresUnknownBits = f.requiresUnknownBits ∧
      g.supportsUnknownBits = f.supportsUnknownBits ∧
      ∀ idx mask, g.flagSet idx mask = f.flagSet idx mask := by
  refine ⟨Bool.eq_iff_iff.2 ?_, Bool.eq_iff_iff.2 ?_, fun idx mask => Bool.eq_iff_iff.2 ?_⟩
  · simp only [requiresUnknownBits_iff, h]
  · simp only [supportsUnknownBits_iff, h]
  · simp only [flagSet_iff, h]

end Features

/-! ## `InitFeatures::or` -/

theorem length_orZip {xs ys : List UInt8} (h : ys.length ≤ xs.length) :
    (orZip xs ys).length = xs.length := by
  induction xs generalizing ys with
  | nil => simp [orZip]
  | cons x xs ih =>
      cases ys with
      | nil => simp [orZip]
      | cons y ys => simp [orZip, ih (by simpa using h)]

theorem getD_orZip {xs ys : List UInt8} (h : ys.length ≤ xs.length) (k : Nat) :
    (orZip xs ys).getD k 0 = (xs.getD k 0 ||| ys.getD k 0) := by
  induction xs generalizing ys k with
  | nil =>
      obtain rfl : ys = [] := List.eq_nil_of_length_eq_zero (by simpa using h)
      simp [orZip]
  | cons x xs ih =>
      cases ys with
      | nil => simp [orZip]
      | cons y ys =>
          cases k with
          | zero => rfl
          | succ k => simpa [orZip] using ih (by simpa using h) k

namespace InitFeatures

theorem length_or (a b : InitFeatures) :
    (a.or b).flags.length = max a.flags.length b.flags.length := by
  simp [InitFeatures.or, length_orZip]

/-- `or` is bitwise union, a missing byte counting as zero. -/
theorem bit_or (a b : InitFeatures) (i : Nat) : (a.or b).bit i = (a.bit i || b.bit i) := by
  simp only [InitFeatures.or, Features.bit]
  rw [getD_orZip (by simp), getD_vecResize _ _ (le_max_left _ _), UInt8.toBitVec_lor,
    BitVec.getLsbD_or]

/-- Any property of a bitfield that says "some bit satisfying `P` is set" is a disjunction
over `or`. -/
theorem exists_bit_or {P : Nat → Prop} {g : InitFeatures → Bool}
    (hg : ∀ f, g f = true ↔ ∃ i, P i ∧ f.bit i = true) (a b : InitFeatures) :
    g (a.or b) = (g a || g b) := by
  rw [Bool.eq_iff_iff, Bool.or_eq_true, hg, hg, hg]
  simp only [bit_or, Bool.or_eq_true, and_or_left, exists_or]

theorem flagSet_or (a b : InitFeatures) (idx : Nat) (mask : UInt8) :
    (a.or b).flagSet idx mask = (a.flagSet idx mask || b.flagSet idx mask) := by
  rw [Bool.eq_iff_iff, Bool.or_eq_true, Features.flagSet_iff, Features.flagSet_iff,
    Features.flagSet_iff]
  simp only [bit_or, Bool.or_eq_true, and_or_left, exists_or, ← exists_or]

theorem or_comm (a b : InitFeatures) : a.or b = b.or a :=
  Features.ext_bit (by simp only [length_or, Nat.max_comm]) fun i => by
    simp only [bit_or, Bool.or_comm]

theorem or_assoc (a b c : InitFeatures) : (a.or b).or c = a.or (b.or c) :=
  Features.ext_bit (by simp only [length_or, Nat.max_assoc]) fun i => by
    simp only [bit_or, Bool.or_assoc]

theorem or_self (a : InitFeatures) : a.or a = a :=
  Features.ext_bit (by simp only [length_or, Nat.max_self]) fun i => by
    simp only [bit_or, Bool.or_self]

theorem empty_or (a : InitFeatures) : InitFeatures.or Features.empty a = a :=
  Features.ext_bit (by simp [length_or, Features.empty]) fun i => by
    rw [bit_or]
    simp [Features.bit, Features.empty]

/-- `InitFeatures::or` is bitwise union and loses no bit: the result is as long as the longer
operand, each bit is the disjunction of the operands' bits, so `or` is commutative,
associative and idempotent with `empty` as identity, and every flag query of the result is
the disjunction of its values on the operands. -/
theorem or_is_bitwise_union (a b c : InitFeatures) :
    (a.or b).flags.length = max a.flags.length b.flags.length ∧
    (∀ i, (a.or b).bit i = (a.bit i || b.bit i)) ∧
    a.or b = b.or a ∧ (a.or b).or c = a.or (b.or c) ∧ a.or a = a ∧
    InitFeatures.or Features.empty a = a ∧ a.or Features.empty = a ∧
    (a.or b).requiresUnknownBits = (a.requiresUnknownBits || b.requiresUnknownBits) ∧
    (a.or b).supportsUnknownBits = (a.supportsUnknownBits || b.supportsUnknownBits) ∧
    (a.or b).supportsDataLossProtect =
      (a.supportsDataLossProtect || b.supportsDataLossProtect) ∧
    (a.or b).supportsUpfrontShutdownScript =
      (a.supportsUpfrontShutdownScript || b.supportsUpfrontShutdownScript) ∧
    (a.or b).supportsVariableLengthOnion =
      (a.supportsVariableLengthOnion || b.supportsVariableLengthOnion) ∧
    (a.or b).initialRoutingSync = (a.initialRoutingSync || b.initialRoutingSync) :=
  ⟨length_or a b, bit_or a b, or_comm a b, or_assoc a b c, or_self a, empty_or a,
    (or_comm a _).trans (empty_or a), exists_bit_or Features.requiresUnknownBits_iff a b,
    exists_bit_or Features.supportsUnknownBits_iff a b, flagSet_or a b 0 3,
    flagSet_or a b 0 _, flagSet_or a b 1 3, flagSet_or a b 0 _⟩

end InitFeatures

/-! ## `NodeFeatures::with_known_relevant_init_flags` -/

/-- The mask the node projection applies to init byte `k`. -/
def nodeRelevantMask : Nat → UInt8
  | 0 => 0b00110011
  | 1 => 0b00000011
  | _ + 2 => 0

/-- The known feature bits that mean something in a node announcement: `data_loss_protect`,
`upfront_shutdown_script` and `var_onion_optin`. -/
def nodeKnownBits : List Nat := [0, 1, 4, 5, 8, 9]

theorem nodeRelevantFlags_of_two_le {i : Nat} (h : 2 ≤ i) (l : List UInt8) :
    nodeRelevantFlags i l = [] := by
  induction l generalizing i with
  | nil => rfl
  | cons b l ih =>
      obtain ⟨i, rfl⟩ : ∃ n, i = n + 2 := ⟨i - 2, by omega⟩
      simp [nodeRelevantFlags, ih (show 2 ≤ i + 2 + 1 by omega)]

theorem length_nodeRelevantFlags (l : List UInt8) :
    (nodeRelevantFlags 0 l).length = min 2 l.length := by
  rcases l with _ | ⟨b, _ | ⟨c, l⟩⟩ <;>
    simp [nodeRelevantFlags, nodeRelevantFlags_of_two_le]

theorem getD_nodeRelevantFlags (l : List UInt8) (k : Nat) :
    (nodeRelevantFlags 0 l).getD k 0 = (l.getD k 0 &&& nodeRelevantMask k) := by
  rcases l with _ | ⟨b, _ | ⟨c, l⟩⟩ <;> rcases k with _ | _ | k <;>
    simp [nodeRelevantFlags, nodeRelevantFlags_of_two_le, nodeRelevantMask]

theorem nodeRelevantMask_bit (i : Nat) :
    (nodeRelevantMask (i / 8)).toBitVec.getLsbD (i % 8) = decide (i ∈ nodeKnownBits) := by
  obtain ⟨q, j, hj, rfl⟩ : ∃ q j, j < 8 ∧ i = 8 * q + j :=
    ⟨i / 8, i % 8, Nat.mod_lt _ (by omega), (Nat.div_add_mod i 8).symm⟩
  rw [show (8 * q + j) / 8 = q by omega, show (8 * q + j) % 8 = j by omega]
  rcases q with _ | _ | q
  · revert j
    decide
  · revert j
    decide
  · simp only [nodeRelevantMask, nodeKnownBits, List.mem_cons, List.mem_singleton,
      List.not_mem_nil, or_false]
    simp
    omega

namespace NodeFeatures

/-- The node projection keeps bit `i` exactly when it is a node-relevant known bit. -/
theorem bit_withKnownRelevantInitFlags (x : InitFeatures) (i : Nat) :
    (withKnownRelevantInitFlags x).bit i = (x.bit i && decide (i ∈ nodeKnownBits)) := by
  simp only [Features.bit, withKnownRelevantInitFlags, getD_nodeRelevantFlags,
    UInt8.toBitVec_land, BitVec.getLsbD_and, nodeRelevantMask_bit]

/-- A getter whose mask reads only node-relevant bits answers alike on the projection. -/
theorem flagSet_withKnownRelevantInitFlags (x : InitFeatures) {idx : Nat} {mask : UInt8}
    (hmask : ∀ j < 8, mask.toBitVec.getLsbD j = true → 8 * idx + j ∈ nodeKnownBits) :
    (withKnownRelevantInitFlags x).flagSet idx mask = x.flagSet idx mask := by
  rw [Bool.eq_iff_iff, Features.flagSet_iff, Features.flagSet_iff]
  refine exists_congr fun j => and_congr_right fun hj => and_congr_right fun hm => ?_
  simp [bit_withKnownRelevantInitFlags, hmask j hj hm]

theorem mem_knownBits_of_bit (x : InitFeatures) {i : Nat}
    (h : (withKnownRelevantInitFlags x).bit i = true) : i ∈ Features.knownBits := by
  rw [bit_withKnownRelevantInitFlags, Bool.and_eq_true, decide_eq_true_eq] at h
  have hi := h.2
  simp only [nodeKnownBits, List.mem_cons, List.mem_singleton, List.not_mem_nil,
    or_false] at hi
  simp only [Features.knownBits, List.mem_cons, List.mem_singleton, List.not_mem_nil,
    or_false]
  omega

/-- `NodeFeatures::with_known_relevant_init_flags` keeps exactly the node-relevant known bits
of the first two init bytes, so the result has no unknown bit, answers the node getters as the
init bitfield does, and drops `initial_routing_sync`. -/
theorem withKnownRelevantInitFlags_keeps_node_bits (x : InitFeatures) :
    (withKnownRelevantInitFlags x).flags.length = min 2 x.flags.length ∧
    (∀ i, (withKnownRelevantInitFlags x).bit i = (x.bit i && decide (i ∈ nodeKnownBits))) ∧
    (withKnownRelevantInitFlags x).requiresUnknownBits = false ∧
    (withKnownRelevantInitFlags x).supportsUnknownBits = false ∧
    (withKnownRelevantInitFlags x).supportsDataLossProtect = x.supportsDataLossProtect ∧
    (withKnownRelevantInitFlags x).supportsUpfrontShutdownScript =
      x.supportsUpfrontShutdownScript ∧
    (withKnownRelevantInitFlags x).supportsVariableLengthOnion =
      x.supportsVariableLengthOnion ∧
    (withKnownRelevantInitFlags x).bit 3 = false := by
  refine ⟨length_nodeRelevantFlags x.flags, bit_withKnownRelevantInitFlags x, ?_, ?_,
    flagSet_withKnownRelevantInitFlags x (by decide),
    flagSet_withKnownRelevantInitFlags x (by decide),
    flagSet_withKnownRelevantInitFlags x (by decide),
    by simp [bit_withKnownRelevantInitFlags, nodeKnownBits]⟩
  · rw [Bool.eq_false_iff, ne_eq, Features.requiresUnknownBits_iff]
    rintro ⟨i, ⟨-, hi⟩, hbit⟩
    exact hi (mem_knownBits_of_bit x hbit)
  · rw [Bool.eq_false_iff, ne_eq, Features.supportsUnknownBits_iff]
    rintro ⟨i, hi, hbit⟩
    exact hi (mem_knownBits_of_bit x hbit)

end NodeFeatures

/-! ## The bitfields the node builds -/

/-- `set_initial_routing_sync` adds bit 3 and keeps every other bit. -/
theorem InitFeatures.bit_setInitialRoutingSync (f : InitFeatures) (i : Nat) :
    f.setInitialRoutingSync.bit i = (f.bit i || decide (i = 3)) := by
  have h8 : ∀ j < 8, ((1 : UInt8) <<< 3).toBitVec.getLsbD j = decide (j = 3) := by decide
  obtain ⟨_ | ⟨b, bs⟩⟩ := f
  all_goals simp only [setInitialRoutingSync, Features.bit, List.length_nil, List.length_cons,
    vecResize, ↓reduceIte, List.getD_eq_getElem?_getD]
  all_goals rcases Nat.lt_or_ge i 8 with hi | hi
  · simp [Nat.div_eq_of_lt hi, Nat.mod_eq_of_lt hi, h8 i hi]
  · rw [List.getElem?_eq_none (by simp; omega)]
    simp
    omega
  · simp [Nat.div_eq_of_lt hi, Nat.mod_eq_of_lt hi, h8 i hi]
  · obtain ⟨k, hk⟩ : ∃ k, i / 8 = k + 1 := ⟨i / 8 - 1, by omega⟩
    simp [hk]
    omega

/-- The feature bitfields this node builds itself: its supported sets, what `or` and
`set_initial_routing_sync` make of them, and the projection of any init bitfield. -/
inductive Ours : (T : Context) → Features T → Prop
  | empty (T : Context) : Ours T Features.empty
  | initSupported : Ours .init InitFeatures.supported
  | nodeSupported : Ours .node NodeFeatures.supported
  | channelSupported : Ours .channel ChannelFeatures.supported
  | or {a b : InitFeatures} : Ours .init a → Ours .init b → Ours .init (a.or b)
  | setInitialRoutingSync {f : InitFeatures} :
      Ours .init f → Ours .init f.setInitialRoutingSync
  | nodeWithKnown (x : InitFeatures) : Ours .node (NodeFeatures.withKnownRelevantInitFlags x)
  | channelWithKnown (x : InitFeatures) :
      Ours .channel (ChannelFeatures.withKnownRelevantInitFlags x)

/-- The bits of the supported init and node bitfields are understood. -/
theorem mem_knownBits_of_supported {T : Context} {f : Features T}
    (hf : f.flags = [(2 : UInt8) ||| (1 : UInt8) <<< 5, (1 : UInt8) <<< (9 - 8)]) {i : Nat}
    (hbit : f.bit i = true) : i ∈ Features.knownBits := by
  rcases Nat.lt_or_ge i 16 with hi | hi
  · rw [Features.bit, hf] at hbit
    revert hbit
    revert i
    decide
  · rw [Features.bit_eq_false_of_length_le (by rw [hf]; simp; omega)] at hbit
    cases hbit

/-- Every bit set in a bitfield the node builds is one it understands. -/
theorem Ours.mem_knownBits {T : Context} {f : Features T} (h : Ours T f) {i : Nat}
    (hbit : f.bit i = true) : i ∈ Features.knownBits := by
  induction h with
  | empty | channelSupported | channelWithKnown =>
    simp [Features.bit, Features.empty, ChannelFeatures.supported,
      ChannelFeatures.withKnownRelevantInitFlags] at hbit
  | initSupported | nodeSupported => exact mem_knownBits_of_supported rfl hbit
  | or _ _ iha ihb =>
    rw [InitFeatures.bit_or, Bool.or_eq_true] at hbit
    exact hbit.elim iha ihb
  | setInitialRoutingSync _ ih =>
    rw [InitFeatures.bit_setInitialRoutingSync, Bool.or_eq_true, decide_eq_true_eq] at hbit
    exact hbit.elim ih fun h => h ▸ by decide
  | nodeWithKnown x => exact NodeFeatures.mem_knownBits_of_bit x hbit

/-- The bitfields the node builds never require nor offer a feature it does not understand. -/
theorem ours_has_no_unknown_bits {T : Context} {f : Features T} (h : Ours T f) :
    f.requiresUnknownBits = false ∧ f.supportsUnknownBits = false := by
  refine ⟨Bool.eq_false_iff.2 fun hr => ?_, Bool.eq_false_iff.2 fun hs => ?_⟩
  · obtain ⟨i, ⟨-, hi⟩, hbit⟩ := (Features.requiresUnknownBits_iff f).1 hr
    exact hi (h.mem_knownBits hbit)
  · obtain ⟨i, hi, hbit⟩ := (Features.supportsUnknownBits_iff f).1 hs
    exact hi (h.mem_knownBits hbit)

theorem ours_has_no_unknown_bits_routing_sync :
    Ours .init (InitFeatures.setInitialRoutingSync InitFeatures.supported) ∧
      (InitFeatures.setInitialRoutingSync InitFeatures.supported).requiresUnknownBits = false ∧
      (InitFeatures.setInitialRoutingSync InitFeatures.supported).supportsUnknownBits = false :=
  ⟨.setInitialRoutingSync .initSupported,
    ours_has_no_unknown_bits (.setInitialRoutingSync .initSupported)⟩

/-! ## Test-build helpers -/

namespace Features

variable {T : Context}

/-- `unset_upfront_shutdown_script` (test builds): `flags[0] ^= 1 << 5`; `none` where indexing
an empty vector panics. -/
def unsetUpfrontShutdownScript (f : Features T) : Option (Features T) :=
  match f.flags with
  | [] => none
  | byte :: rest => some ⟨(byte ^^^ (1 : UInt8) <<< 5) :: rest⟩

/-- `unset_upfront_shutdown_script` flips feature bit 5 rather than clearing it, and panics
on an empty vector. On a bitfield without `upfront_shutdown_script` it turns the feature on. -/
theorem unset_upfront_shutdown_script_flips (f : Features T) :
    (f.unsetUpfrontShutdownScript = none ↔ f.flags = []) ∧
    ∀ g, f.unsetUpfrontShutdownScript = some g →
      (∀ i, g.bit i = (f.bit i ^^ decide (i = 5))) ∧
      (f.supportsUpfrontShutdownScript = false → g.supportsUpfrontShutdownScript = true) := by
  have h5 : ∀ j < 8, ((1 : UInt8) <<< 5).toBitVec.getLsbD j = decide (j = 5) := by decide
  rcases f with ⟨_ | ⟨byte, rest⟩⟩
  · exact ⟨by simp [unsetUpfrontShutdownScript], fun g h => by simp [unsetUpfrontShutdownScript] at h⟩
  refine ⟨by simp [unsetUpfrontShutdownScript], fun g h => ?_⟩
  obtain rfl : g = ⟨(byte ^^^ (1 : UInt8) <<< 5) :: rest⟩ := by
    simpa [unsetUpfrontShutdownScript] using h.symm
  have hbit : ∀ i, (⟨(byte ^^^ (1 : UInt8) <<< 5) :: rest⟩ : Features T).bit i =
      ((⟨byte :: rest⟩ : Features T).bit i ^^ decide (i = 5)) := fun i => by
    rcases Nat.lt_or_ge i 8 with hi | hi
    · simp [bit, Nat.div_eq_of_lt hi, Nat.mod_eq_of_lt hi, h5 i hi]
    · obtain ⟨k, hk⟩ : ∃ k, i / 8 = k + 1 := ⟨i / 8 - 1, by omega⟩
      simp [bit, hk, show i ≠ 5 by omega]
  refine ⟨hbit, fun hs => ?_⟩
  have hmask : ((3 : UInt8) <<< 4).toBitVec.getLsbD 5 = true := by decide
  refine (flagSet_iff _ 0 _).2 ⟨5, by omega, hmask, ?_⟩
  have h5off : (⟨byte :: rest⟩ : Features T).bit 5 = false := by
    by_contra hon
    have := (flagSet_iff (⟨byte :: rest⟩ : Features T) 0 ((3 : UInt8) <<< 4)).2
      ⟨5, by omega, hmask, by simpa using hon⟩
    simp [supportsUpfrontShutdownScript, this] at hs
  simp [hbit, h5off]

end Features

end Lightning.Ln
