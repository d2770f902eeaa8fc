import Lightning.Ln.Features
import Lightning.Util.Ser

/-!
# Feature flags on the wire

`Writeable` and `Readable` for `Features<T>` and `InitFeatures::write_up_to_13`. On the wire a
bitfield is big-endian, so `write` reverses the little-endian flags after a `u16` length, and
`read` reverses them back. `Built` collects every bitfield the code can construct;
`Built.length_lt` shows none reaches `2 ^ 16` flag bytes, so the `len() as u16` cast never
truncates and `read_write` applies. `Ours.built` places the node's own bitfields among them:
a peer reads them back as sent. `write_read` is the converse round trip, and
`writeUpTo13_writes_bits_up_to_13` says what survives `write_up_to_13`.
`read_zero_padded_differs` says the encoding is not canonical for `PartialEq`: leading zero
flag bytes are accepted and change no feature bit and no query, yet give a bitfield unequal to
the one sent without them.
-/

namespace Lightning.Ln

open Lightning.Util.Ser

namespace Features

variable {T : Context}

/-- `Writeable for Features<T>`: the flag count as a `u16`, then the flags swapped back to
big-endian. -/
def write (f : Features T) : List UInt8 :=
  writeU16 (UInt16.ofNat f.flags.length) ++ f.flags.reverse

/-- `Readable for Features<T>`: a `Vec<u8>`, swapped to little-endian. -/
def read (r : List UInt8) : Except DecodeError (Features T × List UInt8) := do
  let (flags, r) ← readVecU8 r
  pure (⟨flags.reverse⟩, r)

theorem read_eq_ok {r rest : List UInt8} {f : Features T} (h : read r = .ok (f, rest)) :
    readVecU8 r = .ok (f.flags.reverse, rest) := by
  obtain ⟨⟨flags, r'⟩, hr, h⟩ := Except.bind_eq_ok.1 h
  simp only [Except.pure_eq_ok, Except.ok.injEq, Prod.mk.injEq] at h
  obtain ⟨rfl, rfl⟩ := h
  simpa using hr

theorem length_lt_of_read {r rest : List UInt8} {f : Features T}
    (h : read r = .ok (f, rest)) : f.flags.length < 2 ^ 16 := by
  obtain ⟨len, -, hlen⟩ := readVecU8_eq_ok (read_eq_ok h)
  rw [List.length_reverse] at hlen
  rw [hlen]
  exact UInt16.toNat_lt_size len

/-- Reading what `write` produced gives the bitfield back and consumes exactly its bytes,
provided the flag count fits the `u16` prefix. -/
theorem read_write (f : Features T) (hlen : f.flags.length < 2 ^ 16) (rest : List UInt8) :
    read (f.write ++ rest) = .ok (f, rest) := by
  have h := readVecU8_write f.flags.reverse rest (by simpa using hlen)
  rw [List.length_reverse, List.append_assoc] at h
  simp [read, write, h]

/-- Whatever `read` accepts, writing the result reproduces the bytes it consumed. -/
theorem write_read {r rest : List UInt8} {g : Features T} (h : read r = .ok (g, rest)) :
    g.write ++ rest = r := by
  obtain ⟨len, hr, hlen⟩ := readVecU8_eq_ok (read_eq_ok h)
  rw [← readU16_eq_ok hr, List.length_reverse] at *
  simp [write, hlen, UInt16.ofNat_toNat]

/-- `read` accepts a bitfield sent with `k` leading zero flag bytes. What it returns agrees with
the bitfield sent without them on every bit, both unknown-bits scans and every getter, but is
not equal to it under `PartialEq` and does not write back to the same bytes. -/
theorem read_zero_padded_differs (f : Features T) {k : Nat} (hk : 0 < k)
    (hlen : f.flags.length + k < 2 ^ 16) (rest : List UInt8) :
    ∃ g : Features T,
      read (writeU16 (UInt16.ofNat (f.flags.length + k)) ++ List.replicate k 0 ++
        f.flags.reverse ++ rest) = .ok (g, rest) ∧
      (∀ i, g.bit i = f.bit i) ∧ g.requiresUnknownBits = f.requiresUnknownBits ∧
      g.supportsUnknownBits = f.supportsUnknownBits ∧
      (∀ idx mask, g.flagSet idx mask = f.flagSet idx mask) ∧ g ≠ f ∧ g.write ≠ f.write := by
  let g : Features T := ⟨f.flags ++ List.replicate k 0⟩
  have hwrite : g.write = writeU16 (UInt16.ofNat (f.flags.length + k)) ++ List.replicate k 0 ++
      f.flags.reverse := by
    simp [g, write]
  have hbits : ∀ i, g.bit i = f.bit i := bit_append_zeros f k
  have hne : g.flags.length ≠ f.flags.length := by simp [g]; omega
  obtain ⟨hreq, hsup, hget⟩ := queries_eq_of_bit_eq hbits
  refine ⟨g, ?_, hbits, hreq, hsup, hget, fun h => hne (by rw [h]), fun h => hne ?_⟩
  · rw [← hwrite]
    exact read_write g (by simpa [g] using hlen) rest
  · simpa [write] using congrArg List.length h

theorem read_zero_padded_differs_sample :
    0 < 1 ∧ InitFeatures.supported.flags.length + 1 < 2 ^ 16 ∧
      ∃ g : InitFeatures,
        read (writeU16 (UInt16.ofNat (InitFeatures.supported.flags.length + 1)) ++
          List.replicate 1 0 ++ InitFeatures.supported.flags.reverse) = .ok (g, []) ∧
        (∀ i, g.bit i = InitFeatures.supported.bit i) ∧
        g.requiresUnknownBits = InitFeatures.supported.requiresUnknownBits ∧
        g.supportsUnknownBits = InitFeatures.supported.supportsUnknownBits ∧
        (∀ idx mask, g.flagSet idx mask = InitFeatures.supported.flagSet idx mask) ∧
        g ≠ InitFeatures.supported ∧ g.write ≠ InitFeatures.supported.write := by
  have hlen : InitFeatures.supported.flags.length + 1 < 2 ^ 16 := by decide
  have h := read_zero_padded_differs InitFeatures.supported (by decide : 0 < 1) hlen []
  rw [List.append_nil] at h
  exact ⟨by decide, hlen, h⟩

end Features

/-- `InitFeatures::write_up_to_13`: the flag count capped at two, then bytes 1 and 0 with bits
14 and 15 of byte 1 cleared. -/
def InitFeatures.writeUpTo13 (f : InitFeatures) : List UInt8 :=
  let len := min 2 f.flags.length
  writeU16 (UInt16.ofNat len) ++ (List.range len).reverse.map fun i =>
    if i = 0 then f.flags.getD i 0 else f.flags.getD i 0 &&& 0b00111111

/-! ## Every buildable bitfield round-trips -/

/-- The feature bitfields the code can build: the constructors and operations of
`features.rs`, and whatever `Features::read` returns. A clone is the value itself. -/
inductive Built : (T : Context) → Features T → Prop
  | empty (T : Context) : Built T Features.empty
  | initSupported : Built .init InitFeatures.supported
  | nodeSupported : Built .node NodeFeatures.supported
  | channelSupported : Built .channel ChannelFeatures.supported
  | read {T : Context} {r rest : List UInt8} {f : Features T} :
      Features.read r = .ok (f, rest) → Built T f
  | or {a b : InitFeatures} : Built .init a → Built .init b → Built .init (a.or b)
  | nodeWithKnown (x : InitFeatures) :
      Built .node (NodeFeatures.withKnownRelevantInitFlags x)
  | channelWithKnown (x : InitFeatures) :
      Built .channel (ChannelFeatures.withKnownRelevantInitFlags x)
  | setInitialRoutingSync {f : InitFeatures} :
      Built .init f → Built .init f.setInitialRoutingSync

theorem InitFeatures.length_setInitialRoutingSync (f : InitFeatures) :
    f.setInitialRoutingSync.flags.length = max 1 f.flags.length := by
  unfold InitFeatures.setInitialRoutingSync
  split <;> simp only [length_vecResize, List.length_set] <;> omega

/-- No buildable bitfield has `2 ^ 16` flag bytes or more. -/
theorem Built.length_lt {T : Context} {f : Features T} (h : Built T f) :
    f.flags.length < 2 ^ 16 := by
  induction h with
  | empty | initSupported | nodeSupported | channelSupported | channelWithKnown =>
      simp [Features.empty, InitFeatures.supported, NodeFeatures.supported,
        ChannelFeatures.supported, ChannelFeatures.withKnownRelevantInitFlags]
  | read h => exact Features.length_lt_of_read h
  | or _ _ iha ihb => rw [InitFeatures.length_or]; omega
  | nodeWithKnown x =>
      have := length_nodeRelevantFlags x.flags
      simp only [NodeFeatures.withKnownRelevantInitFlags]
      omega
  | setInitialRoutingSync _ ih => rw [InitFeatures.length_setInitialRoutingSync]; omega

/-- Every feature bitfield the code builds has fewer than `2 ^ 16` flag bytes, and reading its
serialization gives it back and consumes exactly the written bytes; conversely whatever
`read` accepts is reproduced by writing the result. -/
theorem features_wire_round_trip :
    (∀ {T : Context} {f : Features T}, Built T f →
      f.flags.length < 2 ^ 16 ∧ ∀ rest, Features.read (f.write ++ rest) = .ok (f, rest)) ∧
    (∀ {T : Context} {r rest : List UInt8} {g : Features T},
      Features.read r = .ok (g, rest) → g.write ++ rest = r) :=
  ⟨fun h => ⟨h.length_lt, Features.read_write _ h.length_lt⟩, Features.write_read⟩

/-- The node's own bitfields are among those the code builds: `Built` is `Ours` with what
`read` returns added. -/
theorem Ours.built {T : Context} {f : Features T} (h : Ours T f) : Built T f := by
  induction h with
  | empty T => exact .empty T
  | initSupported => exact .initSupported
  | nodeSupported => exact .nodeSupported
  | channelSupported => exact .channelSupported
  | or _ _ iha ihb => exact .or iha ihb
  | setInitialRoutingSync _ ih => exact .setInitialRoutingSync ih
  | nodeWithKnown x => exact .nodeWithKnown x
  | channelWithKnown x => exact .channelWithKnown x

/-- A bitfield the node builds itself is read back by its peer as sent, and every bit of it is
one the node understands. -/
theorem Ours.read_write {T : Context} {f : Features T} (h : Ours T f) (rest : List UInt8) :
    Features.read (f.write ++ rest) = .ok (f, rest) ∧
      ∀ i, f.bit i = true → i ∈ Features.knownBits :=
  ⟨Features.read_write f h.built.length_lt rest, fun _ => h.mem_knownBits⟩

/-! ## `write_up_to_13` -/

/-- The flag bytes `write_up_to_13` sends, little-endian: byte 0 whole and byte 1 with bits 14
and 15 cleared. -/
def upTo13Flags (f : InitFeatures) : List UInt8 :=
  (List.range (min 2 f.flags.length)).map fun i =>
    if i = 0 then f.flags.getD i 0 else f.flags.getD i 0 &&& 0b00111111

/-- The mask `write_up_to_13` applies to flag byte `k`. -/
def upTo13Mask : Nat → UInt8
  | 0 => 0b11111111
  | 1 => 0b00111111
  | _ + 2 => 0

theorem writeUpTo13_eq (f : InitFeatures) :
    f.writeUpTo13 = writeU16 (UInt16.ofNat (min 2 f.flags.length)) ++ (upTo13Flags f).reverse := by
  simp [InitFeatures.writeUpTo13, upTo13Flags, List.map_reverse]

theorem length_upTo13Flags (f : InitFeatures) :
    (upTo13Flags f).length = min 2 f.flags.length := by
  simp [upTo13Flags]

theorem getD_upTo13Flags (f : InitFeatures) (k : Nat) :
    (upTo13Flags f).getD k 0 = (f.flags.getD k 0 &&& upTo13Mask k) := by
  rcases f with ⟨_ | ⟨a, _ | ⟨b, l⟩⟩⟩ <;> rcases k with _ | _ | k <;>
    simp [upTo13Flags, List.range_succ, upTo13Mask, Nat.min_def]

theorem upTo13Mask_bit (i : Nat) :
    (upTo13Mask (i / 8)).toBitVec.getLsbD (i % 8) = decide (i ≤ 13) := by
  obtain ⟨q, j, hj, rfl⟩ : ∃ q j, j < 8 ∧ i = 8 * q + j :=
    ⟨i / 8, i % 8, Nat.mod_lt _ (by omega), (Nat.div_add_mod i 8).symm⟩
  rw [show (8 * q + j) / 8 = q by omega, show (8 * q + j) % 8 = j by omega]
  rcases q with _ | _ | q
  · revert j
    decide
  · revert j
    decide
  · simp only [upTo13Mask, BitVec.getLsbD_zero, UInt8.toBitVec_ofNat]
    simp
    omega

/-- `InitFeatures::write_up_to_13` writes exactly feature bits 0 to 13: a length prefix of at
most two, then at most two flag bytes, which `read` parses into a bitfield holding bit `i` of
the input exactly when `i ≤ 13`. -/
theorem writeUpTo13_writes_bits_up_to_13 (f : InitFeatures) :
    f.writeUpTo13.length = 2 + min 2 f.flags.length ∧
    f.writeUpTo13.take 2 = writeU16 (UInt16.ofNat (min 2 f.flags.length)) ∧
    ∀ {T : Context}, ∃ g : Features T, Features.read f.writeUpTo13 = .ok (g, []) ∧
      ∀ i, g.bit i = (decide (i ≤ 13) && f.bit i) := by
  have hlen := length_upTo13Flags f
  refine ⟨by simp [writeUpTo13_eq, hlen], by simp [writeUpTo13_eq], fun {T} => ?_⟩
  have hread := Features.read_write (⟨upTo13Flags f⟩ : Features T) (by simp [hlen]) []
  simp only [Features.write, hlen, List.append_nil, ← writeUpTo13_eq] at hread
  refine ⟨⟨upTo13Flags f⟩, hread, fun i => ?_⟩
  simp only [Features.bit, getD_upTo13Flags, UInt8.toBitVec_land, BitVec.getLsbD_and,
    upTo13Mask_bit, Bool.and_comm]

end Lightning.Ln
