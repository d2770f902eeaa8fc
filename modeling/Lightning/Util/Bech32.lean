import Lightning.Util.Bytes
import Mathlib.Tactic.IntervalCases

/-!
# Base32 digits in the `bech32` crate

`ln/mod.rs` reads and writes a `PaymentSecret` in base32 through the `bech32` crate, which the
sources import but do not contain. This module models the parts of that crate they call, after
the crate's own code: the five-bit digit `u5`, `write_base32` of a byte slice into a
`Vec<u5>`, and `convert_bits`, which `Vec::<u8>::from_base32` runs from five bits to eight.

Both loops keep a few bits in hand between rounds. `Spells` is what `write_base32`'s loop keeps
and `Holds` is what `convert_bits`'s loop keeps: the output so far, followed by the bits in
hand, is the input read so far. Each has a step lemma per round and a run lemma over the whole
input. `writeBase32_eq` and `fromBase32_eq` then give both directions in closed form over
big-endian integers: writing appends zero bits up to the next digit, and reading keeps the
whole bytes and refuses leftover bits that are five or more, or not zero.
-/

namespace Lightning.Util.Bech32

/-! ## The machine operations the loops perform, as `Nat` arithmetic -/

theorem UInt8.toNat_shiftRight (a b : UInt8) : (a >>> b).toNat = a.toNat / 2 ^ (b.toNat % 8) := by
  show (a.toBitVec >>> (b % 8).toBitVec).toNat = _
  rw [BitVec.ushiftRight_eq', BitVec.toNat_ushiftRight, Nat.shiftRight_eq_div_pow]
  rfl

theorem UInt8.toNat_shiftLeft (a b : UInt8) :
    (a <<< b).toNat = a.toNat * 2 ^ (b.toNat % 8) % 256 := by
  show (a.toBitVec <<< (b % 8).toBitVec).toNat = _
  rw [BitVec.shiftLeft_eq', BitVec.toNat_shiftLeft, Nat.shiftLeft_eq]
  rfl

theorem UInt8.toNat_lor (a b : UInt8) : (a ||| b).toNat = a.toNat ||| b.toNat := rfl

theorem UInt32.toNat_shiftRight (a b : UInt32) :
    (a >>> b).toNat = a.toNat / 2 ^ (b.toNat % 32) := by
  show (a.toBitVec >>> (b % 32).toBitVec).toNat = _
  rw [BitVec.ushiftRight_eq', BitVec.toNat_ushiftRight, Nat.shiftRight_eq_div_pow]
  rfl

theorem UInt32.toNat_shiftLeft (a b : UInt32) :
    (a <<< b).toNat = a.toNat * 2 ^ (b.toNat % 32) % 2 ^ 32 := by
  show (a.toBitVec <<< (b % 32).toBitVec).toNat = _
  rw [BitVec.shiftLeft_eq', BitVec.toNat_shiftLeft, Nat.shiftLeft_eq]
  rfl

theorem UInt32.toNat_lor (a b : UInt32) : (a ||| b).toNat = a.toNat ||| b.toNat := rfl

@[simp] theorem UInt8.toNat_toUInt32 (a : UInt8) : a.toUInt32.toNat = a.toNat := rfl

@[simp] theorem UInt32.toNat_toUInt8 (a : UInt32) : a.toUInt8.toNat = a.toNat % 256 := rfl

@[simp] theorem UInt32.toNat_ofNat (n : Nat) : (UInt32.ofNat n).toNat = n % 2 ^ 32 := by
  simp [UInt32.ofNat, UInt32.toNat, Fin.ofNat]

theorem UInt32.eq_zero_iff (a : UInt32) : a = 0 ↔ a.toNat = 0 :=
  ⟨fun h => h ▸ rfl, fun h => UInt32.toNat.inj h⟩

theorem UInt8.eq_zero_iff (a : UInt8) : a = 0 ↔ a.toNat = 0 :=
  ⟨fun h => h ▸ rfl, fun h => UInt8.toNat.inj h⟩

/-- `acc >> k` and `acc << k`, for a shift the code keeps below 32. -/
theorem UInt32.toNat_shiftRight_toUInt32 (a : UInt32) {k : Nat} (hk : k < 32) :
    (a >>> k.toUInt32).toNat = a.toNat / 2 ^ k := by
  rw [UInt32.toNat_shiftRight, Nat.toUInt32, UInt32.toNat_ofNat,
    Nat.mod_eq_of_lt (by omega : k < 2 ^ 32), Nat.mod_eq_of_lt hk]

theorem UInt32.toNat_shiftLeft_toUInt32 (a : UInt32) {k : Nat} (hk : k < 32) :
    (a <<< k.toUInt32).toNat = a.toNat * 2 ^ k % 2 ^ 32 := by
  rw [UInt32.toNat_shiftLeft, Nat.toUInt32, UInt32.toNat_ofNat,
    Nat.mod_eq_of_lt (by omega : k < 2 ^ 32), Nat.mod_eq_of_lt hk]

@[simp] theorem UInt32.toNat_land_255 (a : UInt32) : (a &&& 255).toNat = a.toNat % 256 := by
  rw [UInt32.and_toNat]
  exact Nat.and_pow_two_sub_one_eq_mod _ 8

/-- An `or` of two values whose set bits cannot meet is their sum. -/
theorem lor_eq_add_of_mod {x y k : Nat} (hx : x % 2 ^ k = 0) (hy : y < 2 ^ k) :
    x ||| y = x + y := by
  have hx' : 2 ^ k * (x / 2 ^ k) = x := Nat.mul_div_cancel' (Nat.dvd_of_mod_eq_zero hx)
  rw [← hx', Nat.mul_add_lt_is_or hy]

/-- `& 0b1111_1000` then `>> 3` keeps the top five bits of a byte. -/
theorem land_248_div_8 {x : Nat} (hx : x < 256) : (x &&& 248) / 8 = x / 8 := by
  apply Nat.eq_of_testBit_eq
  intro i
  simp only [show (8 : Nat) = 2 ^ 3 from rfl, ← Nat.shiftRight_eq_div_pow, Nat.testBit_shiftRight,
    Nat.testBit_and]
  by_cases hi : i < 5
  · have h248 : Nat.testBit 248 (3 + i) = true := by interval_cases i <;> decide
    rw [h248, Bool.and_true]
  · have hlt : x < 2 ^ (3 + i) :=
      lt_of_lt_of_le hx (Nat.pow_le_pow_right (n := 2) (by decide) (by omega : 8 ≤ 3 + i))
    rw [Nat.testBit_lt_two_pow hlt, Bool.false_and]

/-- `b << k`, for a shift the code keeps below eight. -/
theorem UInt8.toNat_shiftLeft_toUInt8 (a : UInt8) {k : Nat} (hk : k < 8) :
    (a <<< k.toUInt8).toNat = a.toNat * 2 ^ k % 256 := by
  rw [UInt8.toNat_shiftLeft, Nat.toUInt8, UInt8.toNat_ofNat, Nat.mod_eq_of_lt (by omega : k < 256),
    Nat.mod_eq_of_lt hk]

/-- `from_buffer | from_byte` in `write_base32`: the bits in hand lie above the bits taken from
the byte, so the `or` is a sum. -/
theorem toNat_fromBuffer_lor_fromByte {buffer b : UInt8} {bb : Nat} (hbb : bb ≤ 4)
    (hlow : buffer.toNat % 2 ^ (8 - bb) = 0) :
    ((buffer >>> 3) ||| (b >>> (3 + bb).toUInt8)).toNat =
      buffer.toNat / 8 + b.toNat / 2 ^ (3 + bb) := by
  have hb : b.toNat < 256 := UInt8.toNat_lt_size b
  have h3 : (3 : UInt8).toNat % 8 = 3 := rfl
  have hshift : (3 + bb).toUInt8.toNat % 8 = 3 + bb := by
    rw [Nat.toUInt8, UInt8.toNat_ofNat]
    omega
  have hsplit : 2 ^ (8 - bb) = 2 ^ 3 * 2 ^ (5 - bb) := by
    rw [← Nat.pow_add]
    congr 1
    omega
  have hhigh : buffer.toNat / 2 ^ 3 % 2 ^ (5 - bb) = 0 := by
    rw [← Nat.mod_mul_right_div_self, ← hsplit, hlow, Nat.zero_div]
  have hlowbyte : b.toNat / 2 ^ (3 + bb) < 2 ^ (5 - bb) := by
    rw [Nat.div_lt_iff_lt_mul (Nat.two_pow_pos _), ← Nat.pow_add,
      show 5 - bb + (3 + bb) = 8 by omega]
    exact hb
  rw [UInt8.toNat_lor, UInt8.toNat_shiftRight, UInt8.toNat_shiftRight, h3, hshift]
  exact lor_eq_add_of_mod hhigh hlowbyte

/-! ## Digits and errors -/

/-- `bech32::u5`: a five-bit digit, kept in a `u8`. -/
@[ext] structure U5 where
  toU8 : UInt8
  lt : toU8.toNat < 32
deriving DecidableEq

/-- The crate's own constructor `u5(x)`, which it applies only to values below 32. It keeps the
low five bits, so that it is total; at every call below the value is already under 32. -/
def u5 (x : UInt8) : U5 :=
  ⟨x &&& 0x1f, by rw [UInt8.and_toNat]; exact Nat.lt_succ_of_le Nat.and_le_right⟩

@[simp] theorem toNat_u5 (x : UInt8) : (u5 x).toU8.toNat = x.toNat % 32 := by
  rw [u5, UInt8.and_toNat]
  exact Nat.and_pow_two_sub_one_eq_mod _ 5

/-- The `bech32::Error`s the modelled functions return. -/
inductive Error where
  | invalidLength
  | invalidData (value : UInt8)
  | invalidPadding
deriving DecidableEq, Repr

/-- The integer whose base-32 digits these are, most significant first. -/
def fromBeDigits (digits : List U5) : Nat :=
  digits.foldl (fun acc d => acc * 32 + d.toU8.toNat) 0

@[simp] theorem fromBeDigits_nil : fromBeDigits [] = 0 := rfl

@[simp] theorem fromBeDigits_append_singleton (digits : List U5) (d : U5) :
    fromBeDigits (digits ++ [d]) = fromBeDigits digits * 32 + d.toU8.toNat := by
  simp [fromBeDigits, List.foldl_append]

/-- A value read from digits fits their width. -/
theorem fromBeDigits_lt (digits : List U5) : fromBeDigits digits < 2 ^ (5 * digits.length) := by
  induction digits using List.reverseRecOn with
  | nil => simp
  | append_singleton digits d ih =>
    have hd := d.lt
    rw [fromBeDigits_append_singleton, List.length_append, List.length_singleton,
      show 5 * (digits.length + 1) = 5 * digits.length + 5 by omega, Nat.pow_add]
    omega

/-- Two digit strings of one length and one value are the same. -/
theorem eq_of_fromBeDigits_eq {xs ys : List U5} (hlen : xs.length = ys.length)
    (hval : fromBeDigits xs = fromBeDigits ys) : xs = ys := by
  induction xs using List.reverseRecOn generalizing ys with
  | nil => exact (List.length_eq_zero.1 hlen.symm).symm
  | append_singleton xs x ih =>
    obtain ⟨ys, y, rfl⟩ : ∃ ys' y, ys = ys' ++ [y] := by
      rcases List.eq_nil_or_concat ys with rfl | ⟨ys', y, rfl⟩
      · simp at hlen
      · exact ⟨ys', y, List.concat_eq_append ys' y⟩
    simp only [List.length_append, List.length_singleton, Nat.add_right_cancel_iff,
      fromBeDigits_append_singleton] at hlen hval
    have hx := x.lt
    have hy := y.lt
    have hxy : x = y := U5.ext (UInt8.toNat.inj (by omega))
    rw [ih hlen (by omega), hxy]

/-! ## `write_base32` -/

/-- The locals of `write_base32`'s loop: the digits written so far, and the `bufferBits` bits
left over from the last byte, kept in `buffer` from its most significant bit down. -/
structure WriteState where
  writer : List U5
  buffer : UInt8
  bufferBits : Nat

namespace WriteState

/-- `if buffer_bits >= 5`: write the digit the top five bits in hand make. The loop runs this
before each byte, and once more after the last. -/
def flushFull (s : WriteState) : WriteState :=
  if s.bufferBits ≥ 5 then
    ⟨s.writer ++ [u5 ((s.buffer &&& 0b11111000) >>> 3)], s.buffer <<< 5, s.bufferBits - 5⟩
  else s

/-- The rest of the round for byte `b`: top the bits in hand up to a digit from the high bits
of `b`, and keep the other bits of `b` in hand. -/
def pushByte (s : WriteState) (b : UInt8) : WriteState :=
  let fromBuffer := s.buffer >>> 3
  let fromByte := b >>> (3 + s.bufferBits).toUInt8
  ⟨s.writer ++ [u5 (fromBuffer ||| fromByte)], b <<< (5 - s.bufferBits).toUInt8, s.bufferBits + 3⟩

/-- One round of `for &b in self.as_ref()`. -/
def push (s : WriteState) (b : UInt8) : WriteState :=
  s.flushFull.pushByte b

/-- After the loop: the at most two digits still in hand, the last one padded with zero bits. -/
def finish (s : WriteState) : List U5 :=
  let s := s.flushFull
  if s.bufferBits ≠ 0 then s.writer ++ [u5 (s.buffer >>> 3)] else s.writer

end WriteState

/-- `<[u8] as ToBase32>::write_base32`, into a `Vec<u5>`, whose `write_u5` pushes and cannot
fail. -/
def writeBase32 (bytes : List UInt8) : List U5 :=
  (bytes.foldl WriteState.push ⟨[], 0, 0⟩).finish

namespace WriteState

/-- What `write_base32`'s loop keeps after reading `read`: the digits written, followed by the
`bufferBits` top bits of `buffer`, spell `read`, and the bits of `buffer` below them are zero. -/
structure Spells (s : WriteState) (read : List UInt8) : Prop where
  bufferBits_le : s.bufferBits ≤ 7
  length_writer : 5 * s.writer.length + s.bufferBits = 8 * read.length
  low_zero : s.buffer.toNat % 2 ^ (8 - s.bufferBits) = 0
  value : fromBeDigits s.writer * 2 ^ s.bufferBits + s.buffer.toNat / 2 ^ (8 - s.bufferBits) =
    fromBeBytes read

theorem spells_init : Spells ⟨[], 0, 0⟩ [] := ⟨by decide, rfl, rfl, rfl⟩

variable {s : WriteState} {read : List UInt8}

/-- Writing out a full digit moves five bits from the hand to the digits and leaves at most
four in hand. -/
theorem Spells.flushFull (hs : s.Spells read) :
    s.flushFull.Spells read ∧ s.flushFull.bufferBits ≤ 4 := by
  obtain ⟨writer, buffer, bb⟩ := s
  obtain ⟨hle, hlen, hlow, hval⟩ := hs
  simp only at hle hlen hlow hval
  by_cases h5 : bb ≥ 5
  · have hB : buffer.toNat < 256 := UInt8.toNat_lt_size buffer
    have hdigit : ((buffer &&& 0b11111000) >>> 3).toNat = buffer.toNat / 8 := by
      rw [UInt8.toNat_shiftRight, UInt8.and_toNat]
      exact land_248_div_8 hB
    have hshl : (buffer <<< 5).toNat = buffer.toNat * 32 % 256 := by
      rw [UInt8.toNat_shiftLeft]
      rfl
    simp only [WriteState.flushFull, h5, ↓reduceIte]
    refine ⟨⟨show bb - 5 ≤ 7 by omega, ?_, ?_, ?_⟩, show bb - 5 ≤ 4 by omega⟩ <;>
      simp only [List.length_append, List.length_singleton, fromBeDigits_append_singleton,
        toNat_u5, hdigit, hshl]
    · omega
    all_goals
      clear hlen hdigit hshl
      interval_cases bb <;> omega
  · simp only [WriteState.flushFull, h5, ↓reduceIte]
    exact ⟨⟨hle, hlen, hlow, hval⟩, by omega⟩

/-- Topping the bits in hand up from the next byte keeps the spelling, one byte further on. -/
theorem Spells.pushByte (hs : s.Spells read) (hbb : s.bufferBits ≤ 4) (b : UInt8) :
    (s.pushByte b).Spells (read ++ [b]) := by
  obtain ⟨writer, buffer, bb⟩ := s
  obtain ⟨-, hlen, hlow, hval⟩ := hs
  simp only at hbb hlen hlow hval
  have hB : buffer.toNat < 256 := UInt8.toNat_lt_size buffer
  have hb : b.toNat < 256 := UInt8.toNat_lt_size b
  have hshl := UInt8.toNat_shiftLeft_toUInt8 b (by omega : 5 - bb < 8)
  refine ⟨show bb + 3 ≤ 7 by omega, ?_, ?_, ?_⟩ <;>
    simp only [WriteState.pushByte, List.length_append, List.length_singleton,
      fromBeDigits_append_singleton, fromBeBytes_append_singleton, toNat_u5,
      toNat_fromBuffer_lor_fromByte hbb hlow, hshl]
  · omega
  · -- the bits of `b` kept in hand sit at the top of `buffer`
    rw [show 8 - (bb + 3) = 5 - bb by omega, Nat.mod_mod_of_dvd _ (Nat.pow_dvd_pow 2 (by omega) :
      2 ^ (5 - bb) ∣ 2 ^ 8), Nat.mul_mod_left]
  · clear hlen hshl
    interval_cases bb <;> omega

/-- The step lemma of `write_base32`'s loop. -/
theorem Spells.push (hs : s.Spells read) (b : UInt8) : (s.push b).Spells (read ++ [b]) :=
  hs.flushFull.1.pushByte hs.flushFull.2 b

/-- The run lemma of `write_base32`'s loop. -/
theorem Spells.foldl (hs : s.Spells read) (bytes : List UInt8) :
    (bytes.foldl WriteState.push s).Spells (read ++ bytes) := by
  induction bytes generalizing s read with
  | nil => simpa using hs
  | cons b bytes ih => simpa using ih (hs.push b)

end WriteState

/-- `write_base32` in closed form: the big-endian bits of the bytes, followed by the fewest zero
bits that fill the last digit. -/
theorem writeBase32_eq (bytes : List UInt8) :
    (writeBase32 bytes).length = (8 * bytes.length + 4) / 5 ∧
      fromBeDigits (writeBase32 bytes) =
        fromBeBytes bytes * 2 ^ (5 * ((8 * bytes.length + 4) / 5) - 8 * bytes.length) := by
  have hs := WriteState.spells_init.foldl bytes
  rw [List.nil_append] at hs
  obtain ⟨⟨hle, hlen, hlow, hval⟩, hbb⟩ := hs.flushFull
  simp only [writeBase32, WriteState.finish]
  generalize (bytes.foldl WriteState.push ⟨[], 0, 0⟩).flushFull = s at hle hlen hlow hval hbb ⊢
  obtain ⟨writer, buffer, bb⟩ := s
  simp only at hle hlen hlow hval hbb ⊢
  have hB : buffer.toNat < 256 := UInt8.toNat_lt_size buffer
  have hshr : (buffer >>> 3).toNat = buffer.toNat / 8 := by
    rw [UInt8.toNat_shiftRight]
    rfl
  rw [← hval]
  by_cases h0 : bb = 0
  · subst h0
    simp only [ne_eq, not_true_eq_false, ↓reduceIte]
    rw [show 5 * ((8 * bytes.length + 4) / 5) - 8 * bytes.length = 0 by omega]
    constructor <;> omega
  · simp only [ne_eq, h0, not_false_eq_true, ↓reduceIte, List.length_append,
      List.length_singleton, fromBeDigits_append_singleton, toNat_u5, hshr]
    rw [show 5 * ((8 * bytes.length + 4) / 5) - 8 * bytes.length = 5 - bb by omega]
    constructor
    · omega
    · clear hlen hle hshr
      interval_cases bb <;> omega

/-- The byte `0b10101_011` writes as the digits `0b10101` and `0b011_00`. -/
example : writeBase32 [171] = [u5 21, u5 12] := rfl

/-! ## `convert_bits` -/

/-- The inner `while bits >= to` loop of `convert_bits`: each round moves the top `to` bits in
hand, the low `bits` bits of `acc`, out to `ret`. A round lowers `bits` by `to`, which is at
least one (`convert_bits` panics otherwise), so `bits` rounds are enough. -/
def drain (acc maxv : UInt32) (toBits : Nat) :
    (fuel bits : Nat) → List UInt8 → Nat × List UInt8
  | 0, bits, ret => (bits, ret)
  | fuel + 1, bits, ret =>
    if bits ≥ toBits then
      drain acc maxv toBits fuel (bits - toBits)
        (ret ++ [((acc >>> (bits - toBits).toUInt32) &&& maxv).toUInt8])
    else (bits, ret)

/-- The locals of `convert_bits`'s loop: the bits in hand are the low `bits` bits of `acc`, and
`ret` holds the groups emitted so far. -/
structure ConvertState where
  acc : UInt32
  bits : Nat
  ret : List UInt8

/-- One `value` of `convert_bits`'s `for value in data` loop; `Err` is its early return on a
value wider than `from` bits. -/
def ConvertState.push (fromBits toBits : Nat) (maxv : UInt32) (s : ConvertState)
    (value : UInt8) : Except Error ConvertState :=
  let v : UInt32 := value.toUInt32
  if v >>> fromBits.toUInt32 ≠ 0 then .error (.invalidData v.toUInt8)
  else
    let acc := (s.acc <<< fromBits.toUInt32) ||| v
    let drained := drain acc maxv toBits (s.bits + fromBits) (s.bits + fromBits) s.ret
    .ok ⟨acc, drained.1, drained.2⟩

/-- `bech32::convert_bits`: regroup `from`-bit values into `to`-bit ones, most significant bit
first; `none` is its panic on a width outside `1..=8`. The widths are `u32`s in the crate, and
`bits` never passes `from + to`, so `Nat` arithmetic on them is the crate's. -/
def convertBits (data : List UInt8) (fromBits toBits : Nat) (pad : Bool) :
    Option (Except Error (List UInt8)) :=
  if fromBits > 8 ∨ toBits > 8 ∨ fromBits = 0 ∨ toBits = 0 then none
  else
    let maxv : UInt32 := (1 <<< toBits.toUInt32) - 1
    some do
      let s ← data.foldlM (ConvertState.push fromBits toBits maxv) ⟨0, 0, []⟩
      if pad then
        if s.bits > 0 then
          pure (s.ret ++ [((s.acc <<< (toBits - s.bits).toUInt32) &&& maxv).toUInt8])
        else pure s.ret
      else if s.bits ≥ fromBits ∨ (s.acc <<< (toBits - s.bits).toUInt32) &&& maxv ≠ 0 then
        throw .invalidPadding
      else pure s.ret

/-- `<Vec<u8> as FromBase32>::from_base32`: `convert_bits(b32, 5, 8, false)`. -/
def fromBase32 (b32 : List U5) : Option (Except Error (List UInt8)) :=
  convertBits (b32.map U5.toU8) 5 8 false

namespace ConvertState

/-- What `convert_bits`'s loop keeps, from five bits to eight, after reading `read`: the bytes
emitted, followed by the `bits` low bits of `acc`, spell `read`, and fewer than a byte is in
hand. -/
structure Holds (s : ConvertState) (read : List U5) : Prop where
  bits_lt : s.bits < 8
  length_ret : 8 * s.ret.length + s.bits = 5 * read.length
  value : fromBeBytes s.ret * 2 ^ s.bits + s.acc.toNat % 2 ^ s.bits = fromBeDigits read

theorem holds_init : Holds ⟨0, 0, []⟩ [] := ⟨by decide, rfl, rfl⟩

theorem drain_of_lt {acc maxv : UInt32} {toBits fuel bits : Nat} {ret : List UInt8}
    (h : bits < toBits) : drain acc maxv toBits fuel bits ret = (bits, ret) := by
  cases fuel <;> simp [drain, Nat.not_le.2 h]

theorem drain_succ_of_le {acc maxv : UInt32} {toBits fuel bits : Nat} {ret : List UInt8}
    (h : toBits ≤ bits) : drain acc maxv toBits (fuel + 1) bits ret =
      drain acc maxv toBits fuel (bits - toBits)
        (ret ++ [((acc >>> (bits - toBits).toUInt32) &&& maxv).toUInt8]) := by
  simp [drain, h]

/-- `bits` rounds are always enough: `drain` stops with fewer than `to` bits in hand, as the
`while` loop does. -/
theorem drain_fst_lt {acc maxv : UInt32} {toBits : Nat} (hto : 0 < toBits) :
    ∀ {fuel bits : Nat} {ret : List UInt8}, bits ≤ fuel →
      (drain acc maxv toBits fuel bits ret).1 < toBits
  | 0, bits, _, h => by simp only [drain]; omega
  | fuel + 1, bits, ret, h => by
    by_cases hb : toBits ≤ bits
    · rw [drain_succ_of_le hb]
      exact drain_fst_lt hto (by omega)
    · rw [drain_of_lt (by omega)]
      omega

/-- A digit goes into `acc` below the bits already there, and passes the width check. -/
theorem push_u5 (s : ConvertState) (d : U5) :
    s.push 5 8 255 d.toU8 =
      .ok ⟨(s.acc <<< (5 : Nat).toUInt32) ||| d.toU8.toUInt32,
        (drain ((s.acc <<< (5 : Nat).toUInt32) ||| d.toU8.toUInt32) 255 8 (s.bits + 5)
          (s.bits + 5) s.ret).1,
        (drain ((s.acc <<< (5 : Nat).toUInt32) ||| d.toU8.toUInt32) 255 8 (s.bits + 5)
          (s.bits + 5) s.ret).2⟩ := by
  have hwide : d.toU8.toUInt32 >>> (5 : Nat).toUInt32 = 0 := by
    rw [UInt32.eq_zero_iff, UInt32.toNat_shiftRight_toUInt32 _ (by decide), UInt8.toNat_toUInt32]
    exact Nat.div_eq_of_lt d.lt
  simp only [ConvertState.push, hwide, ne_eq, not_true_eq_false, ↓reduceIte]

variable {s : ConvertState} {read : List U5}

/-- The step lemma of `convert_bits`'s loop: a digit is never too wide, and it keeps the
spelling, one digit further on. -/
theorem Holds.push (hs : s.Holds read) (d : U5) :
    ∃ s', s.push 5 8 255 d.toU8 = .ok s' ∧ s'.Holds (read ++ [d]) := by
  refine ⟨_, push_u5 s d, ?_⟩
  obtain ⟨acc, bits, ret⟩ := s
  obtain ⟨hbits, hlen, hval⟩ := hs
  simp only at hbits hlen hval ⊢
  have hd := d.lt
  have hacc : acc.toNat < 2 ^ 32 := UInt32.toNat_lt_size acc
  have hor : ((acc <<< (5 : Nat).toUInt32) ||| d.toU8.toUInt32).toNat =
      acc.toNat * 32 % 2 ^ 32 + d.toU8.toNat := by
    rw [UInt32.toNat_lor, UInt32.toNat_shiftLeft_toUInt32 _ (by decide), UInt8.toNat_toUInt32]
    exact lor_eq_add_of_mod (k := 5) (by omega) hd
  by_cases h8 : 8 ≤ bits + 5
  · -- a whole byte is in hand: one round emits it
    rw [drain_succ_of_le h8, drain_of_lt (by omega)]
    refine ⟨?_, ?_, ?_⟩ <;>
      simp only [UInt32.toNat_toUInt8, UInt32.toNat_land_255,
        UInt32.toNat_shiftRight_toUInt32 _ (by omega : bits + 5 - 8 < 32), hor,
        List.length_append, List.length_singleton, fromBeBytes_append_singleton,
        fromBeDigits_append_singleton, ← hval]
    · omega
    · omega
    · have h3 : 3 ≤ bits := by omega
      clear hlen hor h8
      interval_cases bits <;> omega
  · -- fewer than eight bits: they all stay in hand
    rw [drain_of_lt (by omega)]
    refine ⟨?_, ?_, ?_⟩ <;>
      simp only [hor, fromBeDigits_append_singleton, List.length_append, List.length_singleton,
        ← hval]
    · omega
    · omega
    · have h2 : bits ≤ 2 := by omega
      clear hlen hor h8
      interval_cases bits <;> omega

/-- The run lemma of `convert_bits`'s loop. -/
theorem Holds.foldlM (hs : s.Holds read) (digits : List U5) :
    ∃ s', (digits.map U5.toU8).foldlM (ConvertState.push 5 8 255) s = .ok s' ∧
      s'.Holds (read ++ digits) := by
  induction digits generalizing s read with
  | nil => exact ⟨s, rfl, by simpa using hs⟩
  | cons d digits ih =>
    obtain ⟨s₁, h₁, hs₁⟩ := hs.push d
    obtain ⟨s', h', hs'⟩ := ih hs₁
    refine ⟨s', ?_, by simpa using hs'⟩
    rw [List.map_cons, List.foldlM_cons, h₁]
    exact h'

/-- The padding test after the loop: shifted up to a whole byte, the bits in hand are zero
exactly when they are. -/
theorem pad_eq_zero_iff (acc : UInt32) {bits : Nat} (hbits : bits < 8) :
    (acc <<< (8 - bits).toUInt32) &&& 255 = 0 ↔ acc.toNat % 2 ^ bits = 0 := by
  have h256 : (256 : Nat) = 2 ^ bits * 2 ^ (8 - bits) := by
    rw [← Nat.pow_add, Nat.add_sub_cancel' hbits.le]
  have hdvd : 256 ∣ 2 ^ 32 := Nat.pow_dvd_pow 2 (by decide : 8 ≤ 32)
  rw [UInt32.eq_zero_iff, UInt32.toNat_land_255,
    UInt32.toNat_shiftLeft_toUInt32 _ (by omega : 8 - bits < 32), Nat.mod_mod_of_dvd _ hdvd, h256,
    Nat.mul_mod_mul_right, Nat.mul_eq_zero]
  simp [Nat.pos_iff_ne_zero.1 (Nat.two_pow_pos _)]

end ConvertState

/-- `Vec::<u8>::from_base32` in closed form: the bytes of the big-endian bits of the digits,
refused when five or more bits are left over or the leftover bits are not zero. -/
theorem fromBase32_eq (b32 : List U5) :
    fromBase32 b32 = some
      (if 5 * b32.length % 8 ≥ 5 ∨ fromBeDigits b32 % 2 ^ (5 * b32.length % 8) ≠ 0 then
        .error .invalidPadding
      else .ok (toBeBytes (5 * b32.length / 8) (fromBeDigits b32 / 2 ^ (5 * b32.length % 8)))) := by
  obtain ⟨⟨acc, bits, ret⟩, hfold, hbits, hlen, hval⟩ := ConvertState.holds_init.foldlM b32
  simp only [List.nil_append] at hbits hlen hval
  have hmaxv : (1 <<< (8 : Nat).toUInt32) - 1 = (255 : UInt32) := rfl
  have hpow : 0 < 2 ^ bits := Nat.two_pow_pos bits
  have hmod : fromBeDigits b32 % 2 ^ bits = acc.toNat % 2 ^ bits := by
    rw [← hval, Nat.mul_comm, Nat.mul_add_mod, Nat.mod_mod]
  have hdiv : fromBeDigits b32 / 2 ^ bits = fromBeBytes ret := by
    rw [← hval, Nat.mul_comm, Nat.mul_add_div hpow, Nat.div_eq_of_lt (Nat.mod_lt _ hpow),
      Nat.add_zero]
  rw [show 5 * b32.length % 8 = bits by omega, show 5 * b32.length / 8 = ret.length by omega,
    hmod, hdiv, toBeBytes_fromBeBytes]
  simp [fromBase32, convertBits, hmaxv, hfold, ConvertState.pad_eq_zero_iff acc hbits]

/-- The last digit of `0b10101_011_01` leaves a set bit over. -/
example : fromBase32 [u5 21, u5 13] = some (.error .invalidPadding) := rfl

/-- Reading back what `write_base32` wrote gives the bytes back, for every byte string: the
zero bits it pads with are fewer than five, and `from_base32` drops exactly those. -/
theorem fromBase32_writeBase32 (bytes : List UInt8) :
    fromBase32 (writeBase32 bytes) = some (.ok bytes) := by
  obtain ⟨hlen, hval⟩ := writeBase32_eq bytes
  have hpad : 5 * ((8 * bytes.length + 4) / 5) % 8 =
      5 * ((8 * bytes.length + 4) / 5) - 8 * bytes.length := by omega
  rw [fromBase32_eq, hlen, hval, hpad,
    show 5 * ((8 * bytes.length + 4) / 5) / 8 = bytes.length by omega,
    Nat.mul_mod_left, Nat.mul_div_cancel _ (Nat.two_pow_pos _), toBeBytes_fromBeBytes,
    if_neg (by omega)]

/-- Every digit string `from_base32` accepts is the one `write_base32` writes for the bytes it
reads, so no two accepted digit strings read as the same bytes. -/
theorem writeBase32_of_fromBase32 {b32 : List U5} {bytes : List UInt8}
    (h : fromBase32 b32 = some (.ok bytes)) : writeBase32 bytes = b32 := by
  rw [fromBase32_eq] at h
  split at h
  · cases h
  · rename_i hpad
    simp only [Option.some.injEq, Except.ok.injEq] at h
    subst h
    obtain ⟨hlen, hval⟩ := writeBase32_eq
      (toBeBytes (5 * b32.length / 8) (fromBeDigits b32 / 2 ^ (5 * b32.length % 8)))
    rw [length_toBeBytes] at hlen hval
    have hp : 5 * b32.length % 8 < 5 := by omega
    have hmod : fromBeDigits b32 % 2 ^ (5 * b32.length % 8) = 0 := by omega
    have hwidth : 5 * ((8 * (5 * b32.length / 8) + 4) / 5) - 8 * (5 * b32.length / 8) =
        5 * b32.length % 8 := by omega
    have hfit : fromBeDigits b32 / 2 ^ (5 * b32.length % 8) < 256 ^ (5 * b32.length / 8) := by
      rw [Nat.div_lt_iff_lt_mul (Nat.two_pow_pos _), show (256 : Nat) = 2 ^ 8 from rfl,
        ← Nat.pow_mul, ← Nat.pow_add, show 8 * (5 * b32.length / 8) + 5 * b32.length % 8 =
          5 * b32.length by omega]
      exact fromBeDigits_lt b32
    refine eq_of_fromBeDigits_eq (by rw [hlen]; omega) ?_
    rw [hval, hwidth, fromBeBytes_toBeBytes, Nat.mod_eq_of_lt hfit,
      Nat.div_mul_cancel (Nat.dvd_of_mod_eq_zero hmod)]

end Lightning.Util.Bech32
