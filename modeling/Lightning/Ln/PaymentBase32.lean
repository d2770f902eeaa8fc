import Lightning.Ln.Payment
import Lightning.Util.Bech32

/-!
# A payment secret in base32

`ln/mod.rs` reads and writes a `PaymentSecret` as the base32 digits of an invoice field.
Writing is the `bech32` crate's `write_base32` of the secret's 32 bytes. Reading refuses any
field but 52 digits long, converts the digits to bytes with `Vec::<u8>::from_base32`, and copies
those bytes into a 32-byte array with `copy_from_slice`, which panics unless there are exactly
32 of them.

`PaymentSecret.fromBase32_spec` is reading in closed form, from the crate's closed forms: 52
digits carry 260 bits, the 32 bytes and 4 padding bits, so 32 bytes always come out, and the
read succeeds exactly when the 4 padding bits are zero.
-/

namespace Lightning.Ln

open Util.Bech32

namespace PaymentSecret

/-- `payment_secret.copy_from_slice(&data_bytes)` into `[0; 32]`; `none` is its panic when the
lengths differ. -/
def copyFromSlice (src : List UInt8) : Option (Mathlib.Vector UInt8 32) :=
  if h : src.length = 32 then some ⟨src, h⟩ else none

/-- `<PaymentSecret as FromBase32>::from_base32`; `none` is a panic. -/
def fromBase32 (fieldData : List U5) : Option (Except Error PaymentSecret) :=
  if fieldData.length ≠ 52 then some (.error .invalidLength)
  else
    match Util.Bech32.fromBase32 fieldData with
    | none => none
    | some (.error e) => some (.error e)
    | some (.ok dataBytes) =>
      (copyFromSlice dataBytes).map fun paymentSecret => .ok ⟨paymentSecret⟩

/-- `<PaymentSecret as ToBase32>::write_base32` into a `Vec<u5>`: the secret's bytes as a
slice. -/
def writeBase32 (self : PaymentSecret) : List U5 :=
  Util.Bech32.writeBase32 self.bytes.toList

/-- `<PaymentSecret as Base32Len>::base32_len`. -/
def base32Len (_ : PaymentSecret) : Nat := 52

/-- 52 digits read as the 32 bytes of their top 256 bits. -/
theorem fromBase32_of_length {fieldData : List U5} (hlen : fieldData.length = 52) :
    Util.Bech32.fromBase32 fieldData = some
      (if fromBeDigits fieldData % 16 ≠ 0 then .error .invalidPadding
      else .ok (toBeBytes 32 (fromBeDigits fieldData / 16))) := by
  rw [Util.Bech32.fromBase32_eq, hlen]
  simp

/-- `from_base32` in closed form. -/
theorem fromBase32_spec (fieldData : List U5) :
    fromBase32 fieldData = some
      (if fieldData.length ≠ 52 then .error .invalidLength
      else if fromBeDigits fieldData % 16 ≠ 0 then .error .invalidPadding
      else .ok ⟨⟨toBeBytes 32 (fromBeDigits fieldData / 16), length_toBeBytes 32 _⟩⟩) := by
  by_cases hlen : fieldData.length = 52
  · rw [fromBase32, if_neg (not_not_intro hlen), fromBase32_of_length hlen,
      if_neg (not_not_intro hlen)]
    by_cases hpad : fromBeDigits fieldData % 16 = 0 <;> simp [hpad, copyFromSlice]
  · rw [fromBase32, if_pos hlen, if_pos hlen]

/-- A secret writes 52 digits. -/
theorem length_writeBase32 (s : PaymentSecret) : s.writeBase32.length = 52 := by
  rw [writeBase32, (Util.Bech32.writeBase32_eq _).1, s.bytes.toList_length]

/-- A secret reads back from the digits it writes. -/
theorem fromBase32_writeBase32 (s : PaymentSecret) : fromBase32 s.writeBase32 = some (.ok s) := by
  obtain ⟨⟨bytes, hbytes⟩⟩ := s
  have hlen : (Util.Bech32.writeBase32 bytes).length = 52 := length_writeBase32 ⟨⟨bytes, hbytes⟩⟩
  simp [fromBase32, writeBase32, hlen, Util.Bech32.fromBase32_writeBase32, copyFromSlice, hbytes]

/-- The padding bits of 52 digits are the low four bits of the last one. -/
theorem padding_eq_zero_iff (init : List U5) (last : U5) :
    fromBeDigits (init ++ [last]) % 16 = 0 ↔ last.toU8 &&& 0b1111 = 0 := by
  rw [fromBeDigits_append_singleton, UInt8.eq_zero_iff, UInt8.and_toNat,
    show (0b1111 : UInt8).toNat = 2 ^ 4 - 1 from rfl, Nat.and_pow_two_sub_one_eq_mod]
  omega

/-- A field that reads as a secret is the field that secret writes: no two fields read as the
same secret. -/
theorem writeBase32_of_fromBase32_eq_ok {fieldData : List U5} {s : PaymentSecret}
    (h : fromBase32 fieldData = some (.ok s)) : s.writeBase32 = fieldData := by
  by_cases hlen : fieldData.length = 52
  · rw [fromBase32, if_neg (not_not_intro hlen)] at h
    split at h
    · cases h
    · simp at h
    · rename_i dataBytes hread
      unfold copyFromSlice at h
      split at h
      · simp only [Option.map_some', Option.some.injEq, Except.ok.injEq] at h
        subst h
        exact Util.Bech32.writeBase32_of_fromBase32 hread
      · cases h
  · simp [fromBase32, hlen] at h

theorem writeBase32_of_fromBase32_eq_ok_sample :
    fromBase32 (PaymentSecret.writeBase32 ⟨Mathlib.Vector.replicate 32 7⟩) =
        some (.ok ⟨Mathlib.Vector.replicate 32 7⟩) ∧
      PaymentSecret.writeBase32 ⟨Mathlib.Vector.replicate 32 7⟩ =
        PaymentSecret.writeBase32 ⟨Mathlib.Vector.replicate 32 7⟩ :=
  ⟨fromBase32_writeBase32 _, writeBase32_of_fromBase32_eq_ok (fromBase32_writeBase32 _)⟩

end PaymentSecret

/-- The base32 codec of a payment secret. Every secret reads back from the 52 digits it writes.
Reading never panics: when there are 52 digits and they convert to bytes, there are exactly 32
bytes to copy. It succeeds exactly on 52 digits whose last four bits, the padding, are zero. -/
theorem payment_secret_base32_codec :
    (∀ s : PaymentSecret, PaymentSecret.fromBase32 s.writeBase32 = some (.ok s) ∧
      s.writeBase32.length = s.base32Len ∧ s.base32Len = 52) ∧
    ∀ fieldData : List U5, (∃ r, PaymentSecret.fromBase32 fieldData = some r) ∧
      (fieldData.length = 52 → ∀ dataBytes,
        Util.Bech32.fromBase32 fieldData = some (.ok dataBytes) → dataBytes.length = 32) ∧
      ((∃ s, PaymentSecret.fromBase32 fieldData = some (.ok s)) ↔
        fieldData.length = 52 ∧ ∃ d, fieldData.getLast? = some d ∧ d.toU8 &&& 0b1111 = 0) := by
  refine ⟨fun s => ⟨s.fromBase32_writeBase32, s.length_writeBase32, rfl⟩,
    fun fieldData => ⟨⟨_, PaymentSecret.fromBase32_spec fieldData⟩, ?_, ?_⟩⟩
  · intro hlen dataBytes h
    rw [PaymentSecret.fromBase32_of_length hlen] at h
    split at h
    · simp only [Option.some.injEq, reduceCtorEq] at h
    · simp only [Option.some.injEq, Except.ok.injEq] at h
      rw [← h, length_toBeBytes]
  · rw [PaymentSecret.fromBase32_spec]
    rcases List.eq_nil_or_concat fieldData with rfl | ⟨init, last, rfl⟩
    · simp
    · simp only [List.concat_eq_append, ne_eq, PaymentSecret.padding_eq_zero_iff]
      by_cases hlen : init.length = 51 <;>
        by_cases hpad : last.toU8 &&& 0b1111 = 0 <;> simp [hlen, hpad]

end Lightning.Ln
