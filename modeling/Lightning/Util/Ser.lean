import Lightning.Util.Bytes

/-!
# Serialization primitives

`util/ser.rs` is not among the sources. The two encodings the feature bitfields go through are
modelled from the spec's wire layout: a `u16` is two big-endian bytes, and a `Vec<u8>` is its
`u16` big-endian length followed by that many bytes. A reader is the input not yet consumed,
so each read returns its value together with the rest, and a read that runs out of input
fails with `ShortRead`. `readU16_writeU16` and `readU16_eq_ok` are the round trips in the two
directions.
-/

namespace Lightning.Util.Ser

/-- `DecodeError`, with the one variant these readers raise: the input ended early. -/
inductive DecodeError where
  | shortRead
deriving DecidableEq, Repr

/-- Modelled from the spec: `Writeable for u16`, two big-endian bytes. -/
def writeU16 (x : UInt16) : List UInt8 := toBeBytes 2 x.toNat

/-- Modelled from the spec: `Readable for u16`, `read_exact` of two bytes read big-endian. -/
def readU16 : List UInt8 → Except DecodeError (UInt16 × List UInt8)
  | b0 :: b1 :: rest => .ok (UInt16.ofNat (fromBeBytes [b0, b1]), rest)
  | _ => .error .shortRead

/-- Modelled from the spec: `Readable for Vec<u8>`, a `u16` length and then `read_exact` of
that many bytes. -/
def readVecU8 (r : List UInt8) : Except DecodeError (List UInt8 × List UInt8) := do
  let (len, r) ← readU16 r
  if len.toNat ≤ r.length then pure (r.take len.toNat, r.drop len.toNat)
  else throw .shortRead

@[simp] theorem length_writeU16 (x : UInt16) : (writeU16 x).length = 2 := by
  simp [writeU16]

theorem readU16_writeU16 (x : UInt16) (rest : List UInt8) :
    readU16 (writeU16 x ++ rest) = .ok (x, rest) := by
  have henc := fromBeBytes_toBeBytes 2 x.toNat
  have hx : x.toNat < 256 ^ 2 := UInt16.toNat_lt_size x
  simp only [writeU16, toBeBytes] at henc ⊢
  simp only [List.nil_append, List.singleton_append, List.cons_append, readU16] at henc ⊢
  rw [henc, Nat.mod_eq_of_lt hx, UInt16.ofNat_toNat]

/-- A successful `u16` read consumed the encoding of the value it returned. -/
theorem readU16_eq_ok {r rest : List UInt8} {x : UInt16} (h : readU16 r = .ok (x, rest)) :
    writeU16 x ++ rest = r := by
  match r, h with
  | b0 :: b1 :: rest, h =>
      simp only [readU16, Except.ok.injEq, Prod.mk.injEq] at h
      obtain ⟨rfl, rfl⟩ := h
      have hpow : fromBeBytes [b0, b1] < 256 ^ 2 := fromBeBytes_lt [b0, b1]
      have hlt : fromBeBytes [b0, b1] < 65536 := by simpa using hpow
      have hdec : toBeBytes 2 (fromBeBytes [b0, b1]) = [b0, b1] :=
        toBeBytes_fromBeBytes [b0, b1]
      rw [writeU16, UInt16.toNat_ofNat, Nat.mod_eq_of_lt hlt, hdec]
      rfl

theorem readVecU8_eq_ok {r bytes rest : List UInt8}
    (h : readVecU8 r = .ok (bytes, rest)) :
    ∃ len : UInt16, readU16 r = .ok (len, bytes ++ rest) ∧ bytes.length = len.toNat := by
  obtain ⟨⟨len, r'⟩, hr, h⟩ := Except.bind_eq_ok.1 h
  simp only at h
  split at h
  · simp only [Except.pure_eq_ok, Except.ok.injEq, Prod.mk.injEq] at h
    obtain ⟨rfl, rfl⟩ := h
    exact ⟨len, by simp [hr], by simp; omega⟩
  · cases h

theorem readVecU8_write (bytes rest : List UInt8) (hlen : bytes.length < 2 ^ 16) :
    readVecU8 (writeU16 (UInt16.ofNat bytes.length) ++ bytes ++ rest) = .ok (bytes, rest) := by
  have hl : (UInt16.ofNat bytes.length).toNat = bytes.length := by
    simpa using Nat.mod_eq_of_lt hlen
  simp [readVecU8, List.append_assoc, readU16_writeU16, hl]

end Lightning.Util.Ser
