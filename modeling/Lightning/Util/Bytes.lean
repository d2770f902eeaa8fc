import Mathlib.Data.Vector.Basic

/-!
# Bytes, big-endian integers and bits

The byte-level vocabulary the other modules are written in. Integers travel as big-endian
byte strings, `to_be_bytes` and `from_be_bytes` in the Rust code, and `fromBeBytes_toBeBytes`
and `toBeBytes_fromBeBytes` are the two round trips. The bits of a byte are the bits of its
`BitVec 8`; `UInt8.ne_zero_iff_bit` reads a mask test `byte & mask != 0` as "some bit is set in
both", the form in which the feature-flag code is specified.
-/

namespace Lightning

/-! ## Machine integers -/

@[simp] theorem UInt8.toNat_ofNat (n : Nat) : (UInt8.ofNat n).toNat = n % 256 := by
  simp [UInt8.toNat, UInt8.ofNat]

@[simp] theorem UInt16.toNat_ofNat (n : Nat) : (UInt16.ofNat n).toNat = n % 65536 := by
  simp [UInt16.toNat, UInt16.ofNat]

@[simp] theorem UInt64.toNat_ofNat (n : Nat) : (UInt64.ofNat n).toNat = n % 2 ^ 64 := by
  simp [UInt64.toNat, UInt64.ofNat]

theorem UInt64.toNat_add (a b : UInt64) : (a + b).toNat = (a.toNat + b.toNat) % 2 ^ 64 := by
  simp [UInt64.toNat, UInt64.add_def]

@[simp] theorem UInt32.toNat_toUInt64 (a : UInt32) : a.toUInt64.toNat = a.toNat := by
  simp [UInt32.toUInt64, UInt64.toNat, Nat.toUInt64, UInt64.ofNat, UInt32.toNat]

theorem UInt64.ofNat_toNat (a : UInt64) : UInt64.ofNat a.toNat = a :=
  UInt64.toNat.inj (by simp [UInt64.toNat_lt_size])

theorem UInt64.toNat_lor (a b : UInt64) : (a ||| b).toNat = a.toNat ||| b.toNat :=
  BitVec.toNat_or ..

theorem UInt64.toNat_xor (a b : UInt64) : (a ^^^ b).toNat = a.toNat ^^^ b.toNat :=
  BitVec.toNat_xor ..

@[simp] theorem UInt64.xor_self (a : UInt64) : a ^^^ a = 0 :=
  UInt64.toNat.inj (by simp [UInt64.toNat_xor])

theorem UInt64.xor_xor_cancel_right (a b : UInt64) : a ^^^ b ^^^ b = a :=
  UInt64.toNat.inj (by simp [UInt64.toNat_xor, Nat.xor_assoc])

theorem UInt64.le_iff_toNat_le {a b : UInt64} : a ≤ b ↔ a.toNat ≤ b.toNat := Iff.rfl

theorem UInt64.toNat_max (a b : UInt64) : (max a b).toNat = max a.toNat b.toNat := by
  show (if a ≤ b then b else a).toNat = _
  split <;> rename_i h <;> rw [UInt64.le_iff_toNat_le] at h <;> omega

@[simp] theorem UInt64.xor_zero (a : UInt64) : a ^^^ 0 = a :=
  UInt64.toNat.inj (by simp [UInt64.toNat_xor])

theorem UInt64.xor_xor_cancel_left (a b : UInt64) : a ^^^ (a ^^^ b) = b :=
  UInt64.toNat.inj (by simp [UInt64.toNat_xor, ← Nat.xor_assoc])

@[simp] theorem UInt64.toNat_one : (1 : UInt64).toNat = 1 := rfl

theorem UInt64.toNat_inj {a b : UInt64} : a.toNat = b.toNat ↔ a = b :=
  ⟨UInt64.toNat.inj, congrArg _⟩

theorem UInt8.ofNat_toNat (a : UInt8) : UInt8.ofNat a.toNat = a :=
  UInt8.toNat.inj (by simpa using UInt8.toNat_lt_size a)

theorem UInt16.ofNat_toNat (a : UInt16) : UInt16.ofNat a.toNat = a :=
  UInt16.toNat.inj (by simpa using UInt16.toNat_lt_size a)

/-! ## Fallible code

`Result` is `Except`, and `?` is its bind. These lemmas step through `do` blocks without
unfolding the monad instance. -/

@[simp] theorem Except.ok_bind {ε α β : Type} (a : α) (f : α → Except ε β) :
    (Except.ok a >>= f) = f a := rfl

@[simp] theorem Except.error_bind {ε α β : Type} (e : ε) (f : α → Except ε β) :
    (Except.error e >>= f) = Except.error e := rfl

@[simp] theorem Except.pure_eq_ok {ε α : Type} (a : α) : (pure a : Except ε α) = .ok a := rfl

@[simp] theorem Except.throw_eq_error {ε α : Type} (e : ε) :
    (throw e : Except ε α) = .error e := rfl

/-- A bind succeeds exactly when its first computation does and the continuation succeeds on
that value. -/
theorem Except.bind_eq_ok {ε α β : Type} {x : Except ε α} {f : α → Except ε β} {b : β} :
    x >>= f = .ok b ↔ ∃ a, x = .ok a ∧ f a = .ok b := by
  cases x <;> simp

/-! ## Bits of a byte -/

@[simp] theorem UInt8.toBitVec_land (a b : UInt8) :
    (a &&& b).toBitVec = a.toBitVec &&& b.toBitVec := rfl

@[simp] theorem UInt8.toBitVec_lor (a b : UInt8) :
    (a ||| b).toBitVec = a.toBitVec ||| b.toBitVec := rfl

@[simp] theorem UInt8.toBitVec_xor (a b : UInt8) :
    (a ^^^ b).toBitVec = a.toBitVec ^^^ b.toBitVec := rfl

/-- Two bytes are equal when their eight bits are. -/
theorem UInt8.eq_of_bits {a b : UInt8}
    (h : ∀ j < 8, a.toBitVec.getLsbD j = b.toBitVec.getLsbD j) : a = b := by
  apply UInt8.eq_of_toBitVec_eq
  ext j
  exact h j j.isLt

/-- A byte is nonzero exactly when one of its eight bits is set. -/
theorem UInt8.ne_zero_iff_bit {a : UInt8} : a ≠ 0 ↔ ∃ j < 8, a.toBitVec.getLsbD j = true := by
  constructor
  · intro h
    by_contra hbits
    push_neg at hbits
    exact h (UInt8.eq_of_bits fun j hj => by simpa using hbits j hj)
  · rintro ⟨j, -, hj⟩ rfl
    simp at hj

@[simp] theorem UInt8.lor_zero (a : UInt8) : a ||| 0 = a :=
  UInt8.eq_of_toBitVec_eq (by simp)

@[simp] theorem UInt8.land_zero (a : UInt8) : a &&& 0 = 0 :=
  UInt8.eq_of_toBitVec_eq (by simp)

@[simp] theorem UInt8.zero_land (a : UInt8) : 0 &&& a = 0 :=
  UInt8.eq_of_toBitVec_eq (by simp)

@[simp] theorem UInt8.land_255 (a : UInt8) : a &&& 255 = a :=
  UInt8.eq_of_bits fun j hj => by
    have h255 : ∀ j < 8, (255 : UInt8).toBitVec.getLsbD j = true := by decide
    rw [UInt8.toBitVec_land, BitVec.getLsbD_and, h255 j hj, Bool.and_true]

@[simp] theorem UInt8.xor_xor_cancel_left (a b : UInt8) : a ^^^ (a ^^^ b) = b :=
  UInt8.eq_of_toBitVec_eq (by simp [← BitVec.xor_assoc])

/-! ## Big-endian integers -/

/-- `to_be_bytes` of an `8 * n`-bit integer: the `n` low bytes of `x`, most significant
first. -/
def toBeBytes : Nat → Nat → List UInt8
  | 0, _ => []
  | n + 1, x => toBeBytes n (x / 256) ++ [UInt8.ofNat x]

/-- `from_be_bytes`: the integer whose big-endian bytes these are. -/
def fromBeBytes (bytes : List UInt8) : Nat :=
  bytes.foldl (fun acc byte => acc * 256 + byte.toNat) 0

@[simp] theorem length_toBeBytes (n x : Nat) : (toBeBytes n x).length = n := by
  induction n generalizing x <;> simp [toBeBytes, *]

@[simp] theorem fromBeBytes_nil : fromBeBytes [] = 0 := rfl

@[simp] theorem fromBeBytes_append_singleton (bytes : List UInt8) (byte : UInt8) :
    fromBeBytes (bytes ++ [byte]) = fromBeBytes bytes * 256 + byte.toNat := by
  simp [fromBeBytes, List.foldl_append]

/-- Decoding an encoding gives back the integer, reduced to the width written. -/
theorem fromBeBytes_toBeBytes (n x : Nat) : fromBeBytes (toBeBytes n x) = x % 256 ^ n := by
  induction n generalizing x with
  | zero => simp [toBeBytes, Nat.mod_one]
  | succ n ih =>
      rw [toBeBytes, fromBeBytes_append_singleton, ih, UInt8.toNat_ofNat, pow_succ,
        mul_comm (256 ^ n), Nat.mod_mul, Nat.add_comm, Nat.mul_comm]

/-- A decoded integer fits the width of its bytes. -/
theorem fromBeBytes_lt (bytes : List UInt8) : fromBeBytes bytes < 256 ^ bytes.length := by
  induction bytes using List.reverseRecOn with
  | nil => simp
  | append_singleton bytes byte ih =>
      have hbyte := UInt8.toNat_lt_size byte
      simp only [fromBeBytes_append_singleton, List.length_append, List.length_singleton,
        pow_succ]
      change _ < 256 at hbyte
      omega

/-- Encoding a decoded byte string at its own width gives the bytes back. -/
theorem toBeBytes_fromBeBytes (bytes : List UInt8) :
    toBeBytes bytes.length (fromBeBytes bytes) = bytes := by
  induction bytes using List.reverseRecOn with
  | nil => rfl
  | append_singleton bytes byte ih =>
      have hbyte : byte.toNat < 256 := UInt8.toNat_lt_size byte
      have hdiv : (fromBeBytes bytes * 256 + byte.toNat) / 256 = fromBeBytes bytes := by omega
      have hlow : UInt8.ofNat (fromBeBytes bytes * 256 + byte.toNat) = byte :=
        UInt8.toNat.inj (by simp; omega)
      simp only [List.length_append, List.length_singleton, toBeBytes,
        fromBeBytes_append_singleton, hdiv, ih, hlow]

/-- The leading byte of an encoding is the integer's top byte. -/
theorem toBeBytes_succ (n x : Nat) :
    toBeBytes (n + 1) x = UInt8.ofNat (x / 256 ^ n) :: toBeBytes n x := by
  induction n generalizing x with
  | zero => simp [toBeBytes]
  | succ n ih =>
      rw [toBeBytes, ih, toBeBytes, Nat.div_div_eq_div_mul, ← pow_succ']
      rfl

/-- `u64::to_be_bytes`. -/
def u64ToBeBytes (x : UInt64) : Mathlib.Vector UInt8 8 :=
  ⟨toBeBytes 8 x.toNat, length_toBeBytes 8 _⟩

/-- `u64::from_be_bytes`. -/
def u64FromBeBytes (bytes : Mathlib.Vector UInt8 8) : UInt64 :=
  UInt64.ofNat (fromBeBytes bytes.toList)

theorem u64FromBeBytes_u64ToBeBytes (x : UInt64) : u64FromBeBytes (u64ToBeBytes x) = x := by
  have hx : x.toNat < 256 ^ 8 := UInt64.toNat_lt_size x
  simp only [u64FromBeBytes, u64ToBeBytes, Mathlib.Vector.toList_mk, fromBeBytes_toBeBytes,
    Nat.mod_eq_of_lt hx, UInt64.ofNat_toNat]

/-- The first big-endian byte of a `u64` is its top eight bits. -/
theorem u64ToBeBytes_get_zero (x : UInt64) :
    ((u64ToBeBytes x).get 0).toNat = x.toNat / 2 ^ 56 := by
  have hx : x.toNat < 2 ^ 64 := UInt64.toNat_lt_size x
  simp only [u64ToBeBytes, Mathlib.Vector.get_eq_get, Mathlib.Vector.toList_mk, toBeBytes_succ]
  simp only [Fin.cast, Fin.val_zero, List.get_eq_getElem, List.getElem_cons_zero,
    UInt8.toNat_ofNat]
  omega

theorem u64ToBeBytes_zero : u64ToBeBytes 0 = Mathlib.Vector.replicate 8 0 := rfl

/-! ## Byte vectors -/

/-- `Vec::resize(new_len, value)`: truncate to `newLen` elements, or pad with copies of
`value` up to it. -/
def vecResize {α : Type} (v : List α) (newLen : Nat) (value : α) : List α :=
  v.take newLen ++ List.replicate (newLen - v.length) value

@[simp] theorem length_vecResize {α : Type} (v : List α) (newLen : Nat) (value : α) :
    (vecResize v newLen value).length = newLen := by
  simp only [vecResize, List.length_append, List.length_take, List.length_replicate]
  omega

/-- Growing a vector with its own default keeps every defaulted read. -/
theorem getD_vecResize {α : Type} {v : List α} {newLen : Nat} (value : α) (k : Nat)
    (h : v.length ≤ newLen) : (vecResize v newLen value).getD k value = v.getD k value := by
  rw [vecResize, List.take_of_length_le h]
  simp only [List.getD_eq_getElem?_getD, List.getElem?_append]
  split
  · rfl
  · have hv : v[k]? = none := List.getElem?_eq_none (by omega)
    simp only [hv, List.getElem?_replicate]
    split <;> rfl

/-- Two byte vectors of one length that agree at every index are equal. -/
theorem bytes_ext_getD {xs ys : List UInt8} (hlen : xs.length = ys.length)
    (h : ∀ k, xs.getD k 0 = ys.getD k 0) : xs = ys := by
  apply List.ext_getElem hlen
  intro k hx hy
  simpa [List.getD_eq_getElem?_getD, List.getElem?_eq_getElem hx,
    List.getElem?_eq_getElem hy] using h k

end Lightning
