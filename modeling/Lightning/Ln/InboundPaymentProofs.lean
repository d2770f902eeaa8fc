import Lightning.Ln.InboundPayment

/-!
# Inbound payments round-trip

What `create` and `create_from_hash` encode, `verify` and `get_payment_preimage` decode. The
secret codec inverts (`decryptMetadata_constructPaymentSecret`) for any cipher, because the
same keystream block is XOR-ed in twice. The metadata codec inverts
(`decode_constructMetadataBytes`) because an amount of at most `MAX_VALUE_MSAT` leaves the top
three bits of byte 0 free for the payment type. `verify_eq` splits `verify` into its
authentication step and its amount and expiry checks.
-/

namespace Lightning.Ln.InboundPayment

open Mathlib

variable (prims : Primitives)

/-! ## The secret codec -/

@[simp] theorem takeIv_constructPaymentSecret (ivBytes metadataBytes : Vector UInt8 16)
    (metadataKey : Vector UInt8 32) :
    takeIv (constructPaymentSecret prims ivBytes metadataBytes metadataKey).bytes = ivBytes := by
  apply Vector.ext
  intro i
  simp [takeIv, constructPaymentSecret]

/-- Decrypting a constructed secret gives back its IV and metadata, whatever the cipher. -/
theorem decryptMetadata_constructPaymentSecret (ivBytes metadataBytes : Vector UInt8 16)
    (keys : ExpandedKey) :
    decryptMetadata prims (constructPaymentSecret prims ivBytes metadataBytes keys.metadataKey)
      keys = (ivBytes, metadataBytes) := by
  simp only [decryptMetadata, takeIv_constructPaymentSecret, Prod.mk.injEq, true_and]
  apply Vector.ext
  intro i
  have hi : ¬ 16 + i.val < 16 := by omega
  simp [constructPaymentSecret, hi]

/-! ## The metadata codec -/

/-- Amount bytes with the payment type OR-ed into the top three bits of byte 0, as
`construct_metadata_bytes` prepares them. -/
def setTag (amtBytes : Vector UInt8 8) (paymentType : Method) : Vector UInt8 8 :=
  amtBytes.set 0 (amtBytes.get 0 ||| paymentType.toU8 <<< methodTypeOffset.toUInt8)

/-- Amount bytes followed by expiry bytes, the layout of the metadata block. -/
def joinMetadata (amtBytes expiryBytes : Vector UInt8 8) : Vector UInt8 16 :=
  Vector.ofFn fun i =>
    if h : i.val < 8 then amtBytes.get ⟨i.val, h⟩ else expiryBytes.get ⟨i.val - 8, by omega⟩

theorem constructMetadataBytes_eq_error {v : UInt64} (hv : maxValueMsat < v) (t : Method)
    (d : UInt32) (ts : UInt64) : constructMetadataBytes (some v) t d ts = .error () := by
  simp [constructMetadataBytes, hv]

theorem constructMetadataBytes_eq_ok {m : Option UInt64} (hm : m.getD 0 ≤ maxValueMsat)
    (t : Method) (d : UInt32) (ts : UInt64) :
    constructMetadataBytes m t d ts =
      .ok (joinMetadata (setTag (u64ToBeBytes (m.getD 0)) t)
        (u64ToBeBytes (ts + d.toUInt64 + 7200))) := by
  cases m with
  | none => rfl
  | some v =>
      have hv : ¬ maxValueMsat < v := by simpa using hm
      simp [constructMetadataBytes, hv, setTag, joinMetadata]

/-- Packing a type below eight into the top three bits of a byte below 32 loses neither. -/
theorem tag_byte_ofNat : ∀ b < 32, ∀ t < 8,
    ((UInt8.ofNat b ||| UInt8.ofNat t <<< methodTypeOffset.toUInt8) &&& 0b11100000) >>>
        methodTypeOffset.toUInt8 = UInt8.ofNat t ∧
      (UInt8.ofNat b ||| UInt8.ofNat t <<< methodTypeOffset.toUInt8) &&& 0b00011111 =
        UInt8.ofNat b := by
  decide

theorem fromBits_toU8 (m : Method) : Method.fromBits m.toU8 = .ok m := by
  cases m <;> rfl

theorem toNat_toU8_lt (m : Method) : m.toU8.toNat < 8 := by
  cases m <;> decide

theorem methodOf_joinMetadata {amtBytes : Vector UInt8 8} (ha : (amtBytes.get 0).toNat < 32)
    (t : Method) (expiryBytes : Vector UInt8 8) :
    methodOf (joinMetadata (setTag amtBytes t) expiryBytes) = .ok t := by
  have h := (tag_byte_ofNat _ ha _ (toNat_toU8_lt t)).1
  simp only [UInt8.ofNat_toNat] at h
  have h08 : (0 : Nat) < 8 := by decide
  simp only [methodOf, joinMetadata, setTag, Vector.get_ofFn, Fin.val_zero, h08,
    ↓reduceDIte, Fin.zero_eta, Vector.get_set_same, h, fromBits_toU8]

theorem minAmtMsatOf_joinMetadata {amtBytes : Vector UInt8 8}
    (ha : (amtBytes.get 0).toNat < 32) (t : Method) (expiryBytes : Vector UInt8 8) :
    minAmtMsatOf (joinMetadata (setTag amtBytes t) expiryBytes) = u64FromBeBytes amtBytes := by
  have h := (tag_byte_ofNat _ ha _ (toNat_toU8_lt t)).2
  simp only [UInt8.ofNat_toNat] at h
  simp only [minAmtMsatOf]
  congr 1
  apply Vector.ext
  intro i
  by_cases hi : i = 0
  · subst hi
    have h08 : (0 : Nat) < 8 := by decide
    simp only [joinMetadata, setTag, Vector.get_ofFn, Fin.val_zero, h08, ↓reduceDIte,
      Fin.zero_eta, Vector.get_set_same, h]
  · rw [Vector.get_set_of_ne (Ne.symm hi)]
    simp [joinMetadata, setTag, Vector.get_set_of_ne (Ne.symm hi)]

theorem expiryOf_joinMetadata (amtBytes expiryBytes : Vector UInt8 8) :
    expiryOf (joinMetadata amtBytes expiryBytes) = u64FromBeBytes expiryBytes := by
  simp only [expiryOf]
  congr 1
  apply Vector.ext
  intro i
  simp [joinMetadata]

/-- An amount within `MAX_VALUE_MSAT` leaves the top three bits of its first byte clear. -/
theorem get_zero_u64ToBeBytes_lt {amt : UInt64} (h : amt ≤ maxValueMsat) :
    ((u64ToBeBytes amt).get 0).toNat < 32 := by
  have hmax : maxValueMsat.toNat < 2 ^ 61 := by decide
  have hle := UInt64.le_iff_toNat_le.1 h
  rw [u64ToBeBytes_get_zero]
  omega

theorem constructMetadataBytes_eq_error_iff (m : Option UInt64) (t : Method) (d : UInt32)
    (ts : UInt64) :
    constructMetadataBytes m t d ts = .error () ↔ ∃ v, m = some v ∧ maxValueMsat < v := by
  constructor
  · intro h
    by_contra hno
    have hm : m.getD 0 ≤ maxValueMsat := by
      cases m with
      | none => exact UInt64.le_iff_toNat_le.2 (Nat.zero_le _)
      | some v => exact UInt64.not_lt.1 fun hv => hno ⟨v, rfl, hv⟩
    rw [constructMetadataBytes_eq_ok hm] at h
    cases h
  · rintro ⟨v, rfl, hv⟩
    exact constructMetadataBytes_eq_error hv t d ts

/-- What `construct_metadata_bytes` packs, `verify` unpacks: the payment type, the floor
`min_value_msat.unwrap_or(0)` and the expiry. -/
theorem decode_constructMetadataBytes {m : Option UInt64} {t : Method} {d : UInt32}
    {ts : UInt64} {metadataBytes : Vector UInt8 16}
    (h : constructMetadataBytes m t d ts = .ok metadataBytes) :
    methodOf metadataBytes = .ok t ∧ minAmtMsatOf metadataBytes = m.getD 0 ∧
      expiryOf metadataBytes = ts + d.toUInt64 + 7200 := by
  have hm : m.getD 0 ≤ maxValueMsat := by
    cases m with
    | none => exact UInt64.le_iff_toNat_le.2 (Nat.zero_le _)
    | some v =>
        refine UInt64.not_lt.1 fun hv => ?_
        rw [constructMetadataBytes_eq_error (by simpa using hv)] at h
        cases h
  rw [constructMetadataBytes_eq_ok hm, Except.ok.injEq] at h
  subst h
  have ha := get_zero_u64ToBeBytes_lt hm
  exact ⟨methodOf_joinMetadata ha t _, by rw [minAmtMsatOf_joinMetadata ha,
    u64FromBeBytes_u64ToBeBytes], by rw [expiryOf_joinMetadata, u64FromBeBytes_u64ToBeBytes]⟩

/-! ## `verify` as authentication, then the amount and expiry checks -/

/-- The authentication step of `verify`, before any other check: the HMAC comparison for a
user payment hash, the derived preimage for an LDK one, and rejection of an unknown type. -/
def authenticate (paymentHash : PaymentHash) (ivBytes metadataBytes : Vector UInt8 16)
    (keys : ExpandedKey) : Except Unit (Option PaymentPreimage) :=
  match methodOf metadataBytes with
  | .ok .userPaymentHash =>
      if ivBytes ≠ takeIv (prims.hmacSha256 keys.userPmtHashKey
        (metadataBytes.toList ++ paymentHash.bytes.toList)) then .error () else .ok none
  | .ok .ldkPaymentHash =>
      match deriveLdkPaymentPreimage prims paymentHash ivBytes metadataBytes keys with
      | .ok preimage => .ok (some preimage)
      | .error _ => .error ()
  | .error _ => .error ()

/-- `verify` authenticates first, then accepts exactly a total at or above the floor and a
timestamp at or before the expiry that the secret decrypts to. -/
theorem verify_eq (paymentHash : PaymentHash) (paymentSecret : PaymentSecret)
    (totalMsat highestSeenTimestamp : UInt64) (keys : ExpandedKey) :
    verify prims paymentHash ⟨paymentSecret, totalMsat⟩ highestSeenTimestamp keys =
      (authenticate prims paymentHash (decryptMetadata prims paymentSecret keys).1
        (decryptMetadata prims paymentSecret keys).2 keys >>= fun preimage =>
          if minAmtMsatOf (decryptMetadata prims paymentSecret keys).2 ≤ totalMsat ∧
              highestSeenTimestamp ≤ expiryOf (decryptMetadata prims paymentSecret keys).2
          then .ok preimage else .error ()) := by
  rcases hd : decryptMetadata prims paymentSecret keys with ⟨ivBytes, metadataBytes⟩
  simp only [verify, hd, authenticate]
  rcases methodOf metadataBytes with e | _ | _
  · rfl
  · rcases deriveLdkPaymentPreimage prims paymentHash ivBytes metadataBytes keys with e | p
    · rfl
    · by_cases h1 : totalMsat < minAmtMsatOf metadataBytes <;>
        by_cases h2 : expiryOf metadataBytes < highestSeenTimestamp <;>
        simp [h1, h2, ← UInt64.not_lt]
  · by_cases hiv : ivBytes = takeIv (prims.hmacSha256 keys.userPmtHashKey
        (metadataBytes.toList ++ paymentHash.bytes.toList))
    · by_cases h1 : totalMsat < minAmtMsatOf metadataBytes <;>
        by_cases h2 : expiryOf metadataBytes < highestSeenTimestamp <;>
        simp [hiv, h1, h2, ← UInt64.not_lt]
    · simp [hiv]

theorem authenticate_eq_ok_some {paymentHash : PaymentHash}
    {ivBytes metadataBytes : Vector UInt8 16}
    {keys : ExpandedKey} {preimage : PaymentPreimage} :
    authenticate prims paymentHash ivBytes metadataBytes keys = .ok (some preimage) ↔
      methodOf metadataBytes = .ok .ldkPaymentHash ∧
        deriveLdkPaymentPreimage prims paymentHash ivBytes metadataBytes keys = .ok preimage := by
  unfold authenticate
  rcases methodOf metadataBytes with e | _ | _
  · simp
  · rcases deriveLdkPaymentPreimage prims paymentHash ivBytes metadataBytes keys <;> simp
  · by_cases hiv : ivBytes = takeIv (prims.hmacSha256 keys.userPmtHashKey
      (metadataBytes.toList ++ paymentHash.bytes.toList)) <;> simp [hiv]

theorem authenticate_eq_ok_none {paymentHash : PaymentHash}
    {ivBytes metadataBytes : Vector UInt8 16}
    {keys : ExpandedKey} :
    authenticate prims paymentHash ivBytes metadataBytes keys = .ok none ↔
      methodOf metadataBytes = .ok .userPaymentHash ∧ ivBytes = takeIv (prims.hmacSha256
        keys.userPmtHashKey (metadataBytes.toList ++ paymentHash.bytes.toList)) := by
  unfold authenticate
  rcases methodOf metadataBytes with e | _ | _
  · simp
  · rcases deriveLdkPaymentPreimage prims paymentHash ivBytes metadataBytes keys <;> simp
  · by_cases hiv : ivBytes = takeIv (prims.hmacSha256 keys.userPmtHashKey
      (metadataBytes.toList ++ paymentHash.bytes.toList)) <;> simp [hiv]

/-- `get_payment_preimage` succeeds exactly on an LDK payment whose derived preimage hashes to
the payment hash. -/
theorem getPaymentPreimage_eq_ok {paymentHash : PaymentHash} {paymentSecret : PaymentSecret}
    {keys : ExpandedKey} {preimage : PaymentPreimage} :
    getPaymentPreimage prims paymentHash paymentSecret keys = .ok preimage ↔
      methodOf (decryptMetadata prims paymentSecret keys).2 = .ok .ldkPaymentHash ∧
        deriveLdkPaymentPreimage prims paymentHash (decryptMetadata prims paymentSecret keys).1
          (decryptMetadata prims paymentSecret keys).2 keys = .ok preimage := by
  rcases hd : decryptMetadata prims paymentSecret keys with ⟨ivBytes, metadataBytes⟩
  simp only [getPaymentPreimage, hd]
  rcases methodOf metadataBytes with e | _ | _
  · simp
  · rcases deriveLdkPaymentPreimage prims paymentHash ivBytes metadataBytes keys <;>
      simp [Except.mapError]
  · simp

theorem getPaymentPreimage_of_user {paymentHash : PaymentHash} {paymentSecret : PaymentSecret}
    {keys : ExpandedKey}
    (h : methodOf (decryptMetadata prims paymentSecret keys).2 = .ok .userPaymentHash) :
    getPaymentPreimage prims paymentHash paymentSecret keys = .error (.apiMisuseError
      "Expected payment type to be LdkPaymentHash, instead got UserPaymentHash") := by
  rcases hd : decryptMetadata prims paymentSecret keys with ⟨ivBytes, metadataBytes⟩
  rw [hd] at h
  simp only [getPaymentPreimage, hd, h]

/-- A derived preimage always hashes to the payment hash it was checked against. -/
theorem sha256_of_deriveLdkPaymentPreimage {paymentHash : PaymentHash}
    {ivBytes metadataBytes : Vector UInt8 16} {keys : ExpandedKey} {preimage : PaymentPreimage}
    (h : deriveLdkPaymentPreimage prims paymentHash ivBytes metadataBytes keys = .ok preimage) :
    prims.sha256 preimage.bytes.toList = paymentHash.bytes := by
  simp only [deriveLdkPaymentPreimage, ne_eq, ite_not] at h
  split at h
  · cases h
    simp_all
  · cases h

/-- Once authentication has produced its result, `verify` returns it exactly when the amount
and expiry checks pass. -/
theorem verify_of_authenticate {paymentHash : PaymentHash} {paymentSecret : PaymentSecret}
    {keys : ExpandedKey} {ivBytes metadataBytes : Vector UInt8 16}
    {result : Option PaymentPreimage}
    (hd : decryptMetadata prims paymentSecret keys = (ivBytes, metadataBytes))
    (ha : authenticate prims paymentHash ivBytes metadataBytes keys = .ok result)
    (totalMsat highestSeenTimestamp : UInt64) :
    verify prims paymentHash ⟨paymentSecret, totalMsat⟩ highestSeenTimestamp keys =
      if minAmtMsatOf metadataBytes ≤ totalMsat ∧ highestSeenTimestamp ≤ expiryOf metadataBytes
      then .ok result else .error () := by
  rw [verify_eq, hd]
  simp only [ha, Except.ok_bind]

theorem verify_eq_ok {paymentHash : PaymentHash} {paymentSecret : PaymentSecret}
    {keys : ExpandedKey} {totalMsat highestSeenTimestamp : UInt64}
    {result : Option PaymentPreimage} :
    verify prims paymentHash ⟨paymentSecret, totalMsat⟩ highestSeenTimestamp keys = .ok result ↔
      authenticate prims paymentHash (decryptMetadata prims paymentSecret keys).1
        (decryptMetadata prims paymentSecret keys).2 keys = .ok result ∧
      minAmtMsatOf (decryptMetadata prims paymentSecret keys).2 ≤ totalMsat ∧
      highestSeenTimestamp ≤ expiryOf (decryptMetadata prims paymentSecret keys).2 := by
  rw [verify_eq, Except.bind_eq_ok]
  constructor
  · rintro ⟨a, ha, hif⟩
    split at hif
    · cases hif
      exact ⟨ha, ‹_›⟩
    · cases hif
  · rintro ⟨ha, hchecks⟩
    exact ⟨result, ha, if_pos hchecks⟩

/-- `verify` and `get_payment_preimage` agree on every payment hash, secret and key, not only on
secrets this node created. A preimage `verify` returns is the one `get_payment_preimage`
re-derives; a payment `verify` accepts without a preimage is a caller-misuse error there; a
preimage `get_payment_preimage` re-derives is what `verify` returns once the amount and expiry
decoded from the secret are met; and every preimage either returns hashes to the payment
hash. -/
theorem verify_agrees_with_getPaymentPreimage (paymentHash : PaymentHash)
    (paymentSecret : PaymentSecret) (keys : ExpandedKey) (totalMsat highestSeenTimestamp : UInt64) :
    (∀ p, verify prims paymentHash ⟨paymentSecret, totalMsat⟩ highestSeenTimestamp keys =
        .ok (some p) → getPaymentPreimage prims paymentHash paymentSecret keys = .ok p) ∧
    (verify prims paymentHash ⟨paymentSecret, totalMsat⟩ highestSeenTimestamp keys = .ok none →
      ∃ err, getPaymentPreimage prims paymentHash paymentSecret keys =
        .error (.apiMisuseError err)) ∧
    (∀ p, getPaymentPreimage prims paymentHash paymentSecret keys = .ok p →
      verify prims paymentHash ⟨paymentSecret, totalMsat⟩ highestSeenTimestamp keys ≠ .ok none ∧
      (minAmtMsatOf (decryptMetadata prims paymentSecret keys).2 ≤ totalMsat →
        highestSeenTimestamp ≤ expiryOf (decryptMetadata prims paymentSecret keys).2 →
        verify prims paymentHash ⟨paymentSecret, totalMsat⟩ highestSeenTimestamp keys =
          .ok (some p))) ∧
    (∀ p, (verify prims paymentHash ⟨paymentSecret, totalMsat⟩ highestSeenTimestamp keys =
        .ok (some p) ∨ getPaymentPreimage prims paymentHash paymentSecret keys = .ok p) →
      prims.sha256 p.bytes.toList = paymentHash.bytes) := by
  refine ⟨fun p hv => ?_, fun hv => ?_, fun p hg => ?_, fun p hp => ?_⟩
  · exact getPaymentPreimage_eq_ok prims |>.2
      (authenticate_eq_ok_some prims |>.1 (verify_eq_ok prims |>.1 hv).1)
  · have hm := (authenticate_eq_ok_none prims |>.1 (verify_eq_ok prims |>.1 hv).1).1
    exact ⟨_, getPaymentPreimage_of_user prims hm⟩
  · have ha := authenticate_eq_ok_some prims |>.2 (getPaymentPreimage_eq_ok prims |>.1 hg)
    refine ⟨fun hv => ?_, fun hmin hexp => verify_eq_ok prims |>.2 ⟨ha, hmin, hexp⟩⟩
    have hm := (authenticate_eq_ok_none prims |>.1 (verify_eq_ok prims |>.1 hv).1).1
    rw [(getPaymentPreimage_eq_ok prims |>.1 hg).1] at hm
    cases hm
  · rcases hp with hv | hg
    · exact sha256_of_deriveLdkPaymentPreimage prims
        (authenticate_eq_ok_some prims |>.1 (verify_eq_ok prims |>.1 hv).1).2
    · exact sha256_of_deriveLdkPaymentPreimage prims (getPaymentPreimage_eq_ok prims |>.1 hg).2

/-! ## Creating, then verifying -/

theorem create_eq_error_iff (keys : ExpandedKey) (m : Option UInt64) (d : UInt32)
    (keysManager : KeysInterface) (ts : UInt64) :
    create prims keys m d keysManager ts = .error () ↔ ∃ v, m = some v ∧ maxValueMsat < v := by
  rw [← constructMetadataBytes_eq_error_iff m .ldkPaymentHash d ts]
  unfold create
  cases constructMetadataBytes m .ldkPaymentHash d ts <;> simp

theorem createFromHash_eq_error_iff (keys : ExpandedKey) (m : Option UInt64)
    (paymentHash : PaymentHash) (d : UInt32) (ts : UInt64) :
    createFromHash prims keys m paymentHash d ts = .error () ↔
      ∃ v, m = some v ∧ maxValueMsat < v := by
  rw [← constructMetadataBytes_eq_error_iff m .userPaymentHash d ts]
  unfold createFromHash
  cases constructMetadataBytes m .userPaymentHash d ts <;> simp

/-- Without overflow, the expiry `construct_metadata_bytes` computes is the plain sum. -/
theorem toNat_expiry {ts : UInt64} {d : UInt32} (h : ts.toNat + d.toNat + 7200 < 2 ^ 64) :
    (ts + d.toUInt64 + 7200).toNat = ts.toNat + d.toNat + 7200 := by
  have h7200 : (7200 : UInt64).toNat = 7200 := rfl
  rw [UInt64.toNat_add, UInt64.toNat_add, UInt32.toNat_toUInt64, h7200]
  omega

/-- A timestamp is within the expiry `construct_metadata_bytes` computes exactly when it is
within the plain sum, as long as the sum does not overflow. -/
theorem le_expiry_iff {ts : UInt64} {d : UInt32} (hts : ts.toNat + d.toNat + 7200 < 2 ^ 64)
    (t : UInt64) : t ≤ ts + d.toUInt64 + 7200 ↔ t.toNat ≤ ts.toNat + d.toNat + 7200 := by
  rw [UInt64.le_iff_toNat_le, toNat_expiry hts]

/-- An LDK payment hash and secret from `create`: `get_payment_preimage` returns a preimage of
the hash, and `verify` returns it exactly within the floor and the expiry. -/
theorem verify_create {keys : ExpandedKey} {minValueMsat : Option UInt64}
    {invoiceExpiryDeltaSecs : UInt32} {keysManager : KeysInterface}
    {highestSeenTimestamp : UInt64}
    (hts : highestSeenTimestamp.toNat + invoiceExpiryDeltaSecs.toNat + 7200 < 2 ^ 64)
    {paymentHash : PaymentHash} {paymentSecret : PaymentSecret}
    (hc : create prims keys minValueMsat invoiceExpiryDeltaSecs keysManager
      highestSeenTimestamp = .ok (paymentHash, paymentSecret)) :
    ∃ p : PaymentPreimage, prims.sha256 p.bytes.toList = paymentHash.bytes ∧
      getPaymentPreimage prims paymentHash paymentSecret keys = .ok p ∧
      ∀ totalMsat t, verify prims paymentHash ⟨paymentSecret, totalMsat⟩ t keys =
        if minValueMsat.getD 0 ≤ totalMsat ∧
            t.toNat ≤ highestSeenTimestamp.toNat + invoiceExpiryDeltaSecs.toNat + 7200
        then .ok (some p) else .error () := by
  obtain ⟨metadataBytes, hmd, hp⟩ := Except.bind_eq_ok.1 hc
  simp only [Except.pure_eq_ok, Except.ok.injEq, Prod.mk.injEq] at hp
  generalize takeIv keysManager.getSecureRandomBytes = ivBytes at hp
  generalize hpre : prims.hmacSha256 keys.ldkPmtHashKey
    (ivBytes.toList ++ metadataBytes.toList) = preimageBytes at hp
  obtain ⟨rfl, rfl⟩ := hp
  obtain ⟨hmethod, hmin, hexpiry⟩ := decode_constructMetadataBytes hmd
  have hd := decryptMetadata_constructPaymentSecret prims ivBytes metadataBytes keys
  have hderive : deriveLdkPaymentPreimage prims ⟨prims.sha256 preimageBytes.toList⟩ ivBytes
      metadataBytes keys = .ok ⟨preimageBytes⟩ := by
    simp [deriveLdkPaymentPreimage, hpre]
  refine ⟨_, rfl, getPaymentPreimage_eq_ok prims |>.2 (by rw [hd]; exact ⟨hmethod, hderive⟩),
    fun totalMsat t => ?_⟩
  rw [verify_of_authenticate prims hd (authenticate_eq_ok_some prims |>.2 ⟨hmethod, hderive⟩),
    hmin, hexpiry]
  simp only [le_expiry_iff hts]

/-- A user payment secret from `create_from_hash`: `get_payment_preimage` refuses it, and
`verify` accepts it, with no preimage, exactly within the floor and the expiry. -/
theorem verify_createFromHash {keys : ExpandedKey} {minValueMsat : Option UInt64}
    {invoiceExpiryDeltaSecs : UInt32} {highestSeenTimestamp : UInt64}
    (hts : highestSeenTimestamp.toNat + invoiceExpiryDeltaSecs.toNat + 7200 < 2 ^ 64)
    {paymentHash : PaymentHash} {paymentSecret : PaymentSecret}
    (hc : createFromHash prims keys minValueMsat paymentHash invoiceExpiryDeltaSecs
      highestSeenTimestamp = .ok paymentSecret) :
    (∃ err, getPaymentPreimage prims paymentHash paymentSecret keys =
      .error (.apiMisuseError err)) ∧
    ∀ totalMsat t, verify prims paymentHash ⟨paymentSecret, totalMsat⟩ t keys =
      if minValueMsat.getD 0 ≤ totalMsat ∧
          t.toNat ≤ highestSeenTimestamp.toNat + invoiceExpiryDeltaSecs.toNat + 7200
      then .ok none else .error () := by
  obtain ⟨metadataBytes, hmd, hp⟩ := Except.bind_eq_ok.1 hc
  simp only [Except.pure_eq_ok, Except.ok.injEq] at hp
  subst hp
  obtain ⟨hmethod, hmin, hexpiry⟩ := decode_constructMetadataBytes hmd
  have hd := decryptMetadata_constructPaymentSecret prims (takeIv (prims.hmacSha256
    keys.userPmtHashKey (metadataBytes.toList ++ paymentHash.bytes.toList))) metadataBytes keys
  refine ⟨⟨_, getPaymentPreimage_of_user prims (by rw [hd]; exact hmethod)⟩,
    fun totalMsat t => ?_⟩
  rw [verify_of_authenticate prims hd (authenticate_eq_ok_none prims |>.2 ⟨hmethod, rfl⟩),
    hmin, hexpiry]
  simp only [le_expiry_iff hts]

/-- The inbound-payment round trip with its exact acceptance boundaries, for every choice of
the hash and cipher functions. `create` fails exactly on a floor above `MAX_VALUE_MSAT`;
otherwise `verify` accepts its hash and secret exactly when the total is at least the floor and
the timestamp at most `highest_seen_timestamp + invoice_expiry_delta_secs + 7200`, returning a
preimage of the hash that `get_payment_preimage` also returns. `create_from_hash` has the same
boundaries, with no preimage, and `get_payment_preimage` refuses its secrets. -/
theorem inbound_payment_round_trip (keys : ExpandedKey) (minValueMsat : Option UInt64)
    (invoiceExpiryDeltaSecs : UInt32) (keysManager : KeysInterface) (highestSeenTimestamp : UInt64)
    (hts : highestSeenTimestamp.toNat + invoiceExpiryDeltaSecs.toNat + 7200 < 2 ^ 64) :
    (create prims keys minValueMsat invoiceExpiryDeltaSecs keysManager highestSeenTimestamp =
        .error () ↔ ∃ v, minValueMsat = some v ∧ maxValueMsat < v) ∧
    (∀ paymentHash paymentSecret, create prims keys minValueMsat invoiceExpiryDeltaSecs
        keysManager highestSeenTimestamp = .ok (paymentHash, paymentSecret) →
      ∃ p : PaymentPreimage, prims.sha256 p.bytes.toList = paymentHash.bytes ∧
        getPaymentPreimage prims paymentHash paymentSecret keys = .ok p ∧
        ∀ totalMsat t, verify prims paymentHash ⟨paymentSecret, totalMsat⟩ t keys =
          if minValueMsat.getD 0 ≤ totalMsat ∧
              t.toNat ≤ highestSeenTimestamp.toNat + invoiceExpiryDeltaSecs.toNat + 7200
          then .ok (some p) else .error ()) ∧
    (∀ paymentHash, createFromHash prims keys minValueMsat paymentHash invoiceExpiryDeltaSecs
        highestSeenTimestamp = .error () ↔ ∃ v, minValueMsat = some v ∧ maxValueMsat < v) ∧
    (∀ paymentHash paymentSecret, createFromHash prims keys minValueMsat paymentHash
        invoiceExpiryDeltaSecs highestSeenTimestamp = .ok paymentSecret →
      (∃ err, getPaymentPreimage prims paymentHash paymentSecret keys =
        .error (.apiMisuseError err)) ∧
      ∀ totalMsat t, verify prims paymentHash ⟨paymentSecret, totalMsat⟩ t keys =
        if minValueMsat.getD 0 ≤ totalMsat ∧
            t.toNat ≤ highestSeenTimestamp.toNat + invoiceExpiryDeltaSecs.toNat + 7200
        then .ok none else .error ()) :=
  ⟨create_eq_error_iff prims .., fun _ _ hc => verify_create prims hts hc,
    fun _ => createFromHash_eq_error_iff prims .., fun _ _ hc => verify_createFromHash prims hts hc⟩

/-- Constant primitives, for evaluating the round trip at a concrete input. -/
def samplePrimitives : Primitives :=
  ⟨fun _ _ => Vector.replicate 32 1, fun _ => Vector.replicate 32 2,
    fun _ _ => Vector.replicate 32 3, fun _ => ""⟩

/-- An all-zero expanded key. -/
def sampleKey : ExpandedKey := ⟨Vector.replicate 32 0, Vector.replicate 32 0, Vector.replicate 32 0⟩

/-- A keys manager whose random bytes are all sevens. -/
def sampleKeysManager : KeysInterface := ⟨Vector.replicate 32 7⟩

theorem inbound_payment_round_trip_sample :
    (1000000 : UInt64).toNat + (3600 : UInt32).toNat + 7200 < 2 ^ 64 ∧
    (create samplePrimitives sampleKey (some 10000) 3600 sampleKeysManager 1000000 =
        .error () ↔ ∃ v, some 10000 = some v ∧ maxValueMsat < v) ∧
    (∀ paymentHash paymentSecret, create samplePrimitives sampleKey (some 10000) 3600
        sampleKeysManager 1000000 = .ok (paymentHash, paymentSecret) →
      ∃ p : PaymentPreimage, samplePrimitives.sha256 p.bytes.toList = paymentHash.bytes ∧
        getPaymentPreimage samplePrimitives paymentHash paymentSecret sampleKey = .ok p ∧
        ∀ totalMsat t, verify samplePrimitives paymentHash ⟨paymentSecret, totalMsat⟩ t sampleKey =
          if (some 10000 : Option UInt64).getD 0 ≤ totalMsat ∧
              t.toNat ≤ (1000000 : UInt64).toNat + (3600 : UInt32).toNat + 7200
          then .ok (some p) else .error ()) ∧
    (∀ paymentHash, createFromHash samplePrimitives sampleKey (some 10000) paymentHash 3600
        1000000 = .error () ↔ ∃ v, some 10000 = some v ∧ maxValueMsat < v) ∧
    (∀ paymentHash paymentSecret, createFromHash samplePrimitives sampleKey (some 10000) paymentHash
        3600 1000000 = .ok paymentSecret →
      (∃ err, getPaymentPreimage samplePrimitives paymentHash paymentSecret sampleKey =
        .error (.apiMisuseError err)) ∧
      ∀ totalMsat t, verify samplePrimitives paymentHash ⟨paymentSecret, totalMsat⟩ t sampleKey =
        if (some 10000 : Option UInt64).getD 0 ≤ totalMsat ∧
            t.toNat ≤ (1000000 : UInt64).toNat + (3600 : UInt32).toNat + 7200
        then .ok none else .error ()) :=
  ⟨by decide, inbound_payment_round_trip samplePrimitives sampleKey (some 10000) 3600
    sampleKeysManager 1000000 (by decide)⟩

end Lightning.Ln.InboundPayment
