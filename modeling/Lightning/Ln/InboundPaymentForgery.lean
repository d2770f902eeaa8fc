import Lightning.Ln.InboundPaymentProofs

/-!
# Forged payment secrets

`verify` accepts a payment only after authenticating its secret. For an LDK payment it recomputes
the preimage as the HMAC of the decrypted IV and metadata under the LDK key and compares its
SHA-256 with the payment hash. For a user payment it compares the IV with the HMAC of the
metadata and the hash under the user key.

`verify_accepts_only_created_secret` says what this buys for a payment made by `create`. The
only secret `verify` accepts for its hash is the one `create` made, unless the accepted secret
comes with a collision on the values `verify` compared: its LDK-key HMAC differs from the
payment's preimage but has the same SHA-256, or its HMAC input differs from the created one but
has the same LDK-key HMAC. The one other way in is a secret of the user type whose IV is the
user-key HMAC tag of its own metadata and this hash.
`verify_accepts_only_created_secret_from_hash` is the same for `create_from_hash`, where the
accepted secret's LDK-key HMAC would have to be the payment's preimage itself or another
SHA-256 preimage of its hash, or the secret would need a user-key tag on other metadata.
Tampering with the encrypted half of a secret is the case where the IV is kept. The cipher may
be any function: decryption is injective whatever it is (`decryptMetadata_injective`).
-/

namespace Lightning.Ln.InboundPayment

open Mathlib

variable (prims : Primitives)

/-- The bytes `derive_ldk_payment_preimage` authenticates for a secret: its IV, then its
decrypted metadata. -/
def ldkInput (keys : ExpandedKey) (s : PaymentSecret) : List UInt8 :=
  (decryptMetadata prims s keys).1.toList ++ (decryptMetadata prims s keys).2.toList

/-- A secret is determined by its IV and its decrypted metadata, whatever the cipher: the same
keystream block is XOR-ed out of both. -/
theorem decryptMetadata_injective {keys : ExpandedKey} {s s' : PaymentSecret}
    (h : decryptMetadata prims s keys = decryptMetadata prims s' keys) : s = s' := by
  simp only [decryptMetadata, Prod.mk.injEq] at h
  obtain ⟨hiv, hmd⟩ := h
  rcases s with ⟨b⟩
  rcases s' with ⟨b'⟩
  congr 1
  apply Vector.ext
  intro i
  by_cases hi : i.val < 16
  · simpa [takeIv] using congrArg (fun v : Vector UInt8 16 => v.get ⟨i.val, hi⟩) hiv
  · have hj := congrArg (fun v : Vector UInt8 16 => v.get ⟨i.val - 16, by omega⟩) hmd
    simp only [hiv, Vector.get_ofFn] at hj
    have hidx : (⟨16 + (i.val - 16), by omega⟩ : Fin 32) = i := Fin.ext (by simp; omega)
    rw [hidx] at hj
    simpa using congrArg
      (fun x => (prims.getSingleBlock keys.metadataKey (takeIv b')).get ⟨i.val - 16, by omega⟩ ^^^ x) hj

/-- `derive_ldk_payment_preimage` succeeds exactly when the HMAC of IV and metadata hashes to
the payment hash, and then returns that HMAC. -/
theorem deriveLdkPaymentPreimage_eq_ok {paymentHash : PaymentHash}
    {ivBytes metadataBytes : Vector UInt8 16} {keys : ExpandedKey} {preimage : PaymentPreimage} :
    deriveLdkPaymentPreimage prims paymentHash ivBytes metadataBytes keys = .ok preimage ↔
      preimage.bytes = prims.hmacSha256 keys.ldkPmtHashKey (ivBytes.toList ++ metadataBytes.toList) ∧
        paymentHash.bytes = prims.sha256 (prims.hmacSha256 keys.ldkPmtHashKey
          (ivBytes.toList ++ metadataBytes.toList)).toList := by
  by_cases h : paymentHash.bytes = prims.sha256 (prims.hmacSha256 keys.ldkPmtHashKey
      (ivBytes.toList ++ metadataBytes.toList)).toList
  · rcases preimage with ⟨p⟩
    simp [deriveLdkPaymentPreimage, h, eq_comm]
  · simp [deriveLdkPaymentPreimage, h]

/-- For the hash of an LDK payment made by `create`, `verify` accepts the secret `create` made
and no other, unless the accepted secret's LDK-key HMAC is another SHA-256 preimage of the
payment hash than the created preimage, or its LDK input differs from the created one with the
same LDK-key HMAC, or it is of the user type with an IV that is the user-key HMAC tag of its own
metadata and this hash. -/
theorem verify_accepts_only_created_secret {keys : ExpandedKey} {minValueMsat : Option UInt64}
    {invoiceExpiryDeltaSecs : UInt32} {keysManager : KeysInterface}
    {highestSeenTimestamp : UInt64} {paymentHash : PaymentHash} {paymentSecret : PaymentSecret}
    (hc : create prims keys minValueMsat invoiceExpiryDeltaSecs keysManager
      highestSeenTimestamp = .ok (paymentHash, paymentSecret))
    (secret : PaymentSecret) (totalMsat t : UInt64) (result : Option PaymentPreimage)
    (hv : verify prims paymentHash ⟨secret, totalMsat⟩ t keys = .ok result) :
    secret = paymentSecret ∨
      (prims.hmacSha256 keys.ldkPmtHashKey (ldkInput prims keys secret) ≠
          prims.hmacSha256 keys.ldkPmtHashKey (ldkInput prims keys paymentSecret) ∧
        prims.sha256 (prims.hmacSha256 keys.ldkPmtHashKey (ldkInput prims keys secret)).toList =
          prims.sha256 (prims.hmacSha256 keys.ldkPmtHashKey
            (ldkInput prims keys paymentSecret)).toList) ∨
      (ldkInput prims keys secret ≠ ldkInput prims keys paymentSecret ∧
        prims.hmacSha256 keys.ldkPmtHashKey (ldkInput prims keys secret) =
          prims.hmacSha256 keys.ldkPmtHashKey (ldkInput prims keys paymentSecret)) ∨
      (methodOf (decryptMetadata prims secret keys).2 = .ok .userPaymentHash ∧
        (decryptMetadata prims secret keys).1 = takeIv (prims.hmacSha256 keys.userPmtHashKey
          ((decryptMetadata prims secret keys).2.toList ++ paymentHash.bytes.toList))) := by
  obtain ⟨metadataBytes, -, hp⟩ := Except.bind_eq_ok.1 hc
  simp only [Except.pure_eq_ok, Except.ok.injEq, Prod.mk.injEq] at hp
  obtain ⟨rfl, rfl⟩ := hp
  have ha := ((verify_eq_ok prims).1 hv).1
  have hcreated := decryptMetadata_constructPaymentSecret prims
    (takeIv keysManager.getSecureRandomBytes) metadataBytes keys
  rcases hd : decryptMetadata prims secret keys with ⟨ivBytes, md⟩
  rw [hd] at ha
  cases result with
  | none => exact .inr (.inr (.inr ((authenticate_eq_ok_none prims).1 ha)))
  | some preimage =>
    obtain ⟨-, hderive⟩ := (authenticate_eq_ok_some prims).1 ha
    obtain ⟨-, hhash⟩ := (deriveLdkPaymentPreimage_eq_ok prims).1 hderive
    simp only [ldkInput, hd, hcreated]
    by_cases hm : prims.hmacSha256 keys.ldkPmtHashKey (ivBytes.toList ++ md.toList) =
      prims.hmacSha256 keys.ldkPmtHashKey
        ((takeIv keysManager.getSecureRandomBytes).toList ++ metadataBytes.toList)
    · by_cases hin : ivBytes.toList ++ md.toList =
        (takeIv keysManager.getSecureRandomBytes).toList ++ metadataBytes.toList
      · -- the same HMAC input: the same IV and metadata, so the same secret
        obtain ⟨hiv, hmd⟩ := List.append_inj hin (by simp)
        refine .inl (decryptMetadata_injective prims (hd.trans (hcreated.trans ?_).symm))
        exact Prod.ext (Vector.toList_injective hiv.symm) (Vector.toList_injective hmd.symm)
      · exact .inr (.inr (.inl ⟨hin, hm⟩))
    · exact .inr (.inl ⟨hm, hhash.symm⟩)

/-- For a payment made by `create_from_hash` for a hash whose preimage is `preimage`, `verify`
accepts the secret `create_from_hash` made and no other, unless the accepted secret's LDK-key
HMAC is the preimage itself, or another SHA-256 preimage of the hash, or the secret is of the
user type with other metadata and an IV that is the user-key HMAC tag of that metadata and this
hash. -/
theorem verify_accepts_only_created_secret_from_hash {keys : ExpandedKey}
    {minValueMsat : Option UInt64} {invoiceExpiryDeltaSecs : UInt32}
    {highestSeenTimestamp : UInt64} {paymentHash : PaymentHash} {paymentSecret : PaymentSecret}
    (preimage : PaymentPreimage) (hpre : prims.sha256 preimage.bytes.toList = paymentHash.bytes)
    (hc : createFromHash prims keys minValueMsat paymentHash invoiceExpiryDeltaSecs
      highestSeenTimestamp = .ok paymentSecret)
    (secret : PaymentSecret) (totalMsat t : UInt64) (result : Option PaymentPreimage)
    (hv : verify prims paymentHash ⟨secret, totalMsat⟩ t keys = .ok result) :
    secret = paymentSecret ∨
      prims.hmacSha256 keys.ldkPmtHashKey (ldkInput prims keys secret) = preimage.bytes ∨
      (prims.hmacSha256 keys.ldkPmtHashKey (ldkInput prims keys secret) ≠ preimage.bytes ∧
        prims.sha256 (prims.hmacSha256 keys.ldkPmtHashKey (ldkInput prims keys secret)).toList =
          prims.sha256 preimage.bytes.toList) ∨
      (methodOf (decryptMetadata prims secret keys).2 = .ok .userPaymentHash ∧
        (decryptMetadata prims secret keys).2 ≠ (decryptMetadata prims paymentSecret keys).2 ∧
        (decryptMetadata prims secret keys).1 = takeIv (prims.hmacSha256 keys.userPmtHashKey
          ((decryptMetadata prims secret keys).2.toList ++ paymentHash.bytes.toList))) := by
  obtain ⟨metadataBytes, -, hp⟩ := Except.bind_eq_ok.1 hc
  simp only [Except.pure_eq_ok, Except.ok.injEq] at hp
  subst hp
  have ha := ((verify_eq_ok prims).1 hv).1
  rw [decryptMetadata_constructPaymentSecret]
  rcases hd : decryptMetadata prims secret keys with ⟨ivBytes, md⟩
  rw [hd] at ha
  cases result with
  | none =>
    obtain ⟨hmethod, hiv⟩ := (authenticate_eq_ok_none prims).1 ha
    by_cases hmd : md = metadataBytes
    · -- the same metadata: the same tag, so the same secret
      subst hmd
      refine .inl (decryptMetadata_injective prims (hd.trans ?_))
      rw [decryptMetadata_constructPaymentSecret, ← hiv]
    · exact .inr (.inr (.inr ⟨hmethod, hmd, hiv⟩))
  | some p =>
    obtain ⟨-, hderive⟩ := (authenticate_eq_ok_some prims).1 ha
    obtain ⟨-, hhash⟩ := (deriveLdkPaymentPreimage_eq_ok prims).1 hderive
    simp only [ldkInput, hd]
    by_cases hm : prims.hmacSha256 keys.ldkPmtHashKey (ivBytes.toList ++ md.toList) = preimage.bytes
    · exact .inr (.inl hm)
    · exact .inr (.inr (.inl ⟨hm, hhash.symm.trans hpre.symm⟩))

/-- The secret `create_from_hash` makes with the constant primitives, for the same floor and
expiry as `sampleSecret`. -/
def sampleUserSecret : PaymentSecret :=
  let metadataBytes := joinMetadata (setTag (u64ToBeBytes 10000) .userPaymentHash)
    (u64ToBeBytes (1000000 + (3600 : UInt32).toUInt64 + 7200))
  constructPaymentSecret samplePrimitives (takeIv (samplePrimitives.hmacSha256
    sampleKey.userPmtHashKey (metadataBytes.toList ++ (Vector.replicate 32 2).toList)))
    metadataBytes sampleKey.metadataKey

theorem verify_accepts_only_created_secret_from_hash_sample :
    samplePrimitives.sha256 (Vector.replicate 32 0).toList = (⟨Vector.replicate 32 2⟩ : PaymentHash).bytes ∧
      createFromHash samplePrimitives sampleKey (some 10000) ⟨Vector.replicate 32 2⟩ 3600 1000000 =
        .ok sampleUserSecret ∧
      verify samplePrimitives ⟨Vector.replicate 32 2⟩ ⟨sampleUserSecret, 10000⟩ 1000000 sampleKey =
        .ok none ∧
      (sampleUserSecret = sampleUserSecret ∨
        samplePrimitives.hmacSha256 sampleKey.ldkPmtHashKey
            (ldkInput samplePrimitives sampleKey sampleUserSecret) = Vector.replicate 32 0 ∨
        (samplePrimitives.hmacSha256 sampleKey.ldkPmtHashKey
            (ldkInput samplePrimitives sampleKey sampleUserSecret) ≠ Vector.replicate 32 0 ∧
          samplePrimitives.sha256 (samplePrimitives.hmacSha256 sampleKey.ldkPmtHashKey
            (ldkInput samplePrimitives sampleKey sampleUserSecret)).toList =
            samplePrimitives.sha256 (Vector.replicate 32 0).toList) ∨
        (methodOf (decryptMetadata samplePrimitives sampleUserSecret sampleKey).2 =
            .ok .userPaymentHash ∧
          (decryptMetadata samplePrimitives sampleUserSecret sampleKey).2 ≠
            (decryptMetadata samplePrimitives sampleUserSecret sampleKey).2 ∧
          (decryptMetadata samplePrimitives sampleUserSecret sampleKey).1 =
            takeIv (samplePrimitives.hmacSha256 sampleKey.userPmtHashKey
              ((decryptMetadata samplePrimitives sampleUserSecret sampleKey).2.toList ++
                (Vector.replicate 32 2).toList)))) :=
  have hpre : samplePrimitives.sha256 (Vector.replicate 32 0).toList =
      (⟨Vector.replicate 32 2⟩ : PaymentHash).bytes := rfl
  have hc : createFromHash samplePrimitives sampleKey (some 10000) ⟨Vector.replicate 32 2⟩ 3600
      1000000 = .ok sampleUserSecret := rfl
  have hv : verify samplePrimitives ⟨Vector.replicate 32 2⟩ ⟨sampleUserSecret, 10000⟩ 1000000
      sampleKey = .ok none := rfl
  ⟨hpre, hc, hv, verify_accepts_only_created_secret_from_hash samplePrimitives ⟨Vector.replicate 32 0⟩
    hpre hc sampleUserSecret 10000 1000000 none hv⟩

/-- The payment hash `create` makes with the constant primitives. -/
def sampleHash : PaymentHash := ⟨Vector.replicate 32 2⟩

/-- The secret `create` makes with the constant primitives, for a floor of `10000` msat and an
expiry of `1000000 + 3600 + 7200`. -/
def sampleSecret : PaymentSecret :=
  constructPaymentSecret samplePrimitives (takeIv sampleKeysManager.getSecureRandomBytes)
    (joinMetadata (setTag (u64ToBeBytes 10000) .ldkPaymentHash)
      (u64ToBeBytes (1000000 + (3600 : UInt32).toUInt64 + 7200))) sampleKey.metadataKey

theorem verify_accepts_only_created_secret_sample :
    create samplePrimitives sampleKey (some 10000) 3600 sampleKeysManager 1000000 =
        .ok (sampleHash, sampleSecret) ∧
      verify samplePrimitives sampleHash ⟨sampleSecret, 10000⟩ 1000000 sampleKey =
        .ok (some ⟨Vector.replicate 32 1⟩) ∧
      (sampleSecret = sampleSecret ∨
        (samplePrimitives.hmacSha256 sampleKey.ldkPmtHashKey
            (ldkInput samplePrimitives sampleKey sampleSecret) ≠
          samplePrimitives.hmacSha256 sampleKey.ldkPmtHashKey
            (ldkInput samplePrimitives sampleKey sampleSecret) ∧
          samplePrimitives.sha256 (samplePrimitives.hmacSha256 sampleKey.ldkPmtHashKey
            (ldkInput samplePrimitives sampleKey sampleSecret)).toList =
          samplePrimitives.sha256 (samplePrimitives.hmacSha256 sampleKey.ldkPmtHashKey
            (ldkInput samplePrimitives sampleKey sampleSecret)).toList) ∨
        (ldkInput samplePrimitives sampleKey sampleSecret ≠
            ldkInput samplePrimitives sampleKey sampleSecret ∧
          samplePrimitives.hmacSha256 sampleKey.ldkPmtHashKey
              (ldkInput samplePrimitives sampleKey sampleSecret) =
            samplePrimitives.hmacSha256 sampleKey.ldkPmtHashKey
              (ldkInput samplePrimitives sampleKey sampleSecret)) ∨
        (methodOf (decryptMetadata samplePrimitives sampleSecret sampleKey).2 =
            .ok .userPaymentHash ∧
          (decryptMetadata samplePrimitives sampleSecret sampleKey).1 =
            takeIv (samplePrimitives.hmacSha256 sampleKey.userPmtHashKey
              ((decryptMetadata samplePrimitives sampleSecret sampleKey).2.toList ++
                sampleHash.bytes.toList)))) :=
  have hc : create samplePrimitives sampleKey (some 10000) 3600 sampleKeysManager 1000000 =
      .ok (sampleHash, sampleSecret) := rfl
  have hv : verify samplePrimitives sampleHash ⟨sampleSecret, 10000⟩ 1000000 sampleKey =
      .ok (some ⟨Vector.replicate 32 1⟩) := rfl
  ⟨hc, hv, verify_accepts_only_created_secret samplePrimitives hc sampleSecret 10000 1000000 _ hv⟩

end Lightning.Ln.InboundPayment
