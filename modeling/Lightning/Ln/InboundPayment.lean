import Lightning.Ln.Payment

/-!
# Stateless inbound payments

`ln/inbound_payment.rs`. A payment secret carries its own metadata: the payment type in the
top three bits of byte 0, the minimum amount in the remaining 61 bits of bytes 0 to 7, and
the expiry in bytes 8 to 15, encrypted with a ChaCha20 block keyed by the metadata key and the
secret's first sixteen bytes. `create` and `create_from_hash` build such secrets; `verify` and
`get_payment_preimage` take them apart again. The hash and cipher functions are parameters
(`Primitives`), so every result below holds for any choice of them.
-/

namespace Lightning.Ln.InboundPayment

open Mathlib

/-- The functions this module calls from code outside the sources, each an arbitrary function:
`hmacSha256 key msg` is `Hmac::from_engine` of an `HmacEngine::<Sha256>` keyed with `key` that
was fed `msg`, `sha256` is `Sha256::hash`, `getSingleBlock` is `ChaCha20::get_single_block`,
and `logBytes` renders bytes as `log_bytes!` does in error messages. -/
structure Primitives where
  hmacSha256 : Vector UInt8 32 → List UInt8 → Vector UInt8 32
  sha256 : List UInt8 → Vector UInt8 32
  getSingleBlock : Vector UInt8 32 → Vector UInt8 16 → Vector UInt8 32
  logBytes : List UInt8 → String

/-- `ExpandedKey`: the keys HKDF-expanded from the inbound payment key material. -/
structure ExpandedKey where
  /-- Encrypts the payment metadata. -/
  metadataKey : Vector UInt8 32
  /-- Authenticates an LDK-provided payment hash and metadata. -/
  ldkPmtHashKey : Vector UInt8 32
  /-- Authenticates a user-provided payment hash and metadata. -/
  userPmtHashKey : Vector UInt8 32

/-- The part of `KeysInterface` `create` uses. -/
structure KeysInterface where
  getSecureRandomBytes : Vector UInt8 32

/-- `msgs::FinalOnionHopData`: the payment data of the final hop. -/
structure FinalOnionHopData where
  paymentSecret : PaymentSecret
  totalMsat : UInt64

/-- `APIError`, with the one variant this module returns. -/
inductive APIError where
  | apiMisuseError (err : String)
deriving DecidableEq

/-- Modelled from the spec: `ln::msgs::MAX_VALUE_MSAT`, which is outside the sources. It is the
total bitcoin supply, 21 million bitcoin, in millisatoshis: the bound
`lightning-invoice/src/utils.rs` says `create_inbound_payment` checks. -/
def maxValueMsat : UInt64 := 21000000 * 100000000 * 1000

/-- `METHOD_TYPE_OFFSET`: shifts the payment type into the top three bits of byte 0. -/
def methodTypeOffset : Nat := 5

/-- `Method`: which of the two constructions made a payment secret. -/
inductive Method where
  | ldkPaymentHash
  | userPaymentHash
deriving DecidableEq, Repr

/-- `Method as u8`. -/
def Method.toU8 : Method → UInt8
  | .ldkPaymentHash => 0
  | .userPaymentHash => 1

/-- `Method::from_bits`. -/
def Method.fromBits (bits : UInt8) : Except UInt8 Method :=
  if bits = Method.ldkPaymentHash.toU8 then .ok .ldkPaymentHash
  else if bits = Method.userPaymentHash.toU8 then .ok .userPaymentHash
  else .error bits

/-- `bytes[..IV_LEN]` copied into an IV-sized array. -/
def takeIv (bytes : Vector UInt8 32) : Vector UInt8 16 :=
  Vector.ofFn fun i => bytes.get ⟨i.val, by omega⟩

/-- `construct_metadata_bytes`: the amount floor big-endian with the payment type in its top
three bits, then the expiry `highest_seen_timestamp + invoice_expiry_delta_secs + 7200`. The
`u64` sum wraps as a release build computes it; a debug build panics instead, and
`toNat_expiry` gives the range where the two agree. -/
def constructMetadataBytes (minValueMsat : Option UInt64) (paymentType : Method)
    (invoiceExpiryDeltaSecs : UInt32) (highestSeenTimestamp : UInt64) :
    Except Unit (Vector UInt8 16) := do
  if minValueMsat.isSome && decide (minValueMsat.getD 0 > maxValueMsat) then
    throw ()
  let minAmtMsatBytes : Vector UInt8 8 :=
    match minValueMsat with
    | some amt => u64ToBeBytes amt
    | none => Vector.replicate 8 0
  let minAmtMsatBytes := minAmtMsatBytes.set 0
    (minAmtMsatBytes.get 0 ||| paymentType.toU8 <<< methodTypeOffset.toUInt8)
  let expiryBytes :=
    u64ToBeBytes (highestSeenTimestamp + invoiceExpiryDeltaSecs.toUInt64 + 7200)
  pure (Vector.ofFn fun i =>
    if h : i.val < 8 then minAmtMsatBytes.get ⟨i.val, h⟩
    else expiryBytes.get ⟨i.val - 8, by omega⟩)

/-- `construct_payment_secret`: the IV followed by the metadata XOR-ed with the first sixteen
bytes of the ChaCha20 block of the metadata key and the IV. -/
def constructPaymentSecret (prims : Primitives) (ivBytes metadataBytes : Vector UInt8 16)
    (metadataKey : Vector UInt8 32) : PaymentSecret :=
  let chachaBlock := prims.getSingleBlock metadataKey ivBytes
  ⟨Vector.ofFn fun i =>
    if h : i.val < 16 then ivBytes.get ⟨i.val, h⟩
    else chachaBlock.get ⟨i.val - 16, by omega⟩ ^^^ metadataBytes.get ⟨i.val - 16, by omega⟩⟩

/-- `create`: a fresh IV from the keys manager, the preimage as the HMAC of IV and metadata,
and its hash. -/
def create (prims : Primitives) (keys : ExpandedKey) (minValueMsat : Option UInt64)
    (invoiceExpiryDeltaSecs : UInt32) (keysManager : KeysInterface)
    (highestSeenTimestamp : UInt64) : Except Unit (PaymentHash × PaymentSecret) := do
  let metadataBytes ← constructMetadataBytes minValueMsat .ldkPaymentHash
    invoiceExpiryDeltaSecs highestSeenTimestamp
  let ivBytes := takeIv keysManager.getSecureRandomBytes
  let paymentPreimageBytes :=
    prims.hmacSha256 keys.ldkPmtHashKey (ivBytes.toList ++ metadataBytes.toList)
  let ldkPmtHash : PaymentHash := ⟨prims.sha256 paymentPreimageBytes.toList⟩
  let paymentSecret := constructPaymentSecret prims ivBytes metadataBytes keys.metadataKey
  pure (ldkPmtHash, paymentSecret)

/-- `create_from_hash`: the IV is the HMAC of the metadata and the caller's payment hash. -/
def createFromHash (prims : Primitives) (keys : ExpandedKey) (minValueMsat : Option UInt64)
    (paymentHash : PaymentHash) (invoiceExpiryDeltaSecs : UInt32)
    (highestSeenTimestamp : UInt64) : Except Unit PaymentSecret := do
  let metadataBytes ← constructMetadataBytes minValueMsat .userPaymentHash
    invoiceExpiryDeltaSecs highestSeenTimestamp
  let hmacBytes :=
    prims.hmacSha256 keys.userPmtHashKey (metadataBytes.toList ++ paymentHash.bytes.toList)
  let ivBytes := takeIv hmacBytes
  pure (constructPaymentSecret prims ivBytes metadataBytes keys.metadataKey)

/-- `decrypt_metadata`: split the secret into the IV and the decrypted metadata. -/
def decryptMetadata (prims : Primitives) (paymentSecret : PaymentSecret) (keys : ExpandedKey) :
    Vector UInt8 16 × Vector UInt8 16 :=
  let ivBytes := takeIv paymentSecret.bytes
  let chachaBlock := prims.getSingleBlock keys.metadataKey ivBytes
  let metadataBytes := Vector.ofFn fun i : Fin 16 =>
    chachaBlock.get ⟨i.val, by omega⟩ ^^^ paymentSecret.bytes.get ⟨16 + i.val, by omega⟩
  (ivBytes, metadataBytes)

/-- `derive_ldk_payment_preimage`: the HMAC of IV and metadata, if it hashes to the payment
hash; otherwise the bad preimage bytes. -/
def deriveLdkPaymentPreimage (prims : Primitives) (paymentHash : PaymentHash)
    (ivBytes metadataBytes : Vector UInt8 16) (keys : ExpandedKey) :
    Except (Vector UInt8 32) PaymentPreimage :=
  let decodedPaymentPreimage :=
    prims.hmacSha256 keys.ldkPmtHashKey (ivBytes.toList ++ metadataBytes.toList)
  if paymentHash.bytes ≠ prims.sha256 decodedPaymentPreimage.toList then
    .error decodedPaymentPreimage
  else .ok ⟨decodedPaymentPreimage⟩

/-- The payment type `verify` and `get_payment_preimage` both read from the top three bits of
metadata byte 0. -/
def methodOf (metadataBytes : Vector UInt8 16) : Except UInt8 Method :=
  Method.fromBits ((metadataBytes.get 0 &&& 0b11100000) >>> methodTypeOffset.toUInt8)

/-- `verify`'s `min_amt_msat`: metadata bytes 0 to 7 with the type bits zeroed, big-endian. -/
def minAmtMsatOf (metadataBytes : Vector UInt8 16) : UInt64 :=
  let amtMsatBytes : Vector UInt8 8 := Vector.ofFn fun i => metadataBytes.get ⟨i.val, by omega⟩
  u64FromBeBytes (amtMsatBytes.set 0 (amtMsatBytes.get 0 &&& 0b00011111))

/-- `verify`'s `expiry`: metadata bytes 8 to 15, big-endian. -/
def expiryOf (metadataBytes : Vector UInt8 16) : UInt64 :=
  u64FromBeBytes (Vector.ofFn fun i => metadataBytes.get ⟨8 + i.val, by omega⟩)

/-- `verify`: authenticate the secret against the hash first (the HMAC for a user hash, the
derived preimage for an LDK hash), then reject a total below the floor or a payment past its
expiry. An LDK payment yields its preimage. The log lines are dropped. -/
def verify (prims : Primitives) (paymentHash : PaymentHash) (paymentData : FinalOnionHopData)
    (highestSeenTimestamp : UInt64) (keys : ExpandedKey) :
    Except Unit (Option PaymentPreimage) := do
  let (ivBytes, metadataBytes) := decryptMetadata prims paymentData.paymentSecret keys
  let paymentTypeRes := methodOf metadataBytes
  let minAmtMsat := minAmtMsatOf metadataBytes
  let expiry := expiryOf metadataBytes
  let paymentPreimage ← match paymentTypeRes with
    | .ok .userPaymentHash =>
        let hmac := prims.hmacSha256 keys.userPmtHashKey
          (metadataBytes.toList ++ paymentHash.bytes.toList)
        if ivBytes ≠ takeIv hmac then throw () else pure none
    | .ok .ldkPaymentHash =>
        match deriveLdkPaymentPreimage prims paymentHash ivBytes metadataBytes keys with
        | .ok preimage => pure (some preimage)
        | .error _ => throw ()
    | .error _ => throw ()
  if paymentData.totalMsat < minAmtMsat then throw ()
  if expiry < highestSeenTimestamp then throw ()
  pure paymentPreimage

/-- `get_payment_preimage`: the preimage of an LDK payment; a caller-misuse error for a user
payment, an unknown type or a preimage that does not hash to the payment hash. -/
def getPaymentPreimage (prims : Primitives) (paymentHash : PaymentHash)
    (paymentSecret : PaymentSecret) (keys : ExpandedKey) : Except APIError PaymentPreimage :=
  let (ivBytes, metadataBytes) := decryptMetadata prims paymentSecret keys
  match methodOf metadataBytes with
  | .ok .ldkPaymentHash =>
      (deriveLdkPaymentPreimage prims paymentHash ivBytes metadataBytes keys).mapError
        fun badPreimageBytes => .apiMisuseError ("Payment hash " ++
          prims.logBytes paymentHash.bytes.toList ++ " did not match decoded preimage " ++
          prims.logBytes badPreimageBytes.toList)
  | .ok .userPaymentHash => .error (.apiMisuseError
      "Expected payment type to be LdkPaymentHash, instead got UserPaymentHash")
  | .error other => .error (.apiMisuseError ("Unknown payment type: " ++ toString other))

end Lightning.Ln.InboundPayment
