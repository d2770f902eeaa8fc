import Lightning.Util.Bytes

/-!
# Payment hashes, preimages and secrets

The three 32-byte payment values of `ln/mod.rs`. Each is a fixed-length byte array, so a value
of the wrong length cannot be built.
-/

namespace Lightning.Ln

/-- `PaymentHash`: the hash that locks an HTLC. -/
structure PaymentHash where
  bytes : Mathlib.Vector UInt8 32
deriving DecidableEq

/-- `PaymentPreimage`: the value whose SHA-256 is the payment hash. -/
structure PaymentPreimage where
  bytes : Mathlib.Vector UInt8 32
deriving DecidableEq

/-- `PaymentSecret`: authenticates the sender to the receiver and ties MPP HTLCs together. -/
structure PaymentSecret where
  bytes : Mathlib.Vector UInt8 32
deriving DecidableEq

end Lightning.Ln
