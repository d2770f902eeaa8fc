import Lightning.Util.Bytes
import Lightning.Util.Ser
import Lightning.Ln.Features
import Lightning.Ln.FeaturesWire
import Lightning.Ln.Payment
import Lightning.Ln.InboundPayment
import Lightning.Ln.InboundPaymentProofs
import Lightning.Util.EnforcingTraitImpls
import Lightning.Invoice.Utils
import Lightning.Util.EnforcingSpec
import Lightning.Util.Bech32
import Lightning.Ln.PaymentBase32
import Lightning.Util.Sync
import Lightning.Util.EnforcingConcurrent
import Lightning.Invoice.Router
import Lightning.Util.Rng
import Lightning.Ln.InboundPaymentForgery
import Lightning.Util.TestUtils
import Lightning.Bindings.ChanUtils
import Lightning.Util.TestMonitor
import Lightning.Fuzz.RunTestCases
import Lightning.BlockSync.Rest
