import TrustedCa.Proxy.ConnectRoundTrip
import TrustedCa.Proxy.BufferRefinement
import TrustedCa.Proxy.BridgeBounds
import TrustedCa.Proxy.HalfClose
import TrustedCa.Proxy.FailedHandshake
import TrustedCa.Proxy.Socks5Required
import TrustedCa.Proxy.ReplyParsing
import TrustedCa.Proxy.BindRoundTrip
import TrustedCa.Proxy.FragmentedReply
import TrustedCa.Proxy.AcceptorPool
import TrustedCa.Proxy.EnvValue
import TrustedCa.Proxy.AcceptAddress
import TrustedCa.Proxy.StatusFlags
import TrustedCa.Proxy.BindTunnel
import TrustedCa.Proxy.Completion
import TrustedCa.Proxy.ShimRegistrations
import TrustedCa.Mbs.CrashConsistency
import TrustedCa.Mbs.ConcurrentBoot
import TrustedCa.Mbs.Secrecy
import TrustedCa.Issuance.Soundness
import TrustedCa.Issuance.Serial
import TrustedCa.Issuance.ClientId
import TrustedCa.Issuance.AudienceBinding
import TrustedCa.Issuance.NestedValidity
import TrustedCa.Issuance.Spiffe
import TrustedCa.Issuance.PolicyLookup
import TrustedCa.Issuance.Accounting
import TrustedCa.Issuance.SystemMetrics
import TrustedCa.Oidc.RefreshLimit
import TrustedCa.Oidc.JwtInterceptor
import TrustedCa.Attestation.GcpVerifier
import TrustedCa.Attestation.NitroDocument
import TrustedCa.Attestation.OakIssuance
