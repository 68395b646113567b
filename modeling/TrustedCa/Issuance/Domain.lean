import TrustedCa.Issuance.Platform
import TrustedCa.Spec.Recorded

/-!
# The data of certificate issuance and the calls that leave it (`com.google.tca.domain`)

* Keys, certificates, evidence, the caller and the policies. Messages of protocol buffers that are
  only passed on are their bytes. A map is the list of its entries and a set the list of its
  elements, in the order of iteration.
* `Op`: the calls to what keeps state or may answer differently each time: the file fetcher, the
  endorsement parser, the verifiers, the clock, the metrics. `Op.signCsr` has no effect: it records
  that the signer is called.
-/

namespace TrustedCa
namespace Issuance

open Spec

/-! ## Keys and certificates -/

/-- `java.security.PublicKey`. Two keys are equal if their encodings are. -/
structure PublicKey where
  getEncoded : Bytes
  deriving DecidableEq

structure PrivateKey where
  getEncoded : Bytes
  deriving DecidableEq

structure SubjectPublicKeyInfo where
  der : Bytes
  deriving DecidableEq

/-- A parsed certificate signing request. Its own subject and extensions are not used. -/
structure PKCS10CertificationRequest where
  getSubjectPublicKeyInfo : SubjectPublicKeyInfo
  deriving DecidableEq

/-- `X500Principal`, by its encoding and its name in the canonical format. -/
structure X500Principal where
  getEncoded : Bytes
  getCanonicalName : JString
  deriving DecidableEq

/-- `equals`: the canonical names are the same. -/
def X500Principal.equals (p q : X500Principal) : Bool := p.getCanonicalName = q.getCanonicalName

/-- `DERIA5String`, by its bytes. -/
structure DERIA5String where
  contents : Bytes
  deriving DecidableEq

namespace DERIA5String

/-- The constructor: of every character, the lower byte. -/
def ofString (s : JString) : DERIA5String := ⟨s.map UInt16.toUInt8⟩

/-- `getString`: every byte is a character. -/
def getString (name : DERIA5String) : JString := name.contents.map UInt8.toUInt16

/-- A text can be read back if its characters are below U+0100. -/
theorem getString_ofString_eq_iff {s : JString} :
    (ofString s).getString = s ↔ ∀ c ∈ s, c < 0x100 := by
  have hchar : ∀ c : UInt16, c.toUInt8.toUInt16 = c ↔ c < 0x100 := by
    intro c
    rw [UInt16.toUInt16_toUInt8, ← UInt16.toNat_inj, UInt16.lt_iff_toNat_lt, UInt16.toNat_mod]
    simp only [UInt16.reduceToNat]
    omega
  have hmap : (ofString s).getString = s.map fun c => c.toUInt8.toUInt16 := List.map_map
  rw [hmap]
  nth_rewrite 2 [← List.map_id s]
  rw [List.map_inj_left]
  exact forall₂_congr fun c _ => hchar c

end DERIA5String

/-- The kinds of `GeneralName` that are used, with their texts as an `IA5String`. -/
inductive GeneralName where
  | uniformResourceIdentifier (name : DERIA5String)
  | dNSName (name : DERIA5String)
  deriving DecidableEq

/-- The key usages that are used. -/
inductive KeyUsage where
  | digitalSignature | keyEncipherment | keyCertSign
  deriving DecidableEq

/-- The extensions that are used, with their values. `basicConstraints none` is a leaf, and
`basicConstraints (some n)` a CA with that path length. -/
inductive ExtensionValue where
  | authorityKeyIdentifier (aki : Bytes)
  | subjectKeyIdentifier (ski : Bytes)
  | basicConstraints (pathLenConstraint : Option Int)
  | keyUsage (usage : List KeyUsage)
  | nameConstraints (permitted : List GeneralName)
  | subjectAlternativeName (name : GeneralName)
  deriving DecidableEq

structure Extension where
  critical : Bool
  value : ExtensionValue
  deriving DecidableEq

/-- What an `X509v3CertificateBuilder` holds. Dates are in milliseconds. -/
structure X509v3CertificateBuilder where
  issuer : X500Principal
  serial : Int
  notBefore : Int
  notAfter : Int
  subject : X500Principal
  publicKey : PublicKey
  extensions : List Extension := []
  deriving DecidableEq

/-- A certificate: what its builder held, and the signature. -/
structure X509Certificate extends X509v3CertificateBuilder where
  signature : Bytes
  deriving DecidableEq

/-! ## Evidence and endorsements -/

inductive ReferenceValuesType where
  | OAK | GCP | AWS
  deriving DecidableEq

/-- `oak.attestation.v1.Variant`. -/
structure Variant where
  id : Bytes
  value : Bytes
  deriving DecidableEq

/-- `oak.attestation.v1.Endorsements`: the events, and the other fields. -/
structure Endorsements where
  events : List Variant
  other : Bytes := []
  deriving DecidableEq

/-- `AwsAttestationEvidence`, `GcpAttestationEvidence` and `OakAttestationEvidence`. -/
inductive AttestationEvidence where
  | aws (attestationToken : Bytes)
  | gcp (attestationToken : Bytes)
  | oak (evidence : Bytes) (endorsements : Endorsements) (signedPublicKey : Bytes)
  deriving DecidableEq

structure EndorsementAnnotations where
  publisherId : JString
  workloadId : JString
  deriving DecidableEq

structure Validity where
  notBefore : Instant
  notAfter : Instant
  deriving DecidableEq

structure CertificateIssuanceRequest where
  attestationEvidence : AttestationEvidence
  certificateSigningRequest : Bytes

/-- The verifiers of `TransparentCaModule.provideVerifiers`. -/
inductive AttestationVerifier where
  | gcpVerifier | awsVerifier | oakVerifier
  deriving DecidableEq

/-! ## Policies -/

structure ReferenceValues where
  type : ReferenceValuesType
  raw : Bytes
  deriving DecidableEq

inductive BasicConstraintsType where
  | CA | LEAF
  deriving DecidableEq

structure BasicConstraints where
  type : BasicConstraintsType
  pathLenConstraint : Int
  deriving DecidableEq

/-- `UriNameConstraint`, `UriNameConstraintInTrustDomain` and `DnsNameConstraintInTrustDomain`. -/
inductive NameConstraint where
  | uri (domain : JString)
  | uriInTrustDomain (domain : JString)
  | dnsInTrustDomain (domain : JString)
  deriving DecidableEq

structure NameConstraints where
  permittedSubtrees : List NameConstraint
  deriving DecidableEq

structure X509Extensions where
  basicConstraints : Option BasicConstraints
  nameConstraints : Option NameConstraints
  deriving DecidableEq

structure X500NameAttributes where
  attributes : List (JString × JString)
  deriving DecidableEq

structure X509CertificateAttributes where
  maxCertificateValidity : Duration
  extensions : X509Extensions
  certificateSubject : X500NameAttributes
  deriving DecidableEq

structure Policy where
  publisherId : JString
  workloadId : JString
  operatorDomain : JString
  operatorRole : JString
  referenceValuesList : List ReferenceValues
  certificateAttributes : X509CertificateAttributes
  deriving DecidableEq

structure Policies where
  issuer : JString
  subject : JString
  policiesMap : List (JString × Policy)
  deriving DecidableEq

def Policies.get (p : Policies) (key : JString) : Option Policy := p.policiesMap.lookup key

/-! ## The caller -/

/-- `CallerIdentity`. Its constructor refuses a blank issuer or subject. -/
structure CallerIdentity where
  issuer : JString
  subject : JString
  audiences : List JString
  issuer_not_blank : issuer.isBlank = false
  subject_not_blank : subject.isBlank = false

namespace CallerIdentity

/-- Alphanumeric, hyphen, and period are safe and don't conflict with the escape char `_`. -/
def isSafe (c : UInt16) : Bool :=
  (JString.char 'a' ≤ c && c ≤ JString.char 'z') || (JString.char 'A' ≤ c && c ≤ JString.char 'Z') ||
    (JString.char '0' ≤ c && c ≤ JString.char '9') || c == JString.char '-' || c == JString.char '.'

def escape (s : JString) : JString :=
  s.flatMap fun c => if isSafe c then [c] else JString.char '_' :: JString.hex4 c

def getClientId (identity : CallerIdentity) : JString :=
  escape identity.issuer ++ JString.lit "/" ++ escape identity.subject

end CallerIdentity

/-! ## The calls -/

inductive ProcessingStatus where
  | MISSING_POLICY | MISSING_VERIFIER | INVALID_ATTESTATION_TOKEN | INCORRECT_CERTIFICATE_VALIDITY
  | SUCCESS | INVALID_CSR | AUDIENCE_MISMATCH | SIGNING_ERROR | INVALID_EVIDENCE
  | POLICY_IDENTITY_MISMATCH
  deriving DecidableEq

/-- The strategies of `com.google.tca.adapters.certsigning`. -/
inductive CertificateModifier where
  | nameConstraints (permitted : List NameConstraint) (trustDomain : JString)
  | basicConstraints (constraints : BasicConstraints)
  | keyUsage (constraints : BasicConstraints)
  | subjectAlternativeName (policy : Policy) (tcaTrustDomain : JString)
  deriving DecidableEq

/-- The arguments of `CertificateSigner.signCsr`. -/
structure SignCsrArgs where
  csrBytes : Bytes
  issuerCert : X509Certificate
  issuerPrivateKey : PrivateKey
  notBefore : Instant
  notAfter : Instant
  modifiers : List CertificateModifier
  subject : X500Principal
  deriving DecidableEq

/-- The calls that leave the program, and the mark of a call of the signer. -/
inductive Op where
  | fetchFile (path : JString)
  | getAnnotations (statementBytes : Bytes)
  | getValidity (statementBytes : Bytes)
  | verify (verifier : AttestationVerifier) (evidence : AttestationEvidence)
      (claimedPublicKey : PublicKey) (referenceValues : ReferenceValues)
  | now
  | signCsr (args : SignCsrArgs)
  | incrementProcessingCounter (status : ProcessingStatus)
  | allowMetricsForClientId (clientId : JString)
  | incrementCertificateIssuanceCounter (clientId : JString)
  deriving DecidableEq

/-- The answer to a call. -/
abbrev Ret : Op → Type
  | .fetchFile _ => Except Thrown (Option Bytes)
  | .getAnnotations _ => Except Thrown EndorsementAnnotations
  | .getValidity _ => Except Thrown Validity
  | .verify .. => Except Thrown Bool
  | .now => Instant
  | .signCsr _ | .incrementProcessingCounter _ | .allowMetricsForClientId _
  | .incrementCertificateIssuanceCounter _ => Unit

abbrev M := Prog Op Ret Thrown

def fetchFile (path : JString) : M (Option Bytes) := .call (.fetchFile path) Prog.ofExcept

def getAnnotations (statementBytes : Bytes) : M EndorsementAnnotations :=
  .call (.getAnnotations statementBytes) Prog.ofExcept

def getValidity (statementBytes : Bytes) : M Validity :=
  .call (.getValidity statementBytes) Prog.ofExcept

def AttestationVerifier.verify (verifier : AttestationVerifier) (evidence : AttestationEvidence)
    (claimedPublicKey : PublicKey) (referenceValues : ReferenceValues) : M Bool :=
  .call (.verify verifier evidence claimedPublicKey referenceValues) Prog.ofExcept

def now : M Instant := .call .now .ret

def incrementProcessingCounter (status : ProcessingStatus) : M Unit :=
  .call (.incrementProcessingCounter status) .ret

def allowMetricsForClientId (clientId : JString) : M Unit :=
  .call (.allowMetricsForClientId clientId) .ret

def incrementCertificateIssuanceCounter (clientId : JString) : M Unit :=
  .call (.incrementCertificateIssuanceCounter clientId) .ret

end Issuance
end TrustedCa
