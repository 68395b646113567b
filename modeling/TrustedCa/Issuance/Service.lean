import TrustedCa.Issuance.Policy
import TrustedCa.Issuance.Audience
import TrustedCa.Issuance.Signer

/-!
# The issuance of a certificate (`TransparentCaService`)

`issueCertificate` takes the public key out of the request, checks that the caller's token was made
for it, looks up the policy of the endorsed workload, lets a verifier check the evidence against the
policy's reference values, and has the certificate signed.

* Its stages are definitions of their own, in the order of the source. Each counts its failure in the
  metrics and throws.
* `Env`: the configuration of the service, and the functions outside the repository.
* `AttestationEvidence.getRawBinaryEndorsement` and the choice of a verifier
  (`AttestationVerifierProviderImpl`).
-/

namespace TrustedCa
namespace Issuance

open Spec

/-! ## Evidence -/

namespace AttestationEvidence

def getReferenceValuesType : AttestationEvidence → ReferenceValuesType
  | .aws _ => .AWS
  | .gcp _ => .GCP
  | .oak .. => .OAK

/-- `OakAttestationEvidence.CONTAINER_ENDORSEMENT_ID`. -/
def containerEndorsementId : Bytes :=
  [0x72, 0x97, 0xa5, 0x1f, 0xa0, 0x5d, 0x49, 0xa1, 0xaf, 0xdb, 0x64, 0xcd, 0xee, 0x07, 0x86, 0x2d]

def getContainerEndorsement (endorsements : Endorsements) : List Variant :=
  endorsements.events.filter fun event => event.id = containerEndorsementId

/-- `parse` is `ContainerEndorsement.parseFrom` and the endorsement of the binary in it, and `none`
an `InvalidProtocolBufferException`. -/
def getRawBinaryEndorsement (parse : Bytes → Option Bytes) :
    AttestationEvidence → Except Thrown Bytes
  | .aws _ => .error ⟨.unsupportedOperationException,
      .lit "In-toto endorsements properties extraction not supported for AWS yet"⟩
  | .gcp _ => .error ⟨.unsupportedOperationException,
      .lit "In-toto endorsements properties extraction not supported for GCP yet"⟩
  | .oak _ endorsements _ =>
    match getContainerEndorsement endorsements with
    | [containerVariant] =>
      match parse containerVariant.value with
      | some serialized => .ok serialized
      | none => .error ⟨.incorrectEndorsementFormatException,
          .lit "Failed to parse container endorsement"⟩
    | events => .error ⟨.incorrectEndorsementFormatException,
        .lit "There should be exactly 1 container endorsement, got " ++
          JString.decimal events.length⟩

end AttestationEvidence

/-- The classes that a verifier may be bound to. -/
inductive EvidenceClass where
  | attestationEvidence | awsAttestationEvidence | gcpAttestationEvidence | oakAttestationEvidence
  deriving DecidableEq

def EvidenceClass.isAssignableFrom : EvidenceClass → AttestationEvidence → Bool
  | .attestationEvidence, _ | .awsAttestationEvidence, .aws _ | .gcpAttestationEvidence, .gcp _
  | .oakAttestationEvidence, .oak .. => true
  | _, _ => false

/-- `TransparentCaModule.provideVerifiers`. -/
def provideVerifiers : List (EvidenceClass × AttestationVerifier) :=
  [(.gcpAttestationEvidence, .gcpVerifier), (.awsAttestationEvidence, .awsVerifier),
    (.oakAttestationEvidence, .oakVerifier)]

def AttestationVerifierProviderImpl.getVerifier
    (verifiers : List (EvidenceClass × AttestationVerifier)) (evidence : AttestationEvidence) :
    Option AttestationVerifier :=
  (verifiers.find? fun entry => entry.1.isAssignableFrom evidence).map Prod.snd

/-! ## The service -/

/-- The configuration, and the functions outside the repository. -/
structure Env where
  rootCertificate : X509Certificate
  privateKey : PrivateKey
  trustDomain : JString
  metadata : AwsInstanceMetadata
  verifiers : List (EvidenceClass × AttestationVerifier)
  sha256 : Bytes → Bytes
  parseContainerEndorsement : Bytes → Option Bytes
  format : PolicyFormat
  lib : CertificateLibrary

namespace TransparentCaService

variable (env : Env)

def extractPublicKey (request : CertificateIssuanceRequest) : Except Thrown PublicKey := do
  let csr ← env.lib.parseCsr request.certificateSigningRequest
  let csrPublicKeyBytes ← env.lib.encodeKeyInfo csr.getSubjectPublicKeyInfo
  PublicKeyDecoder.decodeRawPublicKey env.lib csrPublicKeyBytes

def createSubjectPrincipal (subject : X500NameAttributes) : Except Thrown X500Principal :=
  env.lib.x500Name subject.attributes

/-- Count the exceptions of the class `c`, and throw them on. -/
def counting {α : Type} (c : ExnClass) (status : ProcessingStatus) (p : M α) : M α :=
  tryCatch p fun e => do
    if e.isA c then incrementProcessingCounter status
    throw e

/-- Count a failure and throw. -/
def fail {α : Type} (status : ProcessingStatus) (message : JString) : M α := do
  incrementProcessingCounter status
  throw (IllegalArgumentException message)

def validateAudience (csrPublicKey : PublicKey) (callerIdentity : CallerIdentity) : M Unit :=
  counting .audienceValidationException .AUDIENCE_MISMATCH
    (Prog.ofExcept (OidcAudienceBindingValidator.validate env.trustDomain env.metadata env.sha256
      csrPublicKey callerIdentity))

def selectPolicy (callerIdentity : CallerIdentity) (annotations : EndorsementAnnotations) :
    M Policy := do
  let policyOpt ← FileSourcedPolicyProvider.getPolicy env.format callerIdentity
    annotations.publisherId annotations.workloadId
  match policyOpt with
  | some policy => return policy
  | none =>
    fail .MISSING_POLICY
      (.lit "No policy supports requested workload: \x7bclientId = " ++ callerIdentity.getClientId ++
        .lit ", publisherId = " ++ annotations.publisherId ++ .lit ", workloadId = " ++
        annotations.workloadId ++ .lit "\x7d")

def selectVerifier (evidence : AttestationEvidence) : M AttestationVerifier :=
  match AttestationVerifierProviderImpl.getVerifier env.verifiers evidence with
  | some verifier => return verifier
  | none => fail .MISSING_VERIFIER (.lit "Unsupported attestation platform")

/-- `anyMatch`: it ends at the first reference value that verifies. -/
def anyMatch (verifier : AttestationVerifier) (evidence : AttestationEvidence)
    (csrPublicKey : PublicKey) : List ReferenceValues → M Bool
  | [] => return false
  | rv :: rest => do
    let verified ← verifier.verify evidence csrPublicKey rv
    if verified then return true else anyMatch verifier evidence csrPublicKey rest

def verifyEvidence (verifier : AttestationVerifier) (evidence : AttestationEvidence)
    (csrPublicKey : PublicKey) (policy : Policy) : M Unit := do
  let hasBeenVerified ← anyMatch verifier evidence csrPublicKey
    (policy.referenceValuesList.filter fun rv => rv.type = evidence.getReferenceValuesType)
  if hasBeenVerified then return ()
  else fail .INVALID_ATTESTATION_TOKEN (.lit "Attestation token is not valid")

/-- The start and the end of the certificate's validity. -/
def certificateValidity (policy : Policy) (validity : Validity) : M (Instant × Instant) := do
  let now ← now
  let expiration ← Prog.ofExcept (now.plus policy.certificateAttributes.maxCertificateValidity)
  let certificateValidityEnd := min expiration validity.notAfter
  let certificateValidityStart := max now validity.notBefore
  if certificateValidityStart > certificateValidityEnd then
    fail .INCORRECT_CERTIFICATE_VALIDITY (.lit "Incorrect certificate validity")
  else return (certificateValidityStart, certificateValidityEnd)

/-- The arguments of the call of the signer. -/
def signCsrArgs (request : CertificateIssuanceRequest) (policy : Policy)
    (validity : Instant × Instant) (subject : X500Principal) : SignCsrArgs where
  csrBytes := request.certificateSigningRequest
  issuerCert := env.rootCertificate
  issuerPrivateKey := env.privateKey
  notBefore := validity.1
  notAfter := validity.2
  modifiers := CertificateModifiersCreatorImpl.create env.trustDomain policy
  subject := subject

def sign (request : CertificateIssuanceRequest) (policy : Policy) (validity : Instant × Instant) :
    M X509Certificate :=
  counting .certificateException .SIGNING_ERROR do
    let subject ← Prog.ofExcept
      (createSubjectPrincipal env policy.certificateAttributes.certificateSubject)
    CertificateSignerImpl.signCsr env.lib (signCsrArgs env request policy validity subject)

def issueCertificate (request : CertificateIssuanceRequest) (callerIdentity : CallerIdentity) :
    M (List X509Certificate) := do
  let csrPublicKey ←
    counting .ioException .INVALID_CSR (Prog.ofExcept (extractPublicKey env request))
  validateAudience env csrPublicKey callerIdentity
  let evidence := request.attestationEvidence
  -- the endorsement is taken out of the evidence twice
  let endorsement ← Prog.ofExcept (evidence.getRawBinaryEndorsement env.parseContainerEndorsement)
  let annotations ← getAnnotations endorsement
  let endorsement ← Prog.ofExcept (evidence.getRawBinaryEndorsement env.parseContainerEndorsement)
  let validity ← getValidity endorsement
  let policy ← selectPolicy env callerIdentity annotations
  let verifier ← selectVerifier env evidence
  verifyEvidence verifier evidence csrPublicKey policy
  let certificateValidity ← certificateValidity policy validity
  let signedCertificate ← sign env request policy certificateValidity
  incrementProcessingCounter .SUCCESS
  incrementCertificateIssuanceCounter callerIdentity.getClientId
  return [signedCertificate, env.rootCertificate]

end TransparentCaService

end Issuance
end TrustedCa
