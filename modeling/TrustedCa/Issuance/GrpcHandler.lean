import TrustedCa.Issuance.Stages
import TrustedCa.Issuance.Endorsement

/-!
# The handler of the gRPC call (`TransparentCertificateAuthorityGrpcHandler`)

The handler reads the caller from the context, maps the request, calls `TransparentCaService`, and
answers the response observer. It counts only a request that cannot be mapped. Every other count is
made by the service and what it calls, and the handler turns the exceptions it catches into replies.

* `Reply`: the calls of the observer, which takes them all. They are logged with the calls of the
  service, so the log of a run has its replies and its counts in their order.
* `serverAnswer`: the endorsement provider answers as its code does, and the rest of the world as it
  likes.
-/

namespace TrustedCa
namespace Issuance

open Spec

namespace Proto

/-- The `oneof evidence` of `google.tca.v1.AttestationEvidence`. -/
inductive AttestationEvidence where
  | awsAttestationEvidence (attestationToken : Bytes)
  | gcpAttestationEvidence (attestationToken : Bytes)
  | oakAttestationEvidence (evidence : Bytes) (endorsements : Endorsements)
      (signedPublicKey : Bytes)
  | evidenceNotSet
  deriving DecidableEq

/-- A request without the message `attestation_evidence` has its default, `evidenceNotSet`. -/
structure IssueCertificateRequest where
  certificateSigningRequest : Bytes
  attestationEvidence : AttestationEvidence
  deriving DecidableEq

structure IssueCertificateResponse where
  signedCertificates : List Bytes
  deriving DecidableEq

end Proto

/-! ## The mappers -/

def AttestationEvidenceMapper.toDomain :
    Proto.AttestationEvidence → Except Thrown AttestationEvidence
  | .awsAttestationEvidence attestationToken => .ok (.aws attestationToken)
  | .gcpAttestationEvidence attestationToken => .ok (.gcp attestationToken)
  | .oakAttestationEvidence evidence endorsements signedPublicKey =>
    .ok (.oak evidence endorsements signedPublicKey)
  | .evidenceNotSet => .error (IllegalArgumentException
      (.lit "Attestation evidence not set or unsupported"))

def CertificateIssuanceRequestMapper.toDomain (proto : Proto.IssueCertificateRequest) :
    Except Thrown CertificateIssuanceRequest := do
  return { attestationEvidence := ← AttestationEvidenceMapper.toDomain proto.attestationEvidence
           certificateSigningRequest := proto.certificateSigningRequest }

/-- `new CallerIdentity(issuer, subject, audiences)`, of arguments that are not null. -/
def CallerIdentity.create (issuer subject : JString) (audiences : List JString) :
    Except Thrown CallerIdentity :=
  match hissuer : issuer.isBlank with
  | true => .error (IllegalArgumentException (.lit "issuer cannot be blank"))
  | false =>
    match hsubject : subject.isBlank with
    | true => .error (IllegalArgumentException (.lit "subject cannot be blank"))
    | false => .ok ⟨issuer, subject, audiences, hissuer, hsubject⟩

/-! ## The handler -/

/-- The codes of `io.grpc.Status` that are used. -/
inductive GrpcStatus where
  | UNAUTHENTICATED | INVALID_ARGUMENT | PERMISSION_DENIED | FAILED_PRECONDITION | INTERNAL
  deriving DecidableEq

/-- The calls of `StreamObserver<IssueCertificateResponse>`. -/
inductive Reply where
  | onNext (response : Proto.IssueCertificateResponse)
  | onCompleted
  | onError (status : GrpcStatus) (description : JString)
  deriving DecidableEq

/-- The calls of the service, and those of the observer. -/
abbrev HandlerOp := Op ⊕ Reply

abbrev HandlerRet : HandlerOp → Type := Sum.elim Ret fun _ => Unit

abbrev H := Prog HandlerOp HandlerRet Thrown

abbrev HandlerLog := List (Event HandlerOp HandlerRet)

namespace TransparentCertificateAuthorityGrpcHandler

def reply (call : Reply) : H Unit := .call (.inr call) .ret

/-- The `catch` clauses, in their order. -/
def handle (e : Thrown) : H Unit :=
  if e.isA .audienceValidationException then reply (.onError .PERMISSION_DENIED e.message)
  else if e.isA .illegalArgumentException then reply (.onError .INVALID_ARGUMENT e.message)
  else if e.isA .illegalStateException then reply (.onError .FAILED_PRECONDITION e.message)
  else if e.isA .ioException then reply (.onError .INVALID_ARGUMENT (.lit "Invalid CSR"))
  else if e.isA .certificateException then
    reply (.onError .INTERNAL (.lit "Failed to sign certificate"))
  else throw e

-- `getEncoded` is `X509Certificate.getEncoded`.
variable (env : Env) (getEncoded : X509Certificate → Except Thrown Bytes)

/-- The block of the second `try`. -/
def respond (domainRequest : CertificateIssuanceRequest) (callerIdentity : CallerIdentity) :
    H Unit := do
  let certificateChain ←
    (TransparentCaService.issueCertificate env domainRequest callerIdentity).lift
  let signedCertificates ← Prog.ofExcept (certificateChain.mapM getEncoded)
  reply (.onNext ⟨signedCertificates⟩)
  reply .onCompleted

/-- `issueCertificate`, with what the keys of the context hold. -/
def issueCertificate (issuer subject : Option JString) (audiences : Option (List JString))
    (request : Proto.IssueCertificateRequest) : H Unit :=
  match issuer, subject, audiences with
  | some issuer, some subject, some audiences => do
    let callerIdentity ← Prog.ofExcept (CallerIdentity.create issuer subject audiences)
    match CertificateIssuanceRequestMapper.toDomain request with
    | .error e =>
      if e.isA .illegalArgumentException then
        (incrementProcessingCounter .INVALID_EVIDENCE).lift
        reply (.onError .INVALID_ARGUMENT e.message)
      else throw e
    | .ok domainRequest => tryCatch (respond env getEncoded domainRequest callerIdentity) handle
  | _, _, _ => reply (.onError .UNAUTHENTICATED (.lit "Missing JWT token"))

/-! ## The server -/

-- What the object mapper binds of a statement, and `Instant.parse`.
variable (mapper : Bytes → Except Thrown Json.InTotoStatement)
  (parseInstant : JString → Except Thrown Instant)

/-- The endorsements are read by the provider. The answers to all other calls are arbitrary. -/
def serverAnswer (outside : Log → (o : Op) → Ret o) : Log → (o : Op) → Ret o
  | _, .getAnnotations statementBytes =>
    JsonIntotoEndorsementMetadataProvider.getAnnotations mapper statementBytes
  | _, .getValidity statementBytes =>
    JsonIntotoEndorsementMetadataProvider.getValidity mapper parseInstant statementBytes
  | log, o => outside log o

/-- The run of the handler for a request: its log, and the exception that escapes, if any. -/
def run (outside : Log → (o : Op) → Ret o) (issuer subject : Option JString)
    (audiences : Option (List JString)) (request : Proto.IssueCertificateRequest) :
    HandlerLog × Except Thrown Unit :=
  (issueCertificate env getEncoded issuer subject audiences request).run
    (both (serverAnswer mapper parseInstant outside) fun _ => ()) []

end TransparentCertificateAuthorityGrpcHandler

end Issuance
end TrustedCa
