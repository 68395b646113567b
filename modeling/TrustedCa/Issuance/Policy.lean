import TrustedCa.Issuance.Domain

/-!
# Policy files and their lookup (`FileSourcedPolicyProvider`, `PolicyV1Mapper`, `PolicyV2Mapper`)

A policy file is a text of the message `google.tca.policy.v2.Policies` or, if it does not parse as
that, of `google.tca.policy.v1.Policies`.

* `Proto`: the messages of `tca_policy.proto`. What both versions share has one definition. A field
  that is not set is its default, and an `Option` where the code asks whether it is set. Reference
  values of Oak are the bytes they serialize to. The field `trust_domain` of version 1 is not read.
* `PolicyFormat`: the text format parser and printer, and the decoding of UTF-8.
* `getPolicy`: the policy of a caller for a publisher and a workload. Every failure to load or parse
  the file is an absent policy, and a file for another caller is an exception.
-/

namespace TrustedCa
namespace Issuance

open Spec

namespace Proto

structure Duration where
  seconds : Int := 0
  nanos : Int := 0
  deriving DecidableEq

/-- The `oneof values`. -/
structure ReferenceValues where
  oakReferenceValues : Option Bytes
  deriving DecidableEq

structure X500NameAttributes where
  attributesMap : List (JString × JString) := []
  deriving DecidableEq

inductive BasicConstraints.Constraint where
  | caCertificate (pathLenConstraint : Int)
  | leafCertificate
  deriving DecidableEq

structure BasicConstraints where
  constraint : Option BasicConstraints.Constraint
  deriving DecidableEq

/-- `X509Extensions`, with the `NameConstraints` of its version. -/
structure X509Extensions (N : Type) where
  basicConstraints : Option BasicConstraints := none
  nameConstraints : Option N := none
  deriving DecidableEq

structure X509CertificateAttributes (N : Type) where
  maxCertificateValidity : Duration := {}
  x509Extensions : X509Extensions N := {}
  certificateSubject : X500NameAttributes := {}
  deriving DecidableEq

/-- `Policies`, with the `Policy` of its version. -/
structure Policies (P : Type) where
  policiesMap : List (JString × P)
  issuer : JString
  subject : JString
  deriving DecidableEq

namespace V1

structure NameConstraints where
  permittedSubtree : List JString
  deriving DecidableEq

structure Policy where
  publisherId : JString
  workloadId : JString
  operator : JString
  referenceValues : List ReferenceValues
  certificateAttributes : Option (X509CertificateAttributes NameConstraints)
  deriving DecidableEq

end V1

namespace V2

/-- The `oneof name_constraint`, with the `subdomain_in_tca_domain` of the case. -/
inductive NameConstraint.Case where
  | uri (subdomainInTcaDomain : JString)
  | dns (subdomainInTcaDomain : JString)
  deriving DecidableEq

structure NameConstraint where
  nameConstraint : Option NameConstraint.Case
  deriving DecidableEq

structure NameConstraints where
  permittedSubtrees : List NameConstraint
  deriving DecidableEq

structure Policy where
  publisherId : JString
  workloadId : JString
  operatorDomain : JString
  operatorRole : JString
  referenceValues : List ReferenceValues
  certificateAttributes : Option (X509CertificateAttributes NameConstraints)
  deriving DecidableEq

end V2

/-- The messages that some error text contains. -/
inductive Message where
  | policyV1 (proto : V1.Policy)
  | policyV2 (proto : V2.Policy)
  | basicConstraints (proto : BasicConstraints)
  | nameConstraint (proto : V2.NameConstraint)
  | referenceValues (proto : ReferenceValues)

end Proto

/-- The functions of the protocol buffers that read and print a policy file. -/
structure PolicyFormat where
  toStringUtf8 : Bytes → JString
  mergeV1 : JString → Except Thrown (Proto.Policies Proto.V1.Policy)
  mergeV2 : JString → Except Thrown (Proto.Policies Proto.V2.Policy)
  toString : Proto.Message → JString

/-! ## The mappers -/

section Mappers

variable (format : PolicyFormat)

/-- `toDomain` of `ReferenceValues`, in both mappers. -/
def toDomainReferenceValues (proto : Proto.ReferenceValues) : Except Thrown ReferenceValues :=
  match proto.oakReferenceValues with
  | some raw => .ok ⟨.OAK, raw⟩
  | none => .error (IllegalArgumentException
      (.lit "Unsupported or missing reference values type: " ++
        format.toString (.referenceValues proto)))

/-- `toDomain` of `BasicConstraints`, in both mappers. -/
def toDomainBasicConstraints (proto : Proto.BasicConstraints) : Except Thrown BasicConstraints :=
  match proto.constraint with
  | some (.caCertificate pathLenConstraint) => .ok ⟨.CA, pathLenConstraint⟩
  | some .leafCertificate => .ok ⟨.LEAF, 0⟩
  | none => .error (IllegalArgumentException
      (.lit "Unsupported or missing certificate type: " ++
        format.toString (.basicConstraints proto)))

/-- `toDomain` of `X509CertificateAttributes`, in both mappers. They differ in `nameConstraints`. -/
def toDomainX509CertificateAttributes {N : Type} (nameConstraints : N → Except Thrown NameConstraints)
    (proto : Proto.X509CertificateAttributes N) : Except Thrown X509CertificateAttributes := do
  let maxCertificateValidity ←
    Duration.ofSeconds proto.maxCertificateValidity.seconds proto.maxCertificateValidity.nanos
  let basic ← proto.x509Extensions.basicConstraints.mapM (toDomainBasicConstraints format)
  let names ← proto.x509Extensions.nameConstraints.mapM nameConstraints
  return ⟨maxCertificateValidity, ⟨basic, names⟩, ⟨proto.certificateSubject.attributesMap⟩⟩

/-- `toDomain` of `Policies`, in both mappers. An `IllegalArgumentException` becomes an
`InvalidPolicyException`; other exceptions stay. -/
def toDomainPolicies {P : Type} (policy : P → Except Thrown Policy) (proto : Proto.Policies P) :
    Except Thrown Policies := do
  let policiesMap ← tryCatch
    (proto.policiesMap.mapM fun (key, value) => do return (key, ← policy value))
    fun e =>
      if e.isA .illegalArgumentException then
        throw ⟨.invalidPolicyException, .lit "Error occurred during policy parsing"⟩
      else throw e
  return ⟨proto.issuer, proto.subject, policiesMap⟩

namespace PolicyV1Mapper

def toDomainNameConstraints (proto : Proto.V1.NameConstraints) : Except Thrown NameConstraints :=
  .ok ⟨proto.permittedSubtree.map .uri⟩

def toDomainPolicy (proto : Proto.V1.Policy) : Except Thrown Policy := do
  let some certificateAttributes := proto.certificateAttributes
    | throw (IllegalArgumentException
        (.lit "Missing CertificateAttributes field, proto: " ++ format.toString (.policyV1 proto)))
  if proto.referenceValues.length < 1 then
    throw (IllegalArgumentException
      (.lit "Policy should have at least one Reference Values, proto:\n" ++
        format.toString (.policyV1 proto)))
  let some (operatorDomain, operatorRole) :=
      JString.splitAtFirst (JString.char '/') proto.operator
    | throw (IllegalArgumentException
        (.lit "Operator must be in 'domain/role' format: " ++ proto.operator))
  if operatorDomain.isBlank || operatorRole.isBlank then
    throw (IllegalArgumentException
      (.lit "Operator domain and role must not be empty or blank, got: " ++ proto.operator))
  let referenceValuesList ← proto.referenceValues.mapM (toDomainReferenceValues format)
  let attributes ←
    toDomainX509CertificateAttributes format toDomainNameConstraints certificateAttributes
  return ⟨proto.publisherId, proto.workloadId, operatorDomain, operatorRole, referenceValuesList,
    attributes⟩

def toDomain (proto : Proto.Policies Proto.V1.Policy) : Except Thrown Policies :=
  toDomainPolicies (toDomainPolicy format) proto

end PolicyV1Mapper

namespace PolicyV2Mapper

def toDomainNameConstraint (proto : Proto.V2.NameConstraint) : Except Thrown NameConstraint :=
  match proto.nameConstraint with
  | some (.uri subdomain) => .ok (.uriInTrustDomain subdomain)
  | some (.dns subdomain) => .ok (.dnsInTrustDomain subdomain)
  | none => .error (IllegalArgumentException
      (.lit "Unsupported or missing name constraint type: " ++
        format.toString (.nameConstraint proto)))

def toDomainNameConstraints (proto : Proto.V2.NameConstraints) : Except Thrown NameConstraints := do
  return ⟨← proto.permittedSubtrees.mapM (toDomainNameConstraint format)⟩

def toDomainPolicy (proto : Proto.V2.Policy) : Except Thrown Policy := do
  let some certificateAttributes := proto.certificateAttributes
    | throw (IllegalArgumentException
        (.lit "Missing CertificateAttributes field, proto: " ++ format.toString (.policyV2 proto)))
  if proto.referenceValues.length < 1 then
    throw (IllegalArgumentException
      (.lit "Policy should have at least one Reference Values, proto:\n" ++
        format.toString (.policyV2 proto)))
  let referenceValuesList ← proto.referenceValues.mapM (toDomainReferenceValues format)
  let attributes ←
    toDomainX509CertificateAttributes format (toDomainNameConstraints format) certificateAttributes
  return ⟨proto.publisherId, proto.workloadId, proto.operatorDomain, proto.operatorRole,
    referenceValuesList, attributes⟩

def toDomain (proto : Proto.Policies Proto.V2.Policy) : Except Thrown Policies :=
  toDomainPolicies (toDomainPolicy format) proto

end PolicyV2Mapper

end Mappers

/-! ## The provider -/

namespace FileSourcedPolicyProvider

variable (format : PolicyFormat)

/-- `PARSERS`. -/
def parsers : List (JString → Except Thrown Policies) :=
  [fun content => do PolicyV2Mapper.toDomain format (← format.mergeV2 content),
    fun content => do PolicyV1Mapper.toDomain format (← format.mergeV1 content)]

/-- The loop of `parsePolicies`. Only a `TextFormat.ParseException` leads to the next parser. -/
def tryParsers (content : JString) :
    List (JString → Except Thrown Policies) → Except Thrown Policies
  | [] => .error (IllegalArgumentException
      (.lit "All available parsers failed to parse the policy content."))
  | parser :: rest =>
    match parser content with
    | .ok policies => .ok policies
    | .error e => if e.isA .parseException then tryParsers content rest else .error e

def parsePolicies (rawFileContent : JString) : Except Thrown Policies :=
  tryParsers rawFileContent (parsers format)

def getPolicy (identity : CallerIdentity) (publisherId workloadId : JString) : M (Option Policy) := do
  let clientId := identity.getClientId
  let rawFileOpt ← tryCatch (fetchFile clientId) fun e =>
    if e.isA .fileLoadException then pure none else throw e
  let some rawFile := rawFileOpt | return none
  match parsePolicies format (format.toStringUtf8 rawFile) with
  | .error e => if e.isA .exception then return none else throw e
  | .ok domainPolicies =>
    if domainPolicies.issuer ≠ identity.issuer ∨ domainPolicies.subject ≠ identity.subject then
      incrementProcessingCounter .POLICY_IDENTITY_MISMATCH
      throw (IllegalArgumentException
        (.lit "Policy identity mismatch. File for " ++ clientId ++ .lit " has issuer: " ++
          domainPolicies.issuer ++ .lit ", subject: " ++ domainPolicies.subject ++
          .lit ", but request has issuer: " ++ identity.issuer ++ .lit ", subject: " ++
          identity.subject))
    allowMetricsForClientId clientId
    return domainPolicies.get (publisherId ++ .lit "/" ++ workloadId)

end FileSourcedPolicyProvider

end Issuance
end TrustedCa
