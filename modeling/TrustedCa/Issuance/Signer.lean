import TrustedCa.Issuance.Domain

/-!
# Building and signing the certificate (`CertificateSignerImpl`, `com.google.tca.adapters.certsigning`)

`signCsr` parses the certificate signing request once more and takes from it the public key only. The
names, the dates and the extensions come from its arguments.

* `CertificateLibrary`: what Bouncy Castle and the key factories of the platform compute. An
  exception of `addExtension` or `sign` is any exception they throw.
* A certificate is what its builder held and a signature. Dates in a certificate have a resolution
  of one second, and a URI or a DNS name is an `IA5String`, which keeps the lower byte of every
  character.
-/

namespace TrustedCa
namespace Issuance

open Spec

/-- The functions on keys, requests and certificates that the code calls. -/
structure CertificateLibrary where
  /-- `new PKCS10CertificationRequest(bytes)`. -/
  parseCsr : Bytes → Except Thrown PKCS10CertificationRequest
  /-- `SubjectPublicKeyInfo.getEncoded`. -/
  encodeKeyInfo : SubjectPublicKeyInfo → Except Thrown Bytes
  /-- `KeyFactory.getInstance("RSA").generatePublic(new X509EncodedKeySpec(bytes))`. -/
  generatePublicRsa : Bytes → Except Thrown PublicKey
  /-- `new JcaPEMKeyConverter().getPublicKey(info)`. -/
  pemPublicKey : SubjectPublicKeyInfo → Except Thrown PublicKey
  /-- The name of the attributes, from `X500NameBuilder` and `X500Principal`. -/
  x500Name : List (JString × JString) → Except Thrown X500Principal
  authorityKeyIdentifier : X509Certificate → Except Thrown Bytes
  authorityKeyIdentifierOfKey : PublicKey → Except Thrown Bytes
  subjectKeyIdentifier : SubjectPublicKeyInfo → Except Thrown Bytes
  /-- Whether the builder takes the extension. -/
  addExtension : X509v3CertificateBuilder → Extension → Except Thrown Unit
  /-- The signature under "SHA256withRSA", where the certificate is one. -/
  sign : X509v3CertificateBuilder → PrivateKey → Except Thrown Bytes

/-- The RSA decoder and the PEM key converter map one `SubjectPublicKeyInfo` to the same key. -/
def CertificateLibrary.KeysAgree (lib : CertificateLibrary) : Prop :=
  ∀ info bytes key key', lib.encodeKeyInfo info = .ok bytes → lib.generatePublicRsa bytes = .ok key →
    lib.pemPublicKey info = .ok key' → key' = key

namespace PublicKeyDecoder

def decodeRawPublicKey (lib : CertificateLibrary) (keyBytes : Bytes) : Except Thrown PublicKey := do
  if keyBytes.length = 0 then
    throw (IllegalArgumentException (.lit "Public key bytes cannot be null or empty."))
  tryCatch (lib.generatePublicRsa keyBytes) fun e =>
    if e.isA .invalidKeySpecException || e.isA .noSuchAlgorithmException then
      throw (IllegalArgumentException (.lit "Failed to decode public key as RSA."))
    else throw e

theorem decodeRawPublicKey_ok {lib : CertificateLibrary} {keyBytes : Bytes} {key : PublicKey}
    (h : decodeRawPublicKey lib keyBytes = .ok key) : lib.generatePublicRsa keyBytes = .ok key := by
  unfold decodeRawPublicKey at h
  split at h
  · cases h
  · refine (tryCatch_eq_ok fun e b => ?_).mp h
    split <;> intro hb <;> cases hb

end PublicKeyDecoder

/-! ## The modifiers -/

section Modifiers

variable (lib : CertificateLibrary)

def X509v3CertificateBuilder.addExtension (builder : X509v3CertificateBuilder) (critical : Bool)
    (value : ExtensionValue) : Except Thrown X509v3CertificateBuilder := do
  lib.addExtension builder ⟨critical, value⟩
  return { builder with extensions := builder.extensions ++ [⟨critical, value⟩] }

/-- `addExtension` in a `try` that wraps the exceptions of the class `c` in a `RuntimeException`. -/
def addWrapped (c : ExnClass) (message : JString) (builder : X509v3CertificateBuilder)
    (value : ExtensionValue) : Except Thrown X509v3CertificateBuilder :=
  tryCatch (builder.addExtension lib true value) fun e =>
    if e.isA c then throw ⟨.runtimeException, message⟩ else throw e

namespace BasicConstraintsModifier

def apply (constraints : BasicConstraints) (builder : X509v3CertificateBuilder) :
    Except Thrown X509v3CertificateBuilder :=
  let isCa := constraints.type = .CA
  addWrapped lib .exception (.lit "Failed to add basic constraints") builder
    (.basicConstraints (if isCa then some constraints.pathLenConstraint else none))

end BasicConstraintsModifier

namespace KeyUsageModifier

def apply (constraints : BasicConstraints) (builder : X509v3CertificateBuilder) :
    Except Thrown X509v3CertificateBuilder :=
  let isCa := constraints.type = .CA
  addWrapped lib .exception (.lit "Failed to add key usage") builder
    (.keyUsage (if isCa then [.keyCertSign] else [.digitalSignature, .keyEncipherment]))

end KeyUsageModifier

namespace NameConstraintsModifier

def permittedSubtree (trustDomain : JString) : NameConstraint → GeneralName
  | .uri domain => .uniformResourceIdentifier (.ofString domain)
  | .uriInTrustDomain domain =>
    .uniformResourceIdentifier (.ofString (domain ++ .lit "." ++ trustDomain))
  | .dnsInTrustDomain domain => .dNSName (.ofString (domain ++ .lit "." ++ trustDomain))

def apply (permitted : List NameConstraint) (trustDomain : JString)
    (builder : X509v3CertificateBuilder) : Except Thrown X509v3CertificateBuilder :=
  addWrapped lib .exception (.lit "Failed to assign name constraints") builder
    (.nameConstraints (permitted.map (permittedSubtree trustDomain)))

end NameConstraintsModifier

namespace SubjectAlternativeNameModifier

def toSpiffeIdPublisher (publisherId : JString) : Except Thrown JString :=
  match JString.splitAtFirst (JString.char '@') publisherId with
  | none => .error (IllegalArgumentException
      (.lit "Publisher ID must be in email-like format (role@domain): " ++ publisherId))
  | some (role, domain) => .ok (domain ++ .lit "/" ++ role)

/-- The text of the URI that `apply` adds. -/
def san (policy : Policy) (tcaTrustDomain : JString) : Except Thrown JString := do
  let workloadTrustDomain := policy.operatorDomain ++ .lit "." ++ tcaTrustDomain
  return .lit "spiffe://" ++ workloadTrustDomain ++ .lit "/operator/" ++ policy.operatorDomain ++
    .lit "/" ++ policy.operatorRole ++ .lit "/publisher/" ++
    (← toSpiffeIdPublisher policy.publisherId) ++ .lit "/workload/" ++ policy.workloadId

def apply (policy : Policy) (tcaTrustDomain : JString) (builder : X509v3CertificateBuilder) :
    Except Thrown X509v3CertificateBuilder := do
  addWrapped lib .certIOException
    (.lit "Error occurred during application of SAN certificate extension") builder
    (.subjectAlternativeName (.uniformResourceIdentifier (.ofString (← san policy tcaTrustDomain))))

end SubjectAlternativeNameModifier

def CertificateModifier.apply : CertificateModifier → X509v3CertificateBuilder →
    Except Thrown X509v3CertificateBuilder
  | .nameConstraints permitted trustDomain =>
    NameConstraintsModifier.apply lib permitted trustDomain
  | .basicConstraints constraints => BasicConstraintsModifier.apply lib constraints
  | .keyUsage constraints => KeyUsageModifier.apply lib constraints
  | .subjectAlternativeName policy tcaTrustDomain =>
    SubjectAlternativeNameModifier.apply lib policy tcaTrustDomain

/-- `b` with further extensions. -/
def X509v3CertificateBuilder.Extends (b' b : X509v3CertificateBuilder) : Prop :=
  ∃ more, b' = { b with extensions := b.extensions ++ more }

theorem X509v3CertificateBuilder.Extends.trans {b b₁ b₂ : X509v3CertificateBuilder}
    (h₂ : b₂.Extends b₁) (h₁ : b₁.Extends b) : b₂.Extends b := by
  obtain ⟨more₁, rfl⟩ := h₁
  obtain ⟨more₂, rfl⟩ := h₂
  exact ⟨more₁ ++ more₂, by simp⟩

variable {lib} in
theorem X509v3CertificateBuilder.addExtension_ok {b b' : X509v3CertificateBuilder} {critical : Bool}
    {value : ExtensionValue} (h : b.addExtension lib critical value = .ok b') : b'.Extends b := by
  obtain ⟨_, -, h⟩ := bind_eq_ok.mp h
  cases h
  exact ⟨_, rfl⟩

variable {lib} in
theorem addWrapped_ok {c : ExnClass} {message : JString} {b b' : X509v3CertificateBuilder}
    {value : ExtensionValue} (h : addWrapped lib c message b value = .ok b') : b'.Extends b := by
  refine X509v3CertificateBuilder.addExtension_ok ((tryCatch_eq_ok fun e b => ?_).mp h)
  split <;> intro hb <;> cases hb

variable {lib} in
/-- A modifier only adds an extension. -/
theorem CertificateModifier.apply_ok {modifier : CertificateModifier}
    {b b' : X509v3CertificateBuilder} (h : modifier.apply lib b = .ok b') : b'.Extends b := by
  cases modifier with
  | nameConstraints permitted trustDomain => exact addWrapped_ok h
  | basicConstraints constraints => exact addWrapped_ok h
  | keyUsage constraints => exact addWrapped_ok h
  | subjectAlternativeName policy tcaTrustDomain =>
    obtain ⟨_, -, h⟩ := bind_eq_ok.mp h
    exact addWrapped_ok h

variable {lib} in
theorem applyAll_ok {modifiers : List CertificateModifier} {b b' : X509v3CertificateBuilder}
    (h : modifiers.foldlM (fun b modifier => modifier.apply lib b) b = .ok b') : b'.Extends b := by
  induction modifiers generalizing b with
  | nil => cases h; exact ⟨[], by simp⟩
  | cons modifier modifiers ih =>
    rw [List.foldlM_cons] at h
    obtain ⟨b₁, hb₁, h⟩ := bind_eq_ok.mp h
    exact (ih h).trans (CertificateModifier.apply_ok hb₁)

def CertificateModifiersCreatorImpl.create (trustDomain : JString) (policy : Policy) :
    List CertificateModifier :=
  let extensions := policy.certificateAttributes.extensions
  (match extensions.nameConstraints with
    | some constraints => [.nameConstraints constraints.permittedSubtrees trustDomain]
    | none => []) ++
  (match extensions.basicConstraints with
    | some constraints => [.basicConstraints constraints, .keyUsage constraints]
    | none => []) ++
  [.subjectAlternativeName policy trustDomain]

end Modifiers

/-! ## The signer -/

namespace CertificateSignerImpl

variable (lib : CertificateLibrary)

/-- `Date.from`: the milliseconds. -/
def dateFrom (t : Instant) : Except Thrown Int :=
  tryCatch t.toEpochMilli fun e =>
    if e.isA .arithmeticException then
      throw (IllegalArgumentException (.lit "java.lang.ArithmeticException: " ++ e.message))
    else throw e

def createAuthorityKeyIdentifier (issuerCert : X509Certificate) : Except Thrown Bytes :=
  if issuerCert.extensions.any fun e => e.value matches .subjectKeyIdentifier _ then
    lib.authorityKeyIdentifier issuerCert
  else lib.authorityKeyIdentifierOfKey issuerCert.publicKey

/-- A date as a certificate holds it. -/
def toSeconds (date : Int) : Int := date / 1000 * 1000

/-- The builder of the certificate, after the serial number has been read from the clock. -/
def build (args : SignCsrArgs) (csr : PKCS10CertificationRequest) (serial : Int) :
    Except Thrown X509v3CertificateBuilder := do
  let notBefore ← dateFrom args.notBefore
  let notAfter ← dateFrom args.notAfter
  let key ← lib.pemPublicKey csr.getSubjectPublicKeyInfo
  let certBuilder : X509v3CertificateBuilder :=
    { issuer := args.issuerCert.subject, serial := serial, notBefore := toSeconds notBefore,
      notAfter := toSeconds notAfter, subject := args.subject, publicKey := key }
  let aki ← createAuthorityKeyIdentifier lib args.issuerCert
  let ski ← lib.subjectKeyIdentifier csr.getSubjectPublicKeyInfo
  let certBuilder ← certBuilder.addExtension lib false (.authorityKeyIdentifier aki)
  let certBuilder ← certBuilder.addExtension lib false (.subjectKeyIdentifier ski)
  args.modifiers.foldlM (fun builder modifier => modifier.apply lib builder) certBuilder

variable {lib} in
/-- The certificate is for the key in the request, and has the serial number. -/
theorem build_ok {args : SignCsrArgs} {csr : PKCS10CertificationRequest} {serial : Int}
    {b : X509v3CertificateBuilder} (h : build lib args csr serial = .ok b) :
    lib.pemPublicKey csr.getSubjectPublicKeyInfo = .ok b.publicKey ∧ b.serial = serial := by
  unfold build at h
  simp only [bind_eq_ok] at h
  obtain ⟨_, -, _, -, key, hkey, _, -, _, -, b₁, hb₁, b₂, hb₂, hb⟩ := h
  have h₁ := X509v3CertificateBuilder.addExtension_ok hb₁
  have h₂ := X509v3CertificateBuilder.addExtension_ok hb₂
  obtain ⟨more, rfl⟩ := (applyAll_ok hb).trans (h₂.trans h₁)
  exact ⟨hkey, rfl⟩

/-- The block of the `try`. -/
def buildAndSign (args : SignCsrArgs) : M X509Certificate := do
  let csr ← Prog.ofExcept (lib.parseCsr args.csrBytes)
  let time ← now
  let serial ← Prog.ofExcept time.toEpochMilli
  let certBuilder ← Prog.ofExcept (build lib args csr serial)
  let signature ← Prog.ofExcept (lib.sign certBuilder args.issuerPrivateKey)
  return ⟨certBuilder, signature⟩

def signCsr (args : SignCsrArgs) : M X509Certificate := do
  .call (.signCsr args) .ret
  tryCatch (buildAndSign lib args) fun e =>
    if e.isA .operatorCreationException || e.isA .generalSecurityException then
      throw ⟨.certificateException, e.message⟩
    else throw e

end CertificateSignerImpl

end Issuance
end TrustedCa
