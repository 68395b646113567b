import TrustedCa.Attestation.OakVerifier
import TrustedCa.Issuance.Soundness

/-!
# What stands behind a certificate

The service asks a verifier about the evidence, and takes the endorsement of the workload out of the
evidence itself. With the verifiers of `TransparentCaModule`, a certificate is only issued on Oak
evidence: for the other two kinds there is no endorsement to take out. So whenever a certificate is
issued, the Oak library has verified the evidence together with the endorsement that names the
workload, and the signing key of the verified instance has signed the key in the certificate
(`certified_on_verified_evidence`).

* `AnswersVerify`: the device answers the calls of the Oak verifier as `OakAttestationVerifier.verify`
  does, at the times of a clock. What it answers to other calls is arbitrary.
-/

namespace TrustedCa
namespace Attestation
namespace Oak

open Issuance Spec TransparentCaService

variable {Verifier : Type}

/-- The calls of the Oak verifier are answered by the code. -/
def AnswersVerify (lib : Library Verifier) (clock : Log → Int)
    (answer : Log → (o : Op) → Ret o) : Prop :=
  ∀ log evidence key referenceValues,
    answer log (.verify .oakVerifier evidence key referenceValues) =
      OakAttestationVerifier.verify lib (clock log) evidence key referenceValues

/-- Only in Oak evidence there is an endorsement, and it is in the one container event. -/
theorem getRawBinaryEndorsement_ok {parse : Bytes → Option Bytes} {evidence : AttestationEvidence}
    {endorsement : Bytes} (h : evidence.getRawBinaryEndorsement parse = .ok endorsement) :
    ∃ bytes endorsements signedPublicKey container,
      evidence = .oak bytes endorsements signedPublicKey ∧
      AttestationEvidence.getContainerEndorsement endorsements = [container] ∧
      parse container.value = some endorsement := by
  cases evidence with
  | aws _ => cases h
  | gcp _ => cases h
  | oak bytes endorsements signedPublicKey =>
    unfold AttestationEvidence.getRawBinaryEndorsement at h
    dsimp only at h
    split at h
    · next container hevents =>
      split at h
      · next hparse =>
        cases h
        exact ⟨_, _, _, container, rfl, hevents, hparse⟩
      · cases h
    · cases h

/-- The Oak verifier is the one that is chosen for Oak evidence. -/
theorem getVerifier_oak {bytes signedPublicKey : Bytes} {endorsements : Endorsements} :
    AttestationVerifierProviderImpl.getVerifier provideVerifiers
      (.oak bytes endorsements signedPublicKey) = some .oakVerifier := rfl

/-- What the evidence of a request has to do with a key. -/
structure Attests (lib : Library Verifier) (env : Env) (a : Admission) (evidence : AttestationEvidence)
    (key : PublicKey) : Prop where
  verified : ∃ bytes endorsements signedPublicKey container currentTimeMillis results,
    ∃ v : Verification lib currentTimeMillis bytes endorsements a.referenceValues.raw results,
      evidence = .oak bytes endorsements signedPublicKey ∧
      -- the workload's endorsement is among those that the Oak library has checked
      AttestationEvidence.getContainerEndorsement v.checkedEndorsements = [container] ∧
      env.parseContainerEndorsement container.value = some a.endorsement ∧
      OakAttestationVerifier.Binds lib results signedPublicKey key
  listed : a.referenceValues ∈ a.policy.referenceValuesList
  type : a.referenceValues.type = .OAK

/-- **A certificate is issued on verified evidence.** With the verifiers of the module, whatever the
other calls answer: a chain that is returned is a leaf and the root, all checks have passed for the
key of the leaf, the evidence is Oak evidence which the Oak library has verified against reference
values of the selected policy, together with the endorsement that named the workload, and the
one signing key of the verified instance has signed the key of the leaf. -/
theorem certified_on_verified_evidence (env : Env) (hverifiers : env.verifiers = provideVerifiers)
    (hkeys : env.lib.KeysAgree) {lib : Library Verifier} (hlib : lib.Lawful) (clock : Log → Int)
    {answer : Log → (o : Op) → Ret o} (hanswer : AnswersVerify lib clock answer)
    {request : CertificateIssuanceRequest} {identity : CallerIdentity} {log : Log}
    {chain : List X509Certificate}
    (hrun : (issueCertificate env request identity).run answer [] = (log, .ok chain)) :
    ∃ (a : Admission) (args : SignCsrArgs) (leaf : X509Certificate) (before : Log),
      chain = [leaf, env.rootCertificate] ∧ a.Valid env request identity args before ∧
        SignCsrEnds env answer args before (.ok leaf) log ∧
        Attests lib env a request.attestationEvidence leaf.publicKey := by
  have hout := wp_run (issueCertificate_wp env answer request identity)
  have hlog := (Answered.nil : Answered answer []).run (issueCertificate env request identity)
  rw [hrun] at hout hlog
  dsimp only at hlog
  obtain ⟨a, args, leaf, before, hchain, hvalid, -, hsign⟩ := hout
  refine ⟨a, args, leaf, before, hchain, hvalid, hsign, ?_⟩
  obtain ⟨during, after, hends, hsigned⟩ := hsign
  dsimp only at hends
  -- the key that was checked is the key of the leaf
  have hkey : leaf.publicKey = a.key := by
    obtain ⟨csr, hcsr, hpem⟩ := signCsr_run_ok hsigned
    obtain ⟨bytes, hbytes, hdecode⟩ := hvalid.key
    rw [hvalid.request, hvalid.csr] at hcsr
    cases hcsr
    exact hkeys _ _ _ _ hbytes (PublicKeyDecoder.decodeRawPublicKey_ok hdecode) hpem
  obtain ⟨bytes, endorsements, signedPublicKey, container, hevidence, hcontainer, hparse⟩ :=
    getRawBinaryEndorsement_ok hvalid.endorsement
  have hverifier : a.verifier = .oakVerifier := by
    have h := hvalid.verifier
    rw [hverifiers, hevidence, getVerifier_oak] at h
    exact (Option.some.inj h).symm
  obtain ⟨earlier, later, hbefore⟩ := List.append_of_mem hvalid.verified
  have htrue : OakAttestationVerifier.verify lib (clock earlier) request.attestationEvidence a.key
      a.referenceValues = .ok true := by
    rw [← hanswer, ← hverifier]
    refine (hlog earlier ⟨.verify a.verifier _ _ _, .ok true⟩ (later ++ during ++ after) ?_).symm
    rw [hends, hbefore]
    simp
  rw [hevidence, OakAttestationVerifier.verify_true_iff hlib] at htrue
  obtain ⟨results, hinner, -, hbinds⟩ := htrue
  obtain ⟨v⟩ := verifyAttestationInner_ok hlib hinner
  refine ⟨⟨bytes, endorsements, signedPublicKey, container, _, results, v, hevidence, ?_, hparse,
    hkey ▸ hbinds⟩, hvalid.listed, by rw [hvalid.type, hevidence]; rfl⟩
  rw [AttestationEvidence.getContainerEndorsement, v.events_eq]
  exact hcontainer

/-! ### A certificate for an instance without a TEE -/

namespace Sample

/-- The point of P-256 with the private key 1. -/
def signingKey : Bytes :=
  [0x04, 0x6b, 0x17, 0xd1, 0xf2, 0xe1, 0x2c, 0x42, 0x47, 0xf8, 0xbc, 0xe6, 0xe5, 0x63, 0xa4, 0x40,
   0xf2, 0x77, 0x03, 0x7d, 0x81, 0x2d, 0xeb, 0x33, 0xa0, 0xf4, 0xa1, 0x39, 0x45, 0xd8, 0x98, 0xc2,
   0x96, 0x4f, 0xe3, 0x42, 0xe2, 0xfe, 0x1a, 0x7f, 0x9b, 0x8e, 0xe7, 0xeb, 0x4a, 0x7c, 0x0f, 0x9e,
   0x16, 0x2b, 0xce, 0x33, 0x57, 0x6b, 0x31, 0x5e, 0xce, 0xcb, 0xb6, 0x40, 0x68, 0x37, 0xbf, 0x51,
   0xf5]

/-- Its signature over the key of the request. -/
def signedPublicKey : Bytes :=
  [0x7c, 0xf2, 0x7b, 0x18, 0x8d, 0x03, 0x4f, 0x7e, 0x8a, 0x52, 0x38, 0x03, 0x04, 0xb5, 0x1a, 0xc3,
   0xc0, 0x89, 0x69, 0xe2, 0x77, 0xf2, 0x1b, 0x35, 0xa6, 0x0b, 0x48, 0xfc, 0x47, 0x66, 0x99, 0x78,
   0x6f, 0xdb, 0x99, 0x75, 0x53, 0x15, 0x0d, 0xa9, 0xd5, 0x7b, 0xb6, 0xc9, 0x60, 0xa0, 0x89, 0x85,
   0x28, 0x4e, 0x78, 0xea, 0xb8, 0xb6, 0x44, 0x73, 0xa9, 0x60, 0x64, 0x40, 0x76, 0x91, 0x6a, 0xd8]

/-- The bytes of the evidence. -/
def evidence : Bytes := [0x0a, 0x02, 0x08, 0x03]

def endorsements : Endorsements where
  events := [⟨AttestationEvidence.containerEndorsementId, Issuance.Sample.containerEndorsement⟩]

def request : CertificateIssuanceRequest where
  attestationEvidence := .oak evidence endorsements signedPublicKey
  certificateSigningRequest := Issuance.Sample.csr

/-- What the verification finds. -/
def results : AttestationResults where
  status := .STATUS_SUCCESS
  eventAttestationResults :=
    [⟨[(.lit "application", [0x01]),
        (OakAttestationVerifier.oakSigningPublicKeyEcdsaP256, signingKey)], by decide⟩]

def malformed : Error := .library (.lit "failed to decode Protobuf message")

/-- What the libraries compute for the evidence. -/
def lib : Library Unit where
  endorsementsToByteArray e := if e = endorsements then [0x22, 0x00] else []
  decodeEvidence bytes := if bytes = evidence then .ok ⟨some .None, []⟩ else .error malformed
  decodeEndorsements bytes := if bytes = [0x22, 0x00] then .ok endorsements else .error malformed
  decodeReferenceValues bytes := .ok ⟨bytes⟩
  createAmdVerifier _ _ := .error (.library (.lit "AMD SEV reference value"))
  createIntelTdxVerifier _ _ := .error (.library (.lit "Intel TDX reference value"))
  createInsecureVerifier _ _ := .ok ()
  verify _ _ _ := .ok results
  debug _ := []
  encodeToVec r := if r = success results then [0x08, 0x01] else [0x08, 0x02]
  parseFrom bytes := if bytes = [0x08, 0x01] then .ok (success results) else .error (.lit "malformed")
  getEcPublicKey bytes :=
    if bytes = signingKey then .ok ⟨signingKey⟩ else .error ⟨.generalSecurityException, []⟩
  verifySignature key message signature :=
    .ok (key = ⟨signingKey⟩ ∧ message = Issuance.Sample.keyInfo ∧ signature = signedPublicKey)

theorem lib_lawful : lib.Lawful where
  results r r' h := by
    simp only [lib] at h
    split at h
    · next hencode =>
      cases h
      obtain rfl : r = success results := by simpa using hencode
      exact ⟨rfl, rfl, List.forall₂_same.mpr fun _ _ => .refl _⟩
    · cases h
  endorsements e e' h := by
    simp only [lib] at h
    split at h
    · next hencode =>
      cases h
      obtain rfl : e = endorsements := by simpa using hencode
      rfl
    · cases h

/-- A device on which the verifier is that of the code. -/
def answer (log : Log) : (o : Op) → Ret o
  | .verify .oakVerifier evidence key referenceValues =>
    OakAttestationVerifier.verify lib 1700000100000 evidence key referenceValues
  | o => Issuance.Sample.answer (.lit "dev@acme") log o

def env : Env := Issuance.Sample.env (.lit "dev@acme")

def run : Log × Except Thrown (List X509Certificate) :=
  (issueCertificate env request Issuance.Sample.identity).run answer []

theorem run_ok : run.2 = .ok [Issuance.Sample.leaf, Issuance.Sample.rootCertificate] := by
  decide +kernel

end Sample

/-- The theorem for a request that is granted. -/
theorem certified_on_verified_evidence_granted :
    Sample.run.2 = .ok [Issuance.Sample.leaf, Issuance.Sample.rootCertificate] ∧
      ∃ a : Admission, Attests Sample.lib Sample.env a Sample.request.attestationEvidence
        Issuance.Sample.leaf.publicKey := by
  have hok := Sample.run_ok
  have hrun : Sample.run =
      (Sample.run.1, .ok [Issuance.Sample.leaf, Issuance.Sample.rootCertificate]) := by
    rw [← hok]
  obtain ⟨a, _, leaf, _, hchain, -, -, hattests⟩ := certified_on_verified_evidence
    Sample.env rfl Issuance.Sample.lib_keysAgree Sample.lib_lawful (fun _ => 1700000100000)
    (fun _ _ _ _ => rfl) hrun
  obtain rfl : Issuance.Sample.leaf = leaf := (List.cons.inj hchain).1
  exact ⟨hok, a, hattests⟩

end Oak
end Attestation
end TrustedCa
