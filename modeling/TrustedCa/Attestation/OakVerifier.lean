import TrustedCa.Issuance.Signer
import Mathlib.Data.List.Forall2

/-!
# Verification of Oak evidence (`OakAttestationVerifier`, `OakEvidenceVerifier`, `interface.rs`)

The verifier is in three parts. A Rust function decodes the messages, picks a verifier of the Oak
library for the platform of the root layer, and answers with the bytes of an `AttestationResults` in
every case. `OakEvidenceVerifier` calls it through JNI and throws unless the status is a success.
`OakAttestationVerifier` then takes the one signing key out of the results and checks with it the
signature over the key that is claimed.

* `Library`: the codecs of the messages, the Oak library, the key decoder of Tink and the signature
  algorithm of the platform. JNI copies byte arrays and adds nothing.
* `Library.Lawful`: a message that one side encodes is decoded by the other. The order of a map's
  entries may change, and fields that one side does not know may get lost.
* `verify_true_iff`: when the evidence is accepted, in terms of what the Rust function saw.
* `Failure` are the exceptions of the Java classes: an `AttestationVerificationException`, which is
  checked, or another one.
-/

namespace TrustedCa
namespace Attestation
namespace Oak

open Issuance Spec

/-! ## Messages -/

/-- `AttestationResults.Status`. -/
inductive Status where
  | STATUS_UNSPECIFIED | STATUS_SUCCESS | STATUS_GENERIC_FAILURE
  deriving DecidableEq

/-- `EventAttestationResults`: the entries of the map of artifacts. -/
structure EventAttestationResults where
  artifacts : List (JString × Bytes)
  nodup : (artifacts.map Prod.fst).Nodup
  deriving DecidableEq

/-- `AttestationResults`. Nothing reads its other fields. -/
structure AttestationResults where
  status : Status := .STATUS_UNSPECIFIED
  reason : JString := []
  eventAttestationResults : List EventAttestationResults := []
  deriving DecidableEq

/-- `TeePlatform`. `other` is any platform that `verify_attestation_inner` does not support, an
unknown one included. -/
inductive TeePlatform where
  | AmdSevSnp | IntelTdx | None | other
  deriving DecidableEq

/-- `Evidence`: the platform of the root layer, if it has one, and the rest of the message. -/
structure Evidence where
  rootLayer : Option TeePlatform
  rest : Bytes
  deriving DecidableEq

/-- `oak.attestation.v1.ReferenceValues`. -/
structure ReferenceValuesMessage where
  bytes : Bytes
  deriving DecidableEq

/-- `anyhow::Error`. `library` is an error of the Oak library or of a decoder, by its text. -/
inductive Error where
  | extractingRootLayer
  | unsupportedRootLayerPlatform
  | library (text : JString)
  deriving DecidableEq

/-- What the code uses of its libraries. -/
structure Library (Verifier : Type) where
  /-- `Endorsements.toByteArray`. -/
  endorsementsToByteArray : Endorsements → Bytes
  decodeEvidence : Bytes → Except Error Evidence
  decodeEndorsements : Bytes → Except Error Endorsements
  decodeReferenceValues : Bytes → Except Error ReferenceValuesMessage
  /-- The verifiers, with a clock that stands at a time in milliseconds. -/
  createAmdVerifier : Int → ReferenceValuesMessage → Except Error Verifier
  createIntelTdxVerifier : Int → ReferenceValuesMessage → Except Error Verifier
  createInsecureVerifier : Int → ReferenceValuesMessage → Except Error Verifier
  verify : Verifier → Evidence → Endorsements → Except Error AttestationResults
  /-- `format!("{:#?}", err)`. -/
  debug : Error → JString
  encodeToVec : AttestationResults → Bytes
  /-- `AttestationResults.parseFrom`. An error is the message of an
  `InvalidProtocolBufferException`. -/
  parseFrom : Bytes → Except JString AttestationResults
  /-- `EllipticCurves.getEcPublicKey` for uncompressed points of P-256. -/
  getEcPublicKey : Bytes → Except Thrown PublicKey
  /-- "SHA256withECDSAinP1363Format": the key, the message and the signature. -/
  verifySignature : PublicKey → Bytes → Bytes → Except Thrown Bool

variable {Verifier : Type} (lib : Library Verifier)

/-! ## `interface.rs` -/

def createVerifier (clock : Int) (referenceValues : ReferenceValuesMessage) :
    TeePlatform → Except Error Verifier
  | .AmdSevSnp => lib.createAmdVerifier clock referenceValues
  | .IntelTdx => lib.createIntelTdxVerifier clock referenceValues
  | .None => lib.createInsecureVerifier clock referenceValues
  | .other => .error .unsupportedRootLayerPlatform

def verifyAttestationInner (nowUtcMillis : Int)
    (evidenceBytes endorsementsBytes referenceValuesBytes : Bytes) :
    Except Error AttestationResults := do
  let evidence ← lib.decodeEvidence evidenceBytes
  let endorsements ← lib.decodeEndorsements endorsementsBytes
  let referenceValues ← lib.decodeReferenceValues referenceValuesBytes
  match evidence.rootLayer with
  | none => .error .extractingRootLayer
  | some platform =>
    let verifier ← createVerifier lib nowUtcMillis referenceValues platform
    lib.verify verifier evidence endorsements

def verifyAttestation (nowUtcMillis : Int)
    (evidenceBytes endorsementsBytes referenceValuesBytes : Bytes) : Bytes :=
  let result := verifyAttestationInner lib nowUtcMillis evidenceBytes endorsementsBytes
    referenceValuesBytes
  -- of the results of the library only the artifacts are taken over, not the status
  lib.encodeToVec <| match result with
    | .ok results =>
      { status := .STATUS_SUCCESS, eventAttestationResults := results.eventAttestationResults }
    | .error err => { status := .STATUS_GENERIC_FAILURE, reason := lib.debug err }

/-! ## The Java classes -/

inductive Failure where
  | attestationVerificationException (message : JString)
  | thrown (e : Thrown)
  deriving DecidableEq

def OakEvidenceVerifier.verify (nowUtcMillis : Int)
    (evidenceBytes endorsementsBytes referenceValuesBytes : Bytes) :
    Except Failure AttestationResults :=
  match lib.parseFrom (verifyAttestation lib nowUtcMillis evidenceBytes endorsementsBytes
      referenceValuesBytes) with
  | .ok results =>
    if results.status = .STATUS_SUCCESS then .ok results
    else .error (.attestationVerificationException results.reason)
  | .error message => .error (.attestationVerificationException
      (.lit "Failed to parse AttestationResults protobuf: " ++ message))

namespace OakAttestationVerifier

/-- `OAK_SIGNING_PUBLIC_KEY_ECDSA_P_256`. -/
def oakSigningPublicKeyEcdsaP256 : JString := .lit "oak-signing-public-key:ecdsa-p256"

/-- The artifacts with the name of the signing key. -/
def instanceSigningKeys (results : AttestationResults) : List Bytes :=
  ((results.eventAttestationResults.flatMap EventAttestationResults.artifacts).filter
    fun entry => entry.1 = oakSigningPublicKeyEcdsaP256).map Prod.snd

def verifyBinding (results : AttestationResults) (signedPublicKey : Bytes)
    (claimedPublicKey : PublicKey) : Except Failure Unit :=
  match instanceSigningKeys results with
  | [keyBytes] =>
    match lib.getEcPublicKey keyBytes with
    | .error e => .error (.thrown e)
    | .ok instanceSigningKey =>
      match lib.verifySignature instanceSigningKey claimedPublicKey.getEncoded signedPublicKey with
      | .error e => .error (.thrown e)
      | .ok true => .ok ()
      | .ok false => .error (.attestationVerificationException
          (.lit "CSR public key binding verification failed: Invalid signature."))
  | keys => .error (.attestationVerificationException
      (.lit "Attestation results must contain exactly one signing public key, but found " ++
        JString.decimal keys.length))

/-- `verify`, at a time of the `TimeProvider`. -/
def verify (currentTimeMillis : Int) (evidence : AttestationEvidence)
    (claimedPublicKey : PublicKey) (referenceValues : ReferenceValues) : Except Thrown Bool :=
  match evidence with
  | .oak evidence endorsements signedPublicKey =>
    let verified := do
      let results ← OakEvidenceVerifier.verify lib currentTimeMillis evidence
        (lib.endorsementsToByteArray endorsements) referenceValues.raw
      verifyBinding lib results signedPublicKey claimedPublicKey
    match verified with
    | .ok () => .ok true
    | .error (.attestationVerificationException _) => .ok false
    | .error (.thrown e) => if e.isA .generalSecurityException then .ok false else .error e
  | .aws _ | .gcp _ => .error ⟨.runtimeException, .lit "ClassCastException"⟩

end OakAttestationVerifier

/-! ## What is accepted -/

/-- The same results, up to the order of the artifacts. -/
structure AttestationResults.Same (results results' : AttestationResults) : Prop where
  status : results'.status = results.status
  reason : results'.reason = results.reason
  events : List.Forall₂ (fun e e' => e.artifacts.Perm e'.artifacts) results.eventAttestationResults
    results'.eventAttestationResults

/-- What one side decodes, the other has encoded. A message may be too long to be decoded. -/
structure Library.Lawful : Prop where
  results : ∀ results results', lib.parseFrom (lib.encodeToVec results) = .ok results' →
    results.Same results'
  endorsements : ∀ endorsements endorsements',
    lib.decodeEndorsements (lib.endorsementsToByteArray endorsements) = .ok endorsements' →
      endorsements'.events = endorsements.events

variable {lib}

namespace OakAttestationVerifier

theorem flatMap_perm {events events' : List EventAttestationResults}
    (h : List.Forall₂ (fun e e' => e.artifacts.Perm e'.artifacts) events events') :
    (events.flatMap EventAttestationResults.artifacts).Perm
      (events'.flatMap EventAttestationResults.artifacts) := by
  induction h with
  | nil => exact .refl _
  | cons he _ ih =>
    rw [List.flatMap_cons, List.flatMap_cons]
    exact he.append ih

theorem instanceSigningKeys_perm {results results' : AttestationResults}
    (h : List.Forall₂ (fun e e' => e.artifacts.Perm e'.artifacts) results.eventAttestationResults
      results'.eventAttestationResults) :
    (instanceSigningKeys results).Perm (instanceSigningKeys results') :=
  ((flatMap_perm h).filter _).map _

/-- The results have one signing key, and the signature over the claimed key is under it. -/
def Binds (lib : Library Verifier) (results : AttestationResults) (signedPublicKey : Bytes)
    (claimedPublicKey : PublicKey) : Prop :=
  ∃ keyBytes instanceSigningKey, instanceSigningKeys results = [keyBytes] ∧
    lib.getEcPublicKey keyBytes = .ok instanceSigningKey ∧
    lib.verifySignature instanceSigningKey claimedPublicKey.getEncoded signedPublicKey = .ok true

theorem verifyBinding_ok_iff {results : AttestationResults} {signedPublicKey : Bytes}
    {claimedPublicKey : PublicKey} :
    verifyBinding lib results signedPublicKey claimedPublicKey = .ok () ↔
      Binds lib results signedPublicKey claimedPublicKey := by
  unfold verifyBinding
  constructor
  · intro h
    split at h
    · next keyBytes hkeys =>
      split at h
      · cases h
      · next key hkey =>
        split at h
        · cases h
        · next hsig => exact ⟨keyBytes, key, hkeys, hkey, hsig⟩
        · cases h
    · cases h
  · rintro ⟨keyBytes, key, hkeys, hkey, hsig⟩
    simp only [hkeys, hkey, hsig]

/-- The order of the artifacts has no influence on the binding. -/
theorem binds_congr {results results' : AttestationResults}
    (h : List.Forall₂ (fun e e' => e.artifacts.Perm e'.artifacts) results.eventAttestationResults
      results'.eventAttestationResults) {signedPublicKey : Bytes} {claimedPublicKey : PublicKey} :
    Binds lib results signedPublicKey claimedPublicKey ↔
      Binds lib results' signedPublicKey claimedPublicKey := by
  have hperm := instanceSigningKeys_perm h
  refine exists₂_congr fun keyBytes _ => and_congr_left fun _ => ?_
  constructor
  · intro hkeys
    rw [hkeys] at hperm
    exact (List.singleton_perm.mp hperm).symm
  · intro hkeys
    rw [hkeys] at hperm
    exact List.perm_singleton.mp hperm

end OakAttestationVerifier

/-- The message with the results of a verification that succeeded. -/
def success (results : AttestationResults) : AttestationResults where
  status := .STATUS_SUCCESS
  eventAttestationResults := results.eventAttestationResults

/-- What crosses the boundary to Rust: an answer comes from a verification that succeeded. -/
theorem OakEvidenceVerifier.verify_ok_iff (hlib : lib.Lawful) {nowUtcMillis : Int}
    {evidence endorsements referenceValues : Bytes} {results' : AttestationResults} :
    OakEvidenceVerifier.verify lib nowUtcMillis evidence endorsements referenceValues =
        .ok results' ↔
      ∃ results, verifyAttestationInner lib nowUtcMillis evidence endorsements referenceValues =
        .ok results ∧ lib.parseFrom (lib.encodeToVec (success results)) = .ok results' := by
  unfold OakEvidenceVerifier.verify verifyAttestation
  cases hinner : verifyAttestationInner lib nowUtcMillis evidence endorsements referenceValues with
  | error err =>
    constructor
    · intro h
      split at h
      · next parsed hparse =>
        split at h
        · next hstatus =>
          -- the message of a failure has another status
          rw [(hlib.results _ _ hparse).status] at hstatus
          cases hstatus
        · cases h
      · cases h
    · rintro ⟨_, h, -⟩
      cases h
  | ok results =>
    simp only [Except.ok.injEq, exists_eq_left']
    rw [← success]
    cases hparse : lib.parseFrom (lib.encodeToVec (success results)) with
    | error message => exact ⟨fun h => absurd h (by simp), fun h => absurd h (by simp)⟩
    | ok parsed =>
      have hstatus : parsed.status = .STATUS_SUCCESS := (hlib.results _ _ hparse).status
      simp only [hstatus, if_true, Except.ok.injEq]

/-- What the Rust function has done, where it returned results for `endorsements`. -/
structure Verification (lib : Library Verifier) (nowUtcMillis : Int) (evidence : Bytes)
    (endorsements : Endorsements) (referenceValues : Bytes) (results : AttestationResults) where
  message : Evidence
  platform : TeePlatform
  checkedEndorsements : Endorsements
  checkedReferenceValues : ReferenceValuesMessage
  verifier : Verifier
  evidence_eq : lib.decodeEvidence evidence = .ok message
  rootLayer_eq : message.rootLayer = some platform
  supported : platform ≠ .other
  events_eq : checkedEndorsements.events = endorsements.events
  referenceValues_eq : lib.decodeReferenceValues referenceValues = .ok checkedReferenceValues
  verifier_eq : createVerifier lib nowUtcMillis checkedReferenceValues platform = .ok verifier
  verify_eq : lib.verify verifier message checkedEndorsements = .ok results

theorem verifyAttestationInner_ok (hlib : lib.Lawful) {nowUtcMillis : Int} {evidence : Bytes}
    {endorsements : Endorsements} {referenceValues : Bytes} {results : AttestationResults}
    (h : verifyAttestationInner lib nowUtcMillis evidence (lib.endorsementsToByteArray endorsements)
      referenceValues = .ok results) :
    Nonempty (Verification lib nowUtcMillis evidence endorsements referenceValues results) := by
  unfold verifyAttestationInner at h
  obtain ⟨message, hmessage, h⟩ := bind_eq_ok.mp h
  obtain ⟨checked, hchecked, h⟩ := bind_eq_ok.mp h
  obtain ⟨rv, hrv, h⟩ := bind_eq_ok.mp h
  have hevents := hlib.endorsements _ _ hchecked
  split at h
  · cases h
  · next platform hplatform =>
    obtain ⟨verifier, hverifier, h⟩ := bind_eq_ok.mp h
    refine ⟨⟨message, platform, checked, rv, verifier, hmessage, hplatform, ?_, hevents, hrv,
      hverifier, h⟩⟩
    rintro rfl
    cases hverifier

namespace OakAttestationVerifier

/-- The evidence is accepted exactly if the Rust function verified it, its results can be decoded,
and the one signing key in them has signed the claimed key. -/
theorem verify_true_iff (hlib : lib.Lawful) {currentTimeMillis : Int} {evidence : Bytes}
    {endorsements : Endorsements} {signedPublicKey : Bytes} {claimedPublicKey : PublicKey}
    {referenceValues : ReferenceValues} :
    verify lib currentTimeMillis (.oak evidence endorsements signedPublicKey) claimedPublicKey
        referenceValues = .ok true ↔
      ∃ results, verifyAttestationInner lib currentTimeMillis evidence
          (lib.endorsementsToByteArray endorsements) referenceValues.raw = .ok results ∧
        (∃ results', lib.parseFrom (lib.encodeToVec (success results)) = .ok results') ∧
        Binds lib results signedPublicKey claimedPublicKey := by
  have hok : verify lib currentTimeMillis (.oak evidence endorsements signedPublicKey)
        claimedPublicKey referenceValues = .ok true ↔
      ∃ results', OakEvidenceVerifier.verify lib currentTimeMillis evidence
          (lib.endorsementsToByteArray endorsements) referenceValues.raw = .ok results' ∧
        Binds lib results' signedPublicKey claimedPublicKey := by
    simp only [← verifyBinding_ok_iff, ← bind_eq_ok, verify]
    constructor
    · intro h
      split at h
      · next heq => exact heq
      · cases h
      · split at h <;> cases h
    · intro h
      rw [h]
  simp only [hok, OakEvidenceVerifier.verify_ok_iff hlib]
  constructor
  · rintro ⟨results', ⟨results, hinner, hparse⟩, hbinds⟩
    exact ⟨results, hinner, ⟨results', hparse⟩,
      (binds_congr (hlib.results _ _ hparse).events).mpr hbinds⟩
  · rintro ⟨results, hinner, ⟨results', hparse⟩, hbinds⟩
    exact ⟨results', ⟨results, hinner, hparse⟩,
      (binds_congr (hlib.results _ _ hparse).events).mp hbinds⟩

end OakAttestationVerifier

end Oak
end Attestation
end TrustedCa
