import TrustedCa.Attestation.AwsVerifier
import TrustedCa.Mbs.AttestedFlow

/-!
# Documents from the security module to the verifier

What the collector gets from the security module of an enclave is what the verifier of the
certificate authority takes apart.

* `Contents` and `Genuine`: a document as a security module makes it. The bundle starts with the root
  certificate and each certificate is signed with the key of the one before, the certificate of the
  module comes last and its key has signed the content.
* `verifyToken_genuine_iff`: the verifier accepts a genuine document for the key in it and for no
  other. The PKIX validator has to accept every path of valid certificates.
* `collected_verified`: a document that the collector has bound to a public key, in any session of the
  clients, is accepted for the key that these bytes encode and for no other.
-/

namespace TrustedCa
namespace Attestation
namespace Aws

open Issuance Spec

namespace AwsAttestationVerifier

/-- The parts of a document. `issuers` are the certificates of the bundle after the root. -/
structure Contents where
  sign1Message : Sign1Message
  payload : Bytes
  payloadCbor : CBORObject
  certificate : Bytes
  leafCert : X509Certificate
  rootBytes : Bytes
  issuers : List (Bytes × X509Certificate)
  moduleId : JString
  pcrs : List (CBORObject × Bytes)

/-- The certificates after the root, in the order in which they were issued. -/
def Contents.certs (c : Contents) : List X509Certificate :=
  c.issuers.map Prod.snd ++ [c.leafCert]

/-- The CBOR value of an optional field. -/
def optionalField : Option Bytes → CBORObject
  | some bytes => .byteString bytes
  | none => .other [0xf6]

/-- A document of a security module for a public key. -/
structure Genuine (lib : Library) (verifier : AwsAttestationVerifier)
    (Signed : PublicKey → X509Certificate → Prop) (publicKey : Option Bytes) (document : Bytes)
    (c : Contents) : Prop where
  sign1Message : lib.decodeSign1 document = .ok c.sign1Message
  content : c.sign1Message.getContent = some c.payload
  payloadCbor : lib.decodeCbor c.payload = .ok c.payloadCbor
  signature : lib.validateSignature c.sign1Message c.leafCert.publicKey = .ok true
  certificate : c.payloadCbor.get (.lit "certificate") = .ok (some (.byteString c.certificate))
  leafCert : lib.generateCertificate c.certificate = .ok c.leafCert
  cabundle : c.payloadCbor.get (.lit "cabundle") = .ok (some (.array
    (.byteString c.rootBytes :: c.issuers.map fun issuer => .byteString issuer.1)))
  root : lib.generateCertificate c.rootBytes = .ok verifier.rootCertificate
  issuers : ∀ issuer ∈ c.issuers, lib.generateCertificate issuer.1 = .ok issuer.2
  /-- No other certificate of the bundle has the name of the root. -/
  subjects : ∀ issuer ∈ c.issuers,
    issuer.2.subject.equals verifier.rootCertificate.subject = false
  issued : (pki Signed).Bundle verifier.rootCertificate c.certs
  moduleId : c.payloadCbor.get (.lit "module_id") = .ok (some (.textString c.moduleId))
  pcrs : c.payloadCbor.get (.lit "pcrs") = .ok (some (.map
    (c.pcrs.map fun pcr => (pcr.1, .byteString pcr.2))))
  pcr0 : ∃ pcr ∈ c.pcrs, lib.toString pcr.1 = .lit "0"
  publicKey : c.payloadCbor.get (.lit "public_key") = .ok (some (optionalField publicKey))

section Genuine

variable {lib : Library} {verifier : AwsAttestationVerifier}
  {Signed : PublicKey → X509Certificate → Prop} {publicKey : Option Bytes} {document : Bytes}
  {c : Contents}

theorem intermediates_bundle {issuers : List X509Certificate}
    (h : ∀ issuer ∈ issuers, issuer.subject.equals verifier.rootCertificate.subject = false) :
    intermediates verifier (verifier.rootCertificate :: issuers) = issuers.reverse := by
  have hissuers : issuers.filter (fun cert =>
      !cert.subject.equals verifier.rootCertificate.subject) = issuers := by
    refine List.filter_eq_self.mpr fun issuer hissuer => ?_
    rw [h issuer hissuer, Bool.not_false]
  rw [intermediates, List.filter_cons, hissuers, if_neg (by simp [X500Principal.equals])]

/-- The certificates of the bundle, the root first. -/
theorem Genuine.bundled (h : Genuine lib verifier Signed publicKey document c) :
    Bundled lib c.payloadCbor (verifier.rootCertificate :: c.issuers.map Prod.snd) := by
  refine ⟨_, h.cabundle, .cons ⟨_, rfl, h.root⟩ ?_⟩
  rw [List.forall₂_map_left_iff, List.forall₂_map_right_iff, List.forall₂_same]
  exact fun issuer hissuer => ⟨_, rfl, h.issuers issuer hissuer⟩

/-- The verifier finds the certificates, the one of the module first. -/
theorem Genuine.certificateChain_eq
    (h : Genuine lib verifier Signed publicKey document c) :
    certificateChain lib verifier c.payloadCbor =
      .ok (c.leafCert, (c.issuers.map Prod.snd).reverse) := by
  refine certificateChain_ok_iff.mpr
    ⟨⟨_, h.certificate, _, rfl, h.leafCert⟩, _, h.bundled, (intermediates_bundle ?_).symm⟩
  intro _ hissuer
  obtain ⟨issuer, hmem, rfl⟩ := List.mem_map.mp hissuer
  exact h.subjects issuer hmem

/-- The measurements that the loop finds: those of the map, and those that were there. -/
theorem readPcrs_loop (lib : Library) (pcrs : List (CBORObject × Bytes))
    (found : JString → Option JString) :
    ∃ found', (pcrs.map fun pcr => (pcr.1, CBORObject.byteString pcr.2)).foldlM
        (fun found entry => do
          let bytes ← CBORObject.getByteString (some entry.2)
          return Function.update found (lib.toString entry.1) (some (JString.base16 bytes))) found =
        (.ok found' : Except Thrown _) ∧
      ∀ key, (found key ≠ none ∨ ∃ pcr ∈ pcrs, lib.toString pcr.1 = key) → found' key ≠ none := by
  induction pcrs generalizing found with
  | nil =>
    refine ⟨found, rfl, fun key h => ?_⟩
    rcases h with h | ⟨_, hmem, _⟩
    · exact h
    · cases hmem
  | cons pcr pcrs ih =>
    obtain ⟨found', hfound', hkeys⟩ :=
      ih (Function.update found (lib.toString pcr.1) (some (JString.base16 pcr.2)))
    refine ⟨found', hfound', fun key h => hkeys key ?_⟩
    by_cases heq : key = lib.toString pcr.1
    · refine .inl ?_
      rw [heq, Function.update_self]
      exact Option.some_ne_none _
    · rw [Function.update_of_ne heq]
      rcases h with h | ⟨other, hmem, hother⟩
      · exact .inl h
      · rcases List.mem_cons.mp hmem with rfl | hmem
        · exact absurd hother.symm heq
        · exact .inr ⟨other, hmem, hother⟩

/-- The claims of a genuine document are true of its key only. -/
theorem Genuine.verifyClaims_true_iff
    (h : Genuine lib verifier Signed publicKey document c) {key : PublicKey} :
    verifyClaims lib c.payloadCbor key = .ok true ↔
      ∃ bytes, publicKey = some bytes ∧
        PublicKeyDecoder.decodeRawPublicKey lib.keys bytes = .ok key := by
  have hnames : Names lib c.payloadCbor key ↔
      ∃ bytes, publicKey = some bytes ∧
        PublicKeyDecoder.decodeRawPublicKey lib.keys bytes = .ok key := by
    constructor
    · rintro ⟨bytes, hbytes, hkey⟩
      rw [h.publicKey] at hbytes
      cases publicKey with
      | none => cases hbytes
      | some bytes' =>
        cases hbytes
        exact ⟨_, rfl, hkey⟩
    · rintro ⟨bytes, rfl, hkey⟩
      exact ⟨bytes, h.publicKey, hkey⟩
  rw [AwsAttestationVerifier.verifyClaims_true_iff, hnames]
  constructor
  · exact fun hclaims => hclaims.2.2
  · intro hkey
    obtain ⟨pcrs, hpcrs, hkeys⟩ := readPcrs_loop lib c.pcrs fun _ => none
    exact ⟨⟨c.moduleId, h.moduleId⟩, ⟨_, pcrs, h.pcrs, hpcrs, hkeys _ (.inr h.pcr0)⟩, hkey⟩

/-- A genuine document is accepted for the key in it and for no other, while the certificates are
valid. -/
theorem verifyToken_genuine_iff {now : Int}
    (hvalidates : (pki Signed).Path verifier.rootCertificate c.certs.reverse →
      lib.validatePath verifier.rootCertificate (verifier.validationDateOverride.getD now)
        c.certs.reverse = .ok ())
    (h : Genuine lib verifier Signed publicKey document c) {token : JString}
    (htoken : lib.base64Decode token = .ok document) {key : PublicKey} :
    verifyToken lib verifier now token key = true ↔
      ∃ bytes, publicKey = some bytes ∧
        PublicKeyDecoder.decodeRawPublicKey lib.keys bytes = .ok key := by
  rw [verifyToken_iff, ← h.verifyClaims_true_iff]
  constructor
  · rintro ⟨sign1Message, payloadCbor, leafCert, rest, haccepted⟩
    obtain ⟨document', hdocument, hmessage⟩ := haccepted.message
    obtain rfl : document = document' := Except.ok.inj (htoken.symm.trans hdocument)
    obtain rfl : c.sign1Message = sign1Message := Except.ok.inj (h.sign1Message.symm.trans hmessage)
    obtain ⟨payload, hpayload, hcbor⟩ := haccepted.payload
    obtain rfl : c.payload = payload := Option.some.inj (h.content.symm.trans hpayload)
    obtain rfl : c.payloadCbor = payloadCbor := Except.ok.inj (h.payloadCbor.symm.trans hcbor)
    exact haccepted.claims
  · intro hclaims
    refine ⟨c.sign1Message, c.payloadCbor, c.leafCert, (c.issuers.map Prod.snd).reverse,
      ⟨document, htoken, h.sign1Message⟩, ⟨c.payload, h.content, h.payloadCbor⟩,
      h.certificateChain_eq, ?_, h.signature, hclaims⟩
    -- the chain is the bundle read backwards
    have hvalid := hvalidates ((pki Signed).path_reverse_iff.mpr h.issued)
    rwa [Contents.certs, List.reverse_concat] at hvalid

end Genuine

/-! ## From the collector to the verifier -/

open Mbs.Nitro (collect session)

/-- **What was collected for a key is accepted for this key only.** Let the security module make
genuine documents, and let the PKIX validator accept every path of certificates that are valid at its
date. Then a document that the collector has bound to a public key, after any session of the clients
and with user data or without, is accepted at every time at which its certificates are valid, exactly
for the key that the bytes encode. -/
theorem collected_verified {lib : Library} {verifier : AwsAttestationVerifier}
    {Signed : PublicKey → X509Certificate → Prop} {Valid : Int → X509Certificate → Prop}
    (hvalidates : ∀ date path, (pki Signed).Path verifier.rootCertificate path →
      (∀ cert ∈ path, Valid date cert) →
      lib.validatePath verifier.rootCertificate date path = .ok ())
    {answer : Mbs.Nitro.Log → (o : Mbs.Nitro.Op) → Mbs.Nitro.Ret o}
    (hfresh : Mbs.Nitro.Fresh answer)
    (hdevice : ∀ log fd userData nonce publicKey document,
      answer log (.getAttestationDoc fd userData nonce publicKey) = .ok document →
        ∃ c, Genuine lib verifier Signed publicKey document c)
    (cms : Bytes → Bytes → Except Mbs.Exn Bytes) (calls : List Mbs.Nitro.Call)
    {log log' : Mbs.Nitro.Log} {r₀ : Except Mbs.Exn Unit}
    (hsession : (session cms calls).run answer [] = (log, r₀))
    {publicKey : Bytes} {userData : Option Bytes} {token : Mbs.AttestationToken}
    (hrun : (collect publicKey userData).run answer log = (log', .ok token)) :
    ∃ c, Genuine lib verifier Signed (some publicKey) token.getBytes c ∧
      ∀ now, (∀ cert ∈ c.certs, Valid (verifier.validationDateOverride.getD now) cert) →
        ∀ text, lib.base64Decode text = .ok token.getBytes →
          ∀ key, verifyToken lib verifier now text key = true ↔
            PublicKeyDecoder.decodeRawPublicKey lib.keys publicKey = .ok key := by
  have hlog := (Answered.nil : Answered answer []).run (session cms calls)
  rw [hsession] at hlog
  obtain ⟨log₁, fd, hdocument⟩ := Mbs.Nitro.collected_document hfresh hlog hrun
  obtain ⟨c, hgenuine⟩ := hdevice _ _ _ _ _ _ hdocument
  refine ⟨c, hgenuine, fun now hvalid text htext key => ?_⟩
  rw [verifyToken_genuine_iff (fun hpath => hvalidates _ _ hpath fun cert hcert =>
    hvalid cert (List.mem_reverse.mp hcert)) hgenuine htext]
  constructor
  · rintro ⟨bytes, hbytes, hkey⟩
    rwa [Option.some.inj hbytes]
  · exact fun hkey => ⟨publicKey, rfl, hkey⟩

/-! ### A document that is collected and accepted -/

namespace Sample

def contents : Contents where
  sign1Message := sign1Message
  payload := payload
  payloadCbor := payloadCbor
  certificate := [0x30, 0x01, 0x02]
  leafCert := leafCert
  rootBytes := [0x30, 0x01, 0x00]
  issuers := [([0x30, 0x01, 0x01], zonalCertificate)]
  moduleId := .lit "i-0"
  pcrs := [(.other [0x00], [0x5a])]

theorem base64Decode_token : lib.base64Decode token = .ok document := by
  simp only [lib, if_true]

theorem genuine :
    Genuine lib verifier Signed (some Issuance.Sample.keyInfo) document contents where
  sign1Message := by simp only [lib, if_true, contents]
  content := rfl
  payloadCbor := by simp only [lib, if_true, contents]
  signature := rfl
  certificate := rfl
  leafCert := rfl
  cabundle := rfl
  root := rfl
  issuers := by
    rintro _ (_ | ⟨_, h⟩)
    · rfl
    · cases h
  subjects := by
    rintro _ (_ | ⟨_, h⟩)
    · decide
    · cases h
  issued := by
    rw [← Pki.path_reverse_iff]
    decide
  moduleId := rfl
  pcrs := rfl
  pcr0 := ⟨_, List.mem_cons_self, by decide⟩
  publicKey := rfl

/-- A security module that makes a document for one key only. -/
def answer (log : Mbs.Nitro.Log) : (o : Mbs.Nitro.Op) → Mbs.Nitro.Ret o
  | .getAttestationDoc _ _ _ publicKey =>
    if publicKey = some Issuance.Sample.keyInfo then .ok document else .error 1
  | o => Mbs.Nitro.Sample.answer log o

theorem fresh : Mbs.Nitro.Fresh answer := Mbs.Nitro.Sample.fresh

theorem answer_genuine (log : Mbs.Nitro.Log) (fd : Int) (userData nonce publicKey : Option Bytes)
    (doc : Bytes) (h : answer log (.getAttestationDoc fd userData nonce publicKey) = .ok doc) :
    ∃ c, Genuine lib verifier Signed publicKey doc c := by
  simp only [answer] at h
  split at h
  · next hkey =>
    cases h
    exact ⟨contents, hkey ▸ genuine⟩
  · cases h

/-- The certificates of the library are valid on this day. -/
theorem generateCertificate_valid {bytes : Bytes} {cert : X509Certificate}
    (h : lib.generateCertificate bytes = .ok cert) : Valid 1750000000000 cert := by
  simp only [lib] at h
  split at h
  · cases h; decide
  · cases h; decide
  · cases h; decide
  · cases h

def calls : List Mbs.Nitro.Call :=
  [.collectBoundToPubkey [0x30], .collectBoundToPubkeyAndUserData Issuance.Sample.keyInfo [0x00]]

end Sample

/-- The theorem for a session in which one document was refused and one was made. -/
theorem collected_verified_sample :
    ((collect Issuance.Sample.keyInfo none).run Sample.answer
        ((session Mbs.Nitro.Sample.cms Sample.calls).run Sample.answer []).1).2 =
      .ok ⟨Sample.document⟩ ∧
    ∀ key, verifyToken Sample.lib Sample.verifier 1750000000000 Sample.token key = true ↔
      PublicKeyDecoder.decodeRawPublicKey Issuance.Sample.lib Issuance.Sample.keyInfo = .ok key := by
  have hok : ((collect Issuance.Sample.keyInfo none).run Sample.answer
      ((session Mbs.Nitro.Sample.cms Sample.calls).run Sample.answer []).1).2 =
      .ok ⟨Sample.document⟩ :=
    Spec.toOption_eq_some.mp (by decide +kernel)
  obtain ⟨c, hgenuine, hverified⟩ := collected_verified
    (fun _ _ hpath hvalid => Sample.lib_validatePath.mpr ⟨hpath, hvalid⟩) Sample.fresh
    Sample.answer_genuine Mbs.Nitro.Sample.cms Sample.calls (Prod.eta _).symm (Prod.ext rfl hok)
  refine ⟨hok, hverified 1750000000000 (fun cert hcert => ?_) Sample.token
    Sample.base64Decode_token⟩
  rcases List.mem_append.mp hcert with hissuer | hleaf
  · obtain ⟨issuer, hmem, rfl⟩ := List.mem_map.mp hissuer
    exact Sample.generateCertificate_valid (hgenuine.issuers issuer hmem)
  · obtain rfl := List.mem_singleton.mp hleaf
    exact Sample.generateCertificate_valid hgenuine.leafCert

end AwsAttestationVerifier

end Aws
end Attestation
end TrustedCa
