import TrustedCa.Issuance.Soundness
import TrustedCa.Spec.Certification
import Mathlib.Logic.Function.Basic

/-!
# Verification of Nitro attestation documents (`AwsAttestationVerifier`)

A document is a COSE message. Its content is a CBOR map with a certificate, the certificates up to
the root, the measurements and a public key. The verifier puts the certificates in order, validates
them up to the root of AWS, checks the signature with the key of the first one, and compares the
public key with the claimed one. Every exception on the way is a refusal.

* `Library`: COSE, CBOR, the certificate factory, the PKIX validator and the Base64 decoder. A signed
  message is validated with the COSE key of a public key, and both may throw. The tag of a tagged
  CBOR value is left out.
* `verifyDocument` is the block of the `try`, and `verifyToken` the method with a text.
* `Accepted`: what was read and checked, where a text is accepted. `verifyToken_attested` says what
  it means for the keys if the PKIX validator validates paths.
-/

namespace TrustedCa
namespace Attestation
namespace Aws

open Issuance Spec

/-! ## CBOR and COSE -/

/-- `CBORObject`. `other` is an integer, a float or a simple value, by its encoding. -/
inductive CBORObject where
  | byteString (bytes : Bytes)
  | textString (text : JString)
  | array (values : List CBORObject)
  | map (entries : List (CBORObject × CBORObject))
  | other (encoding : Bytes)

def nullPointerException : Thrown := ⟨.nullPointerException, []⟩

def illegalStateException (message : JString) : Thrown := ⟨.illegalStateException, message⟩

namespace CBORObject

/-- `get` with a text, which may be missing in a map. -/
def get (key : JString) : CBORObject → Except Thrown (Option CBORObject)
  | map entries => .ok (entries.findSome? fun entry =>
      match entry.1 with
      | textString text => if text = key then some entry.2 else none
      | _ => none)
  | array _ => .error (IllegalArgumentException (.lit "Not an integer"))
  | _ => .error (illegalStateException (.lit "Not an array or map"))

/-- `GetByteString`, where the object may be `null`. -/
def getByteString : Option CBORObject → Except Thrown Bytes
  | some (byteString bytes) => .ok bytes
  | some _ => .error (illegalStateException (.lit "Not a byte string"))
  | none => .error nullPointerException

/-- `AsString`. -/
def asString : Option CBORObject → Except Thrown JString
  | some (textString text) => .ok text
  | some _ => .error (illegalStateException (.lit "Not a text string"))
  | none => .error nullPointerException

/-- The entries that `getKeys` and `get` give. -/
def getEntries : Option CBORObject → Except Thrown (List (CBORObject × CBORObject))
  | some (map entries) => .ok entries
  | some _ => .error (illegalStateException (.lit "Not a map"))
  | none => .error nullPointerException

end CBORObject

/-- `Sign1Message`: its content, which may be `null`, and the rest of the message. -/
structure Sign1Message where
  getContent : Option Bytes
  rest : Bytes
  deriving DecidableEq

/-- What the code uses of its libraries. -/
structure Library where
  toStringUtf8 : Bytes → JString
  /-- `Base64.getDecoder().decode`. -/
  base64Decode : JString → Except Thrown Bytes
  /-- `Sign1Message.DecodeFromBytes`, with the cast. -/
  decodeSign1 : Bytes → Except Thrown Sign1Message
  /-- `CBORObject.DecodeFromBytes`. -/
  decodeCbor : Bytes → Except Thrown CBORObject
  toString : CBORObject → JString
  /-- `CertificateFactory.generateCertificate`, with the cast. -/
  generateCertificate : Bytes → Except Thrown X509Certificate
  /-- The PKIX validator with one trust anchor and without revocation, at a time in milliseconds. -/
  validatePath : X509Certificate → Int → List X509Certificate → Except Thrown Unit
  /-- `validate(new OneKey(key, null))`. -/
  validateSignature : Sign1Message → PublicKey → Except Thrown Bool
  keys : CertificateLibrary

/-- The verifier. It has read the root certificate of AWS from its resources. -/
structure AwsAttestationVerifier where
  rootCertificate : X509Certificate
  /-- For tests only, in milliseconds. -/
  validationDateOverride : Option Int := none

namespace AwsAttestationVerifier

section Verifier

variable (lib : Library) (verifier : AwsAttestationVerifier)

def bytesToCertificate (certBytes : Bytes) : Except Thrown X509Certificate :=
  tryCatch (lib.generateCertificate certBytes) fun _ =>
    throw ⟨.runtimeException, .lit "Failed to parse certificate from bytes"⟩

/-- `validateCertificateChain`, at a time of the clock. -/
def validateCertificateChain (now : Int) (chain : List X509Certificate) : Except Thrown Unit :=
  tryCatch (lib.validatePath verifier.rootCertificate (verifier.validationDateOverride.getD now) chain)
    fun _ => throw ⟨.runtimeException, .lit "Certificate chain validation failed."⟩

/-- The certificates of the bundle but those with the root's name, from the last to the first. -/
def intermediates (certs : List X509Certificate) : List X509Certificate :=
  (certs.filter fun cert => !cert.subject.equals verifier.rootCertificate.subject).reverse

def certificateChain (payloadCbor : CBORObject) :
    Except Thrown (X509Certificate × List X509Certificate) := do
  let leafCertBytes ← CBORObject.getByteString (← payloadCbor.get (.lit "certificate"))
  let leafCert ← bytesToCertificate lib leafCertBytes
  match ← payloadCbor.get (.lit "cabundle") with
  | some (.array values) =>
    let certs ← values.mapM fun value => do
      bytesToCertificate lib (← CBORObject.getByteString (some value))
    return (leafCert, intermediates verifier certs)
  | _ => return (leafCert, [])

/-- `pcrs`, as the loop over the keys of the map fills it. -/
def readPcrs (pcrMap : Option CBORObject) : Except Thrown (JString → Option JString) := do
  let entries ← CBORObject.getEntries pcrMap
  entries.foldlM (fun pcrs entry => do
    let bytes ← CBORObject.getByteString (some entry.2)
    return Function.update pcrs (lib.toString entry.1) (some (JString.base16 bytes))) fun _ => none

/-- The checks of the claims, once the signature is valid. -/
def verifyClaims (payloadCbor : CBORObject) (claimedPublicKey : PublicKey) : Except Thrown Bool := do
  let _moduleId ← CBORObject.asString (← payloadCbor.get (.lit "module_id"))
  let pcrs ← readPcrs lib (← payloadCbor.get (.lit "pcrs"))
  if pcrs (.lit "0") = none then
    return false
  else
    match ← payloadCbor.get (.lit "public_key") with
    | some (.byteString publicKeyBytes) =>
      let enclavePublicKey ← PublicKeyDecoder.decodeRawPublicKey lib.keys publicKeyBytes
      if enclavePublicKey ≠ claimedPublicKey then
        return false
      else
        -- the nonce is looked up and has no influence
        let _nonce ← payloadCbor.get (.lit "nonce")
        return true
    | _ => return false

def verifyDocument (now : Int) (token : JString) (claimedPublicKey : PublicKey) :
    Except Thrown Bool := do
  let attestationDocument ← lib.base64Decode token
  let sign1Message ← lib.decodeSign1 attestationDocument
  match sign1Message.getContent with
  | none => throw nullPointerException
  | some payload =>
    let payloadCbor ← lib.decodeCbor payload
    let (leafCert, rest) ← certificateChain lib verifier payloadCbor
    validateCertificateChain lib verifier now (leafCert :: rest)
    if ← lib.validateSignature sign1Message leafCert.publicKey then
      verifyClaims lib payloadCbor claimedPublicKey
    else
      return false

def verifyToken (now : Int) (token : JString) (claimedPublicKey : PublicKey) : Bool :=
  match verifyDocument lib verifier now token claimedPublicKey with
  | .ok verified => verified
  | .error _ => false

/-- `verify`, at a time of the clock. The reference values are not used. -/
def verify (now : Int) (evidence : AttestationEvidence) (claimedPublicKey : PublicKey)
    (_unused : ReferenceValues) : Except Thrown Bool :=
  match evidence with
  | .aws attestationToken =>
    .ok (verifyToken lib verifier now (lib.toStringUtf8 attestationToken) claimedPublicKey)
  | .gcp _ | .oak .. => .error ⟨.runtimeException, .lit "ClassCastException"⟩

/-! ## What is accepted -/

/-- What was read out of a token and checked. -/
structure Accepted (now : Int) (token : JString) (key : PublicKey) (sign1Message : Sign1Message)
    (payloadCbor : CBORObject) (leafCert : X509Certificate) (rest : List X509Certificate) : Prop where
  message : ∃ document, lib.base64Decode token = .ok document ∧
    lib.decodeSign1 document = .ok sign1Message
  payload : ∃ bytes, sign1Message.getContent = some bytes ∧ lib.decodeCbor bytes = .ok payloadCbor
  chain : certificateChain lib verifier payloadCbor = .ok (leafCert, rest)
  path : lib.validatePath verifier.rootCertificate (verifier.validationDateOverride.getD now)
    (leafCert :: rest) = .ok ()
  signature : lib.validateSignature sign1Message leafCert.publicKey = .ok true
  claims : verifyClaims lib payloadCbor key = .ok true

variable {lib verifier}

theorem validateCertificateChain_ok_iff {now : Int} {chain : List X509Certificate} :
    validateCertificateChain lib verifier now chain = .ok () ↔
      lib.validatePath verifier.rootCertificate (verifier.validationDateOverride.getD now) chain =
        .ok () :=
  tryCatch_eq_ok fun _ _ h => by cases h

theorem bytesToCertificate_ok_iff {certBytes : Bytes} {cert : X509Certificate} :
    bytesToCertificate lib certBytes = .ok cert ↔ lib.generateCertificate certBytes = .ok cert :=
  tryCatch_eq_ok fun _ _ h => by cases h

theorem verifyToken_iff {now : Int} {token : JString} {key : PublicKey} :
    verifyToken lib verifier now token key = true ↔
      ∃ sign1Message payloadCbor leafCert rest,
        Accepted lib verifier now token key sign1Message payloadCbor leafCert rest := by
  have htrue : verifyToken lib verifier now token key = true ↔
      verifyDocument lib verifier now token key = .ok true := by
    unfold verifyToken
    split
    · next verified heq => rw [heq, Except.ok.injEq]
    · next heq => simp [heq]
  rw [htrue]
  constructor
  · intro h
    obtain ⟨document, hdocument, h⟩ := bind_eq_ok.mp h
    obtain ⟨sign1Message, hmessage, h⟩ := bind_eq_ok.mp h
    split at h
    · cases h
    · next payload hpayload =>
      obtain ⟨payloadCbor, hcbor, h⟩ := bind_eq_ok.mp h
      obtain ⟨⟨leafCert, rest⟩, hchain, h⟩ := bind_eq_ok.mp h
      obtain ⟨_, hpath, h⟩ := bind_eq_ok.mp h
      obtain ⟨valid, hvalid, h⟩ := bind_eq_ok.mp h
      cases valid with
      | false => cases h
      | true =>
        exact ⟨sign1Message, payloadCbor, leafCert, rest, ⟨document, hdocument, hmessage⟩,
          ⟨payload, hpayload, hcbor⟩, hchain, validateCertificateChain_ok_iff.mp hpath, hvalid, h⟩
  · rintro ⟨sign1Message, payloadCbor, leafCert, rest, ⟨document, hdocument, hmessage⟩,
      ⟨payload, hpayload, hcbor⟩, hchain, hpath, hvalid, hclaims⟩
    refine bind_eq_ok.mpr ⟨document, hdocument, bind_eq_ok.mpr ⟨sign1Message, hmessage, ?_⟩⟩
    rw [hpayload]
    refine bind_eq_ok.mpr ⟨payloadCbor, hcbor, bind_eq_ok.mpr ⟨(leafCert, rest), hchain, ?_⟩⟩
    refine bind_eq_ok.mpr ⟨(), validateCertificateChain_ok_iff.mpr hpath, ?_⟩
    exact bind_eq_ok.mpr ⟨true, hvalid, hclaims⟩

/-- The key that a document is about. -/
def Names (lib : Library) (payloadCbor : CBORObject) (key : PublicKey) : Prop :=
  ∃ publicKeyBytes, payloadCbor.get (.lit "public_key") = .ok (some (.byteString publicKeyBytes)) ∧
    PublicKeyDecoder.decodeRawPublicKey lib.keys publicKeyBytes = .ok key

/-- A document is about one key. -/
theorem Names.unique {payloadCbor : CBORObject} {key key' : PublicKey}
    (h : Names lib payloadCbor key) (h' : Names lib payloadCbor key') : key = key' := by
  obtain ⟨bytes, hbytes, hkey⟩ := h
  obtain ⟨bytes', hbytes', hkey'⟩ := h'
  rw [hbytes] at hbytes'
  cases hbytes'
  exact Except.ok.inj (hkey.symm.trans hkey')

/-- The claims that are checked: a module, measurements with the number 0, and the key. -/
theorem verifyClaims_true_iff {payloadCbor : CBORObject} {key : PublicKey} :
    verifyClaims lib payloadCbor key = .ok true ↔
      (∃ moduleId, payloadCbor.get (.lit "module_id") = .ok (some (.textString moduleId))) ∧
      (∃ pcrMap pcrs, payloadCbor.get (.lit "pcrs") = .ok pcrMap ∧ readPcrs lib pcrMap = .ok pcrs ∧
        pcrs (.lit "0") ≠ none) ∧
      Names lib payloadCbor key := by
  constructor
  · intro h
    obtain ⟨moduleCbor, hmodule, h⟩ := bind_eq_ok.mp h
    obtain ⟨moduleId, hmoduleId, h⟩ := bind_eq_ok.mp h
    obtain ⟨pcrMap, hpcrMap, h⟩ := bind_eq_ok.mp h
    obtain ⟨pcrs, hpcrs, h⟩ := bind_eq_ok.mp h
    split at h
    · cases h
    · next hpcr0 =>
      obtain ⟨publicKeyCbor, hpublicKey, h⟩ := bind_eq_ok.mp h
      refine ⟨?_, ⟨pcrMap, pcrs, hpcrMap, hpcrs, hpcr0⟩, ?_⟩
      · unfold CBORObject.asString at hmoduleId
        split at hmoduleId
        · exact ⟨_, hmodule⟩
        · cases hmoduleId
        · cases hmoduleId
      · split at h
        · next publicKeyBytes =>
          obtain ⟨enclavePublicKey, hdecode, h⟩ := bind_eq_ok.mp h
          split at h
          · cases h
          · next hkey => exact ⟨publicKeyBytes, hpublicKey, not_not.mp hkey ▸ hdecode⟩
        · cases h
  · rintro ⟨⟨moduleId, hmodule⟩, ⟨pcrMap, pcrs, hpcrMap, hpcrs, hpcr0⟩, publicKeyBytes, hpublicKey,
      hdecode⟩
    -- what has a key is a map, so the nonce can be looked up
    obtain ⟨nonce, hnonce⟩ : ∃ nonce, payloadCbor.get (.lit "nonce") = .ok nonce := by
      cases payloadCbor with
      | map entries => exact ⟨_, rfl⟩
      | _ => cases hmodule
    refine bind_eq_ok.mpr ⟨_, hmodule, bind_eq_ok.mpr ⟨moduleId, rfl, ?_⟩⟩
    refine bind_eq_ok.mpr ⟨pcrMap, hpcrMap, bind_eq_ok.mpr ⟨pcrs, hpcrs, ?_⟩⟩
    rw [if_neg hpcr0]
    refine bind_eq_ok.mpr ⟨_, hpublicKey, bind_eq_ok.mpr ⟨key, hdecode, ?_⟩⟩
    rw [if_neg (not_not.mpr rfl)]
    exact bind_eq_ok.mpr ⟨nonce, hnonce, rfl⟩

/-- The bytes of a certificate in a document. -/
def IsCertificate (lib : Library) (value : CBORObject) (cert : X509Certificate) : Prop :=
  ∃ bytes, value = .byteString bytes ∧ lib.generateCertificate bytes = .ok cert

/-- The certificates in the bundle of a document, of which there are none if it is not an array. -/
def Bundled (lib : Library) (payloadCbor : CBORObject) (certs : List X509Certificate) : Prop :=
  ∃ cabundle, payloadCbor.get (.lit "cabundle") = .ok cabundle ∧
    match cabundle with
    | some (.array values) => List.Forall₂ (IsCertificate lib) values certs
    | _ => certs = []

theorem isCertificate_iff {value : CBORObject} {cert : X509Certificate} :
    (do bytesToCertificate lib (← CBORObject.getByteString (some value))) = .ok cert ↔
      IsCertificate lib value cert := by
  rw [bind_eq_ok]
  constructor
  · rintro ⟨bytes, hbytes, hcert⟩
    cases value with
    | byteString bytes' =>
      cases hbytes
      exact ⟨bytes, rfl, bytesToCertificate_ok_iff.mp hcert⟩
    | _ => cases hbytes
  · rintro ⟨bytes, rfl, hcert⟩
    exact ⟨bytes, rfl, bytesToCertificate_ok_iff.mpr hcert⟩

/-- The chain is the certificate of the document and then those of its bundle, read backwards. -/
theorem certificateChain_ok_iff {payloadCbor : CBORObject} {leafCert : X509Certificate}
    {rest : List X509Certificate} :
    certificateChain lib verifier payloadCbor = .ok (leafCert, rest) ↔
      (∃ value, payloadCbor.get (.lit "certificate") = .ok (some value) ∧
        IsCertificate lib value leafCert) ∧
      ∃ certs, Bundled lib payloadCbor certs ∧ rest = intermediates verifier certs := by
  constructor
  · intro h
    obtain ⟨certificate, hcertificate, h⟩ := bind_eq_ok.mp h
    obtain ⟨leafCertBytes, hbytes, h⟩ := bind_eq_ok.mp h
    obtain ⟨leafCert', hleafCert, h⟩ := bind_eq_ok.mp h
    obtain ⟨cabundle, hcabundle, h⟩ := bind_eq_ok.mp h
    have hleaf : ∃ value, payloadCbor.get (.lit "certificate") = .ok (some value) ∧
        IsCertificate lib value leafCert' := by
      cases certificate with
      | none => cases hbytes
      | some value =>
        exact ⟨value, hcertificate, isCertificate_iff.mp (bind_eq_ok.mpr ⟨_, hbytes, hleafCert⟩)⟩
    split at h
    · next values =>
      obtain ⟨certs, hcerts, h⟩ := bind_eq_ok.mp h
      cases h
      refine ⟨hleaf, certs, ⟨_, hcabundle, ?_⟩, rfl⟩
      exact (mapM_eq_ok_iff.mp hcerts).imp fun _ _ => isCertificate_iff.mp
    · next hother =>
      cases h
      refine ⟨hleaf, [], ⟨_, hcabundle, ?_⟩, rfl⟩
      split
      · next values => exact absurd rfl (hother values)
      · rfl
  · rintro ⟨⟨value, hvalue, hleaf⟩, certs, ⟨cabundle, hcabundle, hcerts⟩, rfl⟩
    obtain ⟨leafCertBytes, hbytes, hleafCert⟩ := bind_eq_ok.mp (isCertificate_iff.mpr hleaf)
    refine bind_eq_ok.mpr ⟨_, hvalue, bind_eq_ok.mpr ⟨leafCertBytes, hbytes, ?_⟩⟩
    refine bind_eq_ok.mpr ⟨leafCert, hleafCert, bind_eq_ok.mpr ⟨cabundle, hcabundle, ?_⟩⟩
    split at hcerts
    · next values =>
      refine bind_eq_ok.mpr ⟨certs, mapM_eq_ok_iff.mpr ?_, rfl⟩
      exact hcerts.imp fun _ _ => isCertificate_iff.mpr
    · subst hcerts
      rfl

/-- Certificates with a relation that says who has signed them. -/
def pki (Signed : PublicKey → X509Certificate → Prop) : Pki X509Certificate PublicKey where
  key cert := cert.publicKey
  Signed := Signed

/-- The messages in a token and in its content are determined by the token. -/
theorem Accepted.names_unique {verifier' : AwsAttestationVerifier} {now now' : Int} {token : JString}
    {key key' : PublicKey}
    {message message' : Sign1Message} {payloadCbor payloadCbor' : CBORObject}
    {leafCert leafCert' : X509Certificate} {rest rest' : List X509Certificate}
    (h : Accepted lib verifier now token key message payloadCbor leafCert rest)
    (h' : Accepted lib verifier' now' token key' message' payloadCbor' leafCert' rest') :
    key' = key := by
  obtain ⟨document, hdocument, hmessage⟩ := h.message
  obtain ⟨document', hdocument', hmessage'⟩ := h'.message
  obtain rfl : document = document' := Except.ok.inj (hdocument.symm.trans hdocument')
  obtain rfl : message = message' := Except.ok.inj (hmessage.symm.trans hmessage')
  obtain ⟨bytes, hbytes, hpayload⟩ := h.payload
  obtain ⟨bytes', hbytes', hpayload'⟩ := h'.payload
  obtain rfl : bytes = bytes' := Option.some.inj (hbytes.symm.trans hbytes')
  obtain rfl : payloadCbor = payloadCbor' := Except.ok.inj (hpayload.symm.trans hpayload')
  exact (verifyClaims_true_iff.mp h'.claims).2.2.unique (verifyClaims_true_iff.mp h.claims).2.2

/-- **A token that is accepted is attested by the root.** If the PKIX validator validates paths of
signatures only: the certificate in the document and those in its bundle, read backwards and without
those that have the root's name, are a path to the root of AWS. So the root vouches for the key that
the document is signed with. The signed content names the claimed key, and at no time does any
verifier with this library accept the token for another key. -/
theorem verifyToken_attested (Signed : PublicKey → X509Certificate → Prop)
    (hpki : ∀ anchor date path, lib.validatePath anchor date path = .ok () →
      (pki Signed).Path anchor path)
    {now : Int} {token : JString} {key : PublicKey}
    (h : verifyToken lib verifier now token key = true) :
    (∃ document sign1Message bytes payloadCbor certificate leafCert certs,
      lib.base64Decode token = .ok document ∧ lib.decodeSign1 document = .ok sign1Message ∧
      sign1Message.getContent = some bytes ∧ lib.decodeCbor bytes = .ok payloadCbor ∧
      payloadCbor.get (.lit "certificate") = .ok (some certificate) ∧
      IsCertificate lib certificate leafCert ∧ Bundled lib payloadCbor certs ∧
      (pki Signed).Path verifier.rootCertificate (leafCert :: (certs.filter fun cert =>
        !cert.subject.equals verifier.rootCertificate.subject).reverse) ∧
      (pki Signed).Certified verifier.rootCertificate.publicKey leafCert.publicKey ∧
      lib.validateSignature sign1Message leafCert.publicKey = .ok true ∧
      Names lib payloadCbor key) ∧
    ∀ (verifier' : AwsAttestationVerifier) now' key',
      verifyToken lib verifier' now' token key' = true → key' = key := by
  obtain ⟨sign1Message, payloadCbor, leafCert, rest, haccepted⟩ := verifyToken_iff.mp h
  constructor
  · obtain ⟨document, hdocument, hmessage⟩ := haccepted.message
    obtain ⟨bytes, hbytes, hpayload⟩ := haccepted.payload
    obtain ⟨⟨certificate, hcertificate, hleaf⟩, certs, hbundled, rfl⟩ :=
      certificateChain_ok_iff.mp haccepted.chain
    have hpath := hpki _ _ _ haccepted.path
    exact ⟨document, sign1Message, bytes, payloadCbor, certificate, leafCert, certs, hdocument,
      hmessage, hbytes, hpayload, hcertificate, hleaf, hbundled, hpath,
      hpath.certified leafCert List.mem_cons_self, haccepted.signature,
      (verifyClaims_true_iff.mp haccepted.claims).2.2⟩
  · intro verifier' now' key' h'
    obtain ⟨message', payloadCbor', leafCert', rest', haccepted'⟩ := verifyToken_iff.mp h'
    exact haccepted.names_unique haccepted'

end Verifier

/-! ### A token that is accepted -/

namespace Sample

/-- The certificates are valid from and to the same dates. -/
def certificate (issuer subject : X500Principal) (key : PublicKey) (signature : Bytes) :
    X509Certificate where
  issuer := issuer
  serial := 1
  notBefore := 1700000000000
  notAfter := 1800000000000
  subject := subject
  publicKey := key
  signature := signature

/-- The name with one letter as its common name. -/
def commonName (letter : UInt8) : X500Principal where
  getEncoded := [0x30, 0x0c, 0x31, 0x0a, 0x30, 0x08, 0x06, 0x03, 0x55, 0x04, 0x03, 0x0c, 0x01, letter]
  getCanonicalName := .lit "cn=" ++ [letter.toUInt16]

def rootCertificate : X509Certificate :=
  certificate (commonName 0x72) (commonName 0x72) ⟨[0x0a]⟩ [0x0a]

def zonalCertificate : X509Certificate :=
  certificate (commonName 0x72) (commonName 0x7a) ⟨[0x0b]⟩ [0x0a]

def leafCert : X509Certificate :=
  certificate (commonName 0x7a) (commonName 0x69) ⟨[0x0c]⟩ [0x0b]

/-- A signature is the key of the signer. -/
def Signed (key : PublicKey) (cert : X509Certificate) : Prop := cert.signature = key.getEncoded

def Valid (date : Int) (cert : X509Certificate) : Prop :=
  cert.notBefore ≤ date ∧ date ≤ cert.notAfter

instance (key : PublicKey) (cert : X509Certificate) : Decidable (Signed key cert) :=
  inferInstanceAs (Decidable (_ = _))

instance (date : Int) (cert : X509Certificate) : Decidable (Valid date cert) :=
  inferInstanceAs (Decidable (_ ∧ _))

instance (anchor : X509Certificate) (path : List X509Certificate) :
    Decidable ((pki Signed).Path anchor path) :=
  inferInstanceAs (Decidable ((path ++ [anchor]).IsChain fun c issuer => Signed issuer.publicKey c))

/-- The module `i-0`, one measurement, the three certificates and an RSA key. -/
def payloadCbor : CBORObject := .map [
  (.textString (.lit "module_id"), .textString (.lit "i-0")),
  (.textString (.lit "pcrs"), .map [(.other [0x00], .byteString [0x5a])]),
  (.textString (.lit "certificate"), .byteString [0x30, 0x01, 0x02]),
  (.textString (.lit "cabundle"),
    .array [.byteString [0x30, 0x01, 0x00], .byteString [0x30, 0x01, 0x01]]),
  (.textString (.lit "public_key"), .byteString Issuance.Sample.keyInfo)]

/-- Its encoding. -/
def payload : Bytes :=
  [0xa5, 0x69, 0x6d, 0x6f, 0x64, 0x75, 0x6c, 0x65, 0x5f, 0x69, 0x64, 0x63, 0x69, 0x2d, 0x30, 0x64,
   0x70, 0x63, 0x72, 0x73, 0xa1, 0x00, 0x41, 0x5a, 0x6b, 0x63, 0x65, 0x72, 0x74, 0x69, 0x66, 0x69,
   0x63, 0x61, 0x74, 0x65, 0x43, 0x30, 0x01, 0x02, 0x68, 0x63, 0x61, 0x62, 0x75, 0x6e, 0x64, 0x6c,
   0x65, 0x82, 0x43, 0x30, 0x01, 0x00, 0x43, 0x30, 0x01, 0x01, 0x6a, 0x70, 0x75, 0x62, 0x6c, 0x69,
   0x63, 0x5f, 0x6b, 0x65, 0x79, 0x58, 0x5e] ++ Issuance.Sample.keyInfo

def sign1Message : Sign1Message := ⟨some payload, [0x0c]⟩

def document : Bytes := [0x84, 0x40, 0xa0, 0x58, 0xa5] ++ payload ++ [0x41, 0x0c]

/-- The document in Base64. -/
def token : JString :=
  .lit "hECgWKWlaW1vZHVsZV9pZGNpLTBkcGNyc6EAQVprY2VydGlmaWNhdGVDMAECaGNhYnVuZGxlgkMwAQBDMAEB" ++
    .lit "anB1YmxpY19rZXlYXjBcMA0GCSqGSIb3DQEBAQUAA0sAMEgCQQC0mGbXSkt2EdyBpYqCEw7Cx0GVYrY/0/44" ++
    .lit "MALgPu+ElPb5ktfITLdhPSsMq2vpgaxgqYrG5jHKN+/eEbAGEJdBAgMBAAFBDA=="

def malformed : Thrown := ⟨.ioException, .lit "malformed data"⟩

/-- What the libraries compute for this document. -/
def lib : Library where
  toStringUtf8 bytes := bytes.map fun byte => byte.toUInt16
  base64Decode text := if text = token then .ok document else .error malformed
  decodeSign1 bytes := if bytes = document then .ok sign1Message else .error malformed
  decodeCbor bytes := if bytes = payload then .ok payloadCbor else .error malformed
  toString
    | .other [byte] => .decimal byte.toNat
    | _ => []
  generateCertificate bytes :=
    match bytes with
    | [0x30, 0x01, 0x00] => .ok rootCertificate
    | [0x30, 0x01, 0x01] => .ok zonalCertificate
    | [0x30, 0x01, 0x02] => .ok leafCert
    | _ => .error malformed
  validatePath anchor date path :=
    if (pki Signed).Path anchor path ∧ ∀ cert ∈ path, Valid date cert then .ok ()
    else .error malformed
  validateSignature message key := .ok (message.rest = key.getEncoded)
  keys := Issuance.Sample.lib

theorem lib_validatePath {anchor : X509Certificate} {date : Int} {path : List X509Certificate} :
    lib.validatePath anchor date path = .ok () ↔
      (pki Signed).Path anchor path ∧ ∀ cert ∈ path, Valid date cert := by
  simp only [lib]
  split
  · next h => exact ⟨fun _ => h, fun _ => rfl⟩
  · next h => exact ⟨fun h' => absurd h' (by simp), fun h' => absurd h' h⟩

def verifier : AwsAttestationVerifier := { rootCertificate := rootCertificate }

end Sample

/-- The theorem for this token, on a day when its certificates are valid. -/
theorem verifyToken_attested_sample :
    verifyToken Sample.lib Sample.verifier 1750000000000 Sample.token
        ⟨Issuance.Sample.keyInfo⟩ = true ∧
      ∀ now key, verifyToken Sample.lib Sample.verifier now Sample.token key = true →
        key = ⟨Issuance.Sample.keyInfo⟩ := by
  have haccepted : verifyToken Sample.lib Sample.verifier 1750000000000 Sample.token
      ⟨Issuance.Sample.keyInfo⟩ = true := by
    decide +kernel
  have hattested := verifyToken_attested Sample.Signed
    (fun _ _ _ h => (Sample.lib_validatePath.mp h).1) haccepted
  exact ⟨haccepted, fun now key => hattested.2 Sample.verifier now key⟩

end AwsAttestationVerifier

end Aws
end Attestation
end TrustedCa
