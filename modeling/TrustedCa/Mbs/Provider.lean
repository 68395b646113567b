import TrustedCa.Spec.Prog

/-!
# The measurement-bound root certificate (`KmsMeasurementBoundCertificateProvider`)

`executeLoadOrGenerateCertificate` loads the root from S3 or generates it. It is a program over a
device: two buckets with one object per path, the KMS, the transparency log and the metrics. A call
may fail, before or after it took effect (`Fault`).

* Certificates, keys, PEM, hashes, signatures, the KMS and the AEAD are not part of the repository:
  `World` holds what they compute. `World.cert n`, `World.key n`, ... are the answers to the `n`-th
  call of the certificate factory and to the calls that belong to it, so every sequence of answers is
  covered.
* `RekorClientImpl` signs the certificate with its private key and puts the signature into the log.
* `Object.origin` and `Generated.id` record which generation an object comes from. No decision of
  the program depends on them.
* `loadOrGenerateCertificate` memoizes a returned root and nothing else, so a call after a failure is
  a new run and a call after a success returns the same root.
* Cache control and checksums of the requests and the texts of the S3 and KMS errors are left out,
  and the prefix and the hexadecimal form of the digest that the log is searched for.
-/

namespace TrustedCa
namespace Mbs

open Spec

abbrev Bytes := List UInt8

/-- The objects that `KeyBackupBucketProperties` names. -/
inductive ObjectPath where
  | kmsEncryptedDataKey | aesEncryptedPrivateKey | cert | attestationDoc | tlogEntry
  deriving DecidableEq

/-- The names that `KeyBackupBucketPropertiesFactory` gives them. -/
def ObjectPath.name : ObjectPath → String
  | .kmsEncryptedDataKey => "private/0/root_data_key.kms"
  | .aesEncryptedPrivateKey => "private/0/root_private_key.aes"
  | .cert => "public/0/root_certificate.pem"
  | .attestationDoc => "public/0/attestation_doc.base64"
  | .tlogEntry => "public/0/cert_tlog_entry.json"

/-- The five objects do not overlap, also when one bucket is used for both. -/
theorem ObjectPath.name_injective : Function.Injective ObjectPath.name := by
  intro p q h
  cases p <;> cases q <;> first | rfl | exact absurd h (by decide)

inductive MbsEvent where
  | SUCCESS | S3_FETCH_FAILED | S3_WRITE_FAILED | KMS_OPERATION_FAILED
  deriving DecidableEq

/-- `AttestationToken`. It is kept in Base64, which stands for its bytes. -/
structure AttestationToken where
  getBytes : Bytes
  deriving DecidableEq

/-- The exceptions that are told apart: `NoSuchKeyException`, any other `SdkException`,
`KmsException`, a `GeneralSecurityException`, an `IOException`, and any other one. -/
inductive Exn where
  | noSuchKey
  | sdk
  | kms
  | security (message : String)
  | io (message : String)
  | runtime (message : String)
  deriving DecidableEq

/-- `HashedRekordRequest`: what the log is asked to take. -/
structure HashedRekordRequest where
  artifactDigest : Bytes
  publicKeyPem : Bytes
  signature : Bytes
  deriving DecidableEq

/-- `RekorEntry`: what the log took, with a number for its index, its time and its proofs. -/
structure RekorEntry where
  body : HashedRekordRequest
  logIndex : Nat
  deriving DecidableEq

/-- What the world outside computes. -/
structure World (Cert Key : Type) where
  cert : Nat → Cert
  key : Nat → Key
  token : Nat → AttestationToken
  plaintext : Nat → Bytes
  ciphertext : Nat → Bytes
  kmsDecrypt : Bytes → Option Bytes
  convertToPem : Cert → Bytes
  generateCertificate : Bytes → Option Cert
  getEncoded : Key → Bytes
  /-- `KeyFactory.generatePrivate` for the key algorithm of the certificate. -/
  generatePrivate : Cert → Bytes → Option Key
  /-- The AEAD under a key, with the nonce of a generation. -/
  aeadEncrypt : Bytes → Nat → Bytes → Bytes
  aeadDecrypt : Bytes → Bytes → Option Bytes
  certDer : Cert → Bytes
  sha256 : Bytes → Bytes
  /-- `SHA256withRSA`, which is deterministic. -/
  sign : Key → Bytes → Bytes
  publicKeyPem : Cert → Bytes
  toJson : RekorEntry → Bytes

/-- `MeasurementBoundCertificate`. -/
structure MeasurementBoundCertificate (Cert Key : Type) where
  certificate : Cert
  privateKey : Key
  attestationToken : AttestationToken
  deriving DecidableEq

/-- `X509CertificateAndPrivateKey`, with the number of the generation. -/
structure Generated (Cert Key : Type) where
  id : Nat
  certificate : Cert
  privateKey : Key

/-- An object in a bucket, with the generation that it comes from. -/
structure Object where
  bytes : Bytes
  origin : Option Nat
  deriving DecidableEq

/-- The buckets, the transparency log, the number of generations so far, and the metrics. -/
structure Store where
  objects : ObjectPath → Option Object := fun _ => none
  log : List HashedRekordRequest := []
  generations : Nat := 0
  events : List MbsEvent := []

def Store.put (s : Store) (p : ObjectPath) (o : Object) : Store :=
  { s with objects := fun q => if q = p then some o else s.objects q }

/-- The entries of the log for a digest, the newest first. An entry is known by its position. -/
def Store.entryUUIDs (s : Store) (artifactDigest : Bytes) : List Nat :=
  ((List.range s.log.length).filter fun i =>
    s.log[i]?.any fun request => request.artifactDigest = artifactDigest).reverse

/-! ## The device -/

/-- The calls that leave the program. -/
inductive Op (Cert Key : Type) where
  | getObject (p : ObjectPath)
  | headObject (p : ObjectPath)
  | putObject (p : ObjectPath) (o : Object)
  | kmsDecrypt (ciphertext : Bytes)
  | generateDataKey (gen : Nat)
  | generate
  | collectBoundToPubkey (gen : Nat) (certificate : Cert)
  | putEntry (request : HashedRekordRequest)
  | searchEntry (artifactDigest : Bytes)
  | getEntry (entryUUID : Nat)
  | recordEvent (event : MbsEvent)

/-- The value of a call that succeeds. -/
abbrev Val {Cert Key : Type} : Op Cert Key → Type
  | .getObject _ => Bytes
  | .headObject _ | .putObject _ _ | .recordEvent _ => Unit
  | .kmsDecrypt _ => Bytes
  | .generateDataKey _ => Bytes × Bytes
  | .generate => Generated Cert Key
  | .collectBoundToPubkey _ _ => AttestationToken
  | .putEntry _ => RekorEntry
  | .searchEntry _ => List Nat
  | .getEntry _ => Option RekorEntry

/-- The answer to a call. -/
abbrev Ret {Cert Key : Type} (o : Op Cert Key) : Type := Except Exn (Val o)

/-- Whether a call fails, and whether it took effect then. -/
inductive Fault where
  | none | lost | unacknowledged
  deriving DecidableEq

/-- What the device is free to do: a fault, whether the log finds an entry that it has, the log index
of an entry, the text of an error, and the exception that a call of the log throws. -/
structure Choice where
  fault : Fault := .none
  indexed : Bool := true
  logIndex : Nat := 0
  message : String := ""
  thrown : Exn := .io ""

section Device

variable {Cert Key : Type}

/-- The answer `v` of a call that makes `s'` out of `s`, or the exception `e`. -/
def attempt {α : Type} (f : Fault) (s s' : Store) (v : α) (e : Exn) :
    Except Exn α × Store :=
  match f with
  | .none => (.ok v, s')
  | .lost => (.error e, s)
  | .unacknowledged => (.error e, s')

def getAnswer {α : Type} (f : Fault) (v : Option α) (absent e : Exn) : Except Exn α :=
  match f, v with
  | .none, some a => .ok a
  | .none, none => .error absent
  | _, _ => .error e

/-- One call. S3 is consistent: a get sees the last put. -/
def serve (w : World Cert Key) (ch : Choice) (s : Store) : (o : Op Cert Key) → Ret o × Store
  | .getObject p => (getAnswer ch.fault ((s.objects p).map Object.bytes) .noSuchKey .sdk, s)
  | .headObject p => (getAnswer ch.fault ((s.objects p).map fun _ => ()) .noSuchKey .sdk, s)
  | .putObject p o => attempt ch.fault s (s.put p o) () .sdk
  | .kmsDecrypt c => (getAnswer ch.fault (w.kmsDecrypt c) .kms .kms, s)
  | .generateDataKey g => attempt ch.fault s s (w.plaintext g, w.ciphertext g) .kms
  | .generate =>
    attempt ch.fault s { s with generations := s.generations + 1 }
      ⟨s.generations, w.cert s.generations, w.key s.generations⟩
      (.runtime "Failed to generate self-signed certificate")
  | .collectBoundToPubkey g _ => attempt ch.fault s s (w.token g) (.runtime ch.message)
  | .putEntry request =>
    attempt ch.fault s { s with log := s.log ++ [request] } ⟨request, ch.logIndex⟩ ch.thrown
  | .searchEntry artifactDigest =>
    attempt ch.fault s s (if ch.indexed then s.entryUUIDs artifactDigest else []) ch.thrown
  | .getEntry entryUUID =>
    attempt ch.fault s s
      (if ch.indexed then s.log[entryUUID]?.map (RekorEntry.mk · ch.logIndex) else none) ch.thrown
  | .recordEvent e => (.ok (), { s with events := s.events ++ [e] })

end Device

abbrev MbsProg (Cert Key α : Type) := Prog (Op Cert Key) Ret Exn α

def perform {Cert Key : Type} (o : Op Cert Key) : MbsProg Cert Key (Val o) := .call o Prog.ofExcept

/-! ## The client of the transparency log -/

namespace RekorClientImpl

variable {Cert Key : Type} (w : World Cert Key)

/-- The digest of the encoded certificate, which it is recorded and searched by. -/
def artifactDigest (certificate : Cert) : Bytes := w.sha256 (w.certDer certificate)

/-- The request for a certificate, with the signature of the encoded certificate. -/
def hashedRekordRequest (certificate : Cert) (privateKey : Key) : HashedRekordRequest where
  artifactDigest := artifactDigest w certificate
  publicKeyPem := w.publicKeyPem certificate
  signature := w.sign privateKey (w.certDer certificate)

/-- `recordCertificate`. A key that cannot sign, or a response that cannot be parsed, counts as an
exception of `putEntry`. -/
def recordCertificate (certificate : Cert) (privateKey : Key) : MbsProg Cert Key Bytes := do
  let entry ← tryCatch (perform (.putEntry (hashedRekordRequest w certificate privateKey)))
    fun e => match e with
      | .io m => throw (.runtime ("Failed to record certificate in Rekor: " ++ m))
      | e => throw e
  return w.toJson entry

/-- `getTlogEntryByCertificate`: the newest entry for the certificate. -/
def getTlogEntryByCertificate (certificate : Cert) : MbsProg Cert Key (Option Bytes) := do
  let entryUUIDs ← perform (.searchEntry (artifactDigest w certificate))
  match entryUUIDs with
  | entryUUID :: _ => do
    let entry ← perform (.getEntry entryUUID)
    return entry.map w.toJson
  | [] => return none

end RekorClientImpl

/-! ## The provider -/

section Provider

variable {Cert Key : Type} (w : World Cert Key)

/-- `encrypt`, with the nonce of the generation. -/
def encrypt (plaintext key : Bytes) (nonce : Nat) : MbsProg Cert Key Bytes :=
  if key.length ≠ 32 then
    throw (.security "Invalid key size. Expected 32 bytes for AES-256-GCM.")
  else
    pure (w.aeadEncrypt key nonce plaintext)

def decrypt (ciphertext key : Bytes) : MbsProg Cert Key Bytes :=
  if key.length ≠ 32 then
    throw (.security "Invalid key size. Expected 32 bytes for AES-256-GCM.")
  else
    .ofOption (.security "decryption failed") (w.aeadDecrypt key ciphertext)

/-- `s3ObjectExists`. -/
def s3ObjectExists (p : ObjectPath) : MbsProg Cert Key Bool :=
  tryCatch (do
    let _ ← perform (.headObject p)
    return true)
  fun e => match e with
    | .noSuchKey => return false
    | e => throw e

/-- `reconcileTlogArtifacts`: an entry that the log has and the bucket lacks is stored. What fails
in the attempt is logged only. -/
def reconcileTlogArtifacts (certificate : Cert) : MbsProg Cert Key Unit := do
  let found ← s3ObjectExists .tlogEntry
  if found then
    return ()
  else
    tryCatch (do
      let tlogEntryOpt ← RekorClientImpl.getTlogEntryByCertificate w certificate
      match tlogEntryOpt with
      | some entryJson => do
        let _ ← perform (.putObject .tlogEntry ⟨entryJson, none⟩)
        return ()
      | none => return ())
      fun _ => return ()

/-- The `catch` of a group of calls that records an event and throws the exception again. -/
def recording {α : Type} (p : MbsProg Cert Key α) (isFailure : Exn → Bool) (event : MbsEvent) :
    MbsProg Cert Key α :=
  tryCatch p fun e =>
    if isFailure e then do
      let _ ← perform (.recordEvent event)
      throw e
    else
      throw e

def Exn.isSdk : Exn → Bool
  | .noSuchKey | .sdk => true
  | .kms | .security _ | .io _ | .runtime _ => false

def Exn.isKms : Exn → Bool
  | .kms => true
  | .noSuchKey | .sdk | .security _ | .io _ | .runtime _ => false

/-- The text of an exception that `recordCertificate` throws. -/
def Exn.getMessage : Exn → String
  | .security m | .io m | .runtime m => m
  | .noSuchKey | .sdk | .kms => ""

/-- `generateAndStoreCertificate`. -/
def generateAndStoreCertificate : MbsProg Cert Key (MeasurementBoundCertificate Cert Key) := do
  let certAndKey ← perform .generate
  let token ← perform (.collectBoundToPubkey certAndKey.id certAndKey.certificate)
  let generatedKey ← recording (perform (.generateDataKey certAndKey.id)) Exn.isKms
    .KMS_OPERATION_FAILED
  let aeadEncryptedPrivateKey ←
    encrypt w (w.getEncoded certAndKey.privateKey) generatedKey.1 certAndKey.id
  recording (do
    let _ ← perform (.putObject .aesEncryptedPrivateKey ⟨aeadEncryptedPrivateKey, certAndKey.id⟩)
    let _ ← perform (.putObject .kmsEncryptedDataKey ⟨generatedKey.2, certAndKey.id⟩)
    let _ ← perform (.putObject .cert ⟨w.convertToPem certAndKey.certificate, certAndKey.id⟩)
    let _ ← perform (.putObject .attestationDoc ⟨token.getBytes, certAndKey.id⟩)
    return ()) Exn.isSdk .S3_WRITE_FAILED
  let tlogEntry ← tryCatch
    (RekorClientImpl.recordCertificate w certAndKey.certificate certAndKey.privateKey)
    fun e => throw (.runtime
      ("Failed to record root certificate in transparency log: " ++ e.getMessage))
  recording (do
    let _ ← perform (.putObject .tlogEntry ⟨tlogEntry, certAndKey.id⟩)
    return ()) Exn.isSdk .S3_WRITE_FAILED
  let _ ← perform (.recordEvent .SUCCESS)
  return ⟨certAndKey.certificate, certAndKey.privateKey, token⟩

/-- The body of the `try` in `executeLoadOrGenerateCertificate`. -/
def loadCertificate : MbsProg Cert Key (MeasurementBoundCertificate Cert Key) := do
  let certBytes ← perform (.getObject .cert)
  let certificate ← .ofOption (.security "not a certificate") (w.generateCertificate certBytes)
  let kmsEncryptedDataKey ← perform (.getObject .kmsEncryptedDataKey)
  let dataKey ← perform (.kmsDecrypt kmsEncryptedDataKey)
  let aeadEncryptedPrivateKey ← perform (.getObject .aesEncryptedPrivateKey)
  let attestationDocBytes ← perform (.getObject .attestationDoc)
  let token := AttestationToken.mk attestationDocBytes
  let decryptedPrivateKey ← decrypt w aeadEncryptedPrivateKey dataKey
  let privateKey ←
    .ofOption (.security "not a private key") (w.generatePrivate certificate decryptedPrivateKey)
  reconcileTlogArtifacts w certificate
  let _ ← perform (.recordEvent .SUCCESS)
  return ⟨certificate, privateKey, token⟩

/-- `executeLoadOrGenerateCertificate`. -/
def executeLoadOrGenerateCertificate : MbsProg Cert Key (MeasurementBoundCertificate Cert Key) :=
  tryCatch (loadCertificate w) fun e =>
    match e with
    | .noSuchKey => generateAndStoreCertificate w
    | .kms => do
      let _ ← perform (.recordEvent .KMS_OPERATION_FAILED)
      throw e
    | .sdk => do
      let _ ← perform (.recordEvent .S3_FETCH_FAILED)
      throw e
    | .security _ | .io _ | .runtime _ => throw e

end Provider

end Mbs
end TrustedCa
