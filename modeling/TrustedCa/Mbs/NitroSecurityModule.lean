import TrustedCa.Mbs.Provider
import TrustedCa.Spec.Resource

/-!
# The Nitro Security Module and its clients (`com.google.platform.aws.nsm`, `AwsKmsClient`,
`AwsAttestationCollector`)

The security module is a device with a descriptor that a `NitroSecurityModule` opens and closes. The
collector asks it for an attestation document of a key. The KMS client makes a key pair for one
request, has its public key attested, sends the document along, and decrypts with the private key
what comes back for the recipient.

* `Op`: the functions of the native library, the key pair generator and the two requests to the KMS.
  Their answers are arbitrary. `getAttestationDoc` answers with what `nsm_jni.c` makes of it: the
  document, or a status that is not zero.
* `cms` is the decryption of CMS enveloped data with a private key. It may throw.
* `Call`: a call of a method of the two clients, and `session` calls one after the other, whatever
  becomes of each.
* The algorithms in the requests and the texts of KMS errors are left out.
-/

namespace TrustedCa
namespace Mbs
namespace Nitro

open Spec

/-- `java.security.KeyPair`, with the encodings of the keys. -/
structure KeyPair where
  getPublic : Bytes
  getPrivate : Bytes
  deriving DecidableEq

/-- The fields of the response that are read. Each may be `null`. -/
structure GenerateDataKeyResponse where
  ciphertextForRecipient : Option Bytes
  ciphertextBlob : Option Bytes
  deriving DecidableEq

structure DecryptResponse where
  ciphertextForRecipient : Option Bytes
  deriving DecidableEq

/-- The calls that leave the program. -/
inductive Op where
  | init
  | exit (fd : Int)
  | getAttestationDoc (fd : Int) (userData nonce publicKey : Option Bytes)
  | generateKeyPair
  | generateDataKey (keyId : String) (attestationDocument : Bytes)
  | decrypt (ciphertext : Bytes) (keyId : String) (attestationDocument : Bytes)
  deriving DecidableEq

/-- The answer to a call. -/
abbrev Ret : Op → Type
  | .init => Int
  | .exit _ => Unit
  | .getAttestationDoc .. => Except Int Bytes
  | .generateKeyPair => Except Exn KeyPair
  | .generateDataKey .. => Except Exn GenerateDataKeyResponse
  | .decrypt .. => Except Exn DecryptResponse

abbrev Log := List (Event Op Ret)

abbrev NitroProg := Prog Op Ret Exn

/-! ## `NitroSecurityModule` -/

namespace NitroSecurityModule

/-- The constructor. -/
def new : NitroProg Int :=
  .call .init fun fd =>
    if fd < 0 then .throw (.runtime ("Failed to initialize NSM library, fd: " ++ toString fd))
    else .ret fd

def getAttestationDocument (fd : Int) (userData nonce publicKey : Option Bytes) : NitroProg Bytes :=
  .call (.getAttestationDoc fd userData nonce publicKey) fun
    | .ok attestationDoc => .ret attestationDoc
    | .error statusCode => .throw
        (.runtime ("Failed to get attestation document, status_code: " ++ toString statusCode))

/-- `close`. The descriptor 0 is taken for none. -/
def close (fd : Int) : NitroProg Unit :=
  if 0 < fd then .call (.exit fd) .ret else .ret ()

/-- `try (NitroSecurityModule nsm = nsmFactory.create())`. -/
def use {α : Type} (body : Int → NitroProg α) : NitroProg α := do
  let fd ← new
  (body fd).ensuring (close fd)

end NitroSecurityModule

open NitroSecurityModule

/-! ## `AwsAttestationCollector` -/

def validateSize (data : Bytes) (description : String) : NitroProg Unit :=
  if data.length > 1024 then
    throw (.runtime (description ++ " exceeds maximum size of 1024 bytes"))
  else
    return ()

def collectBoundToPubkey (publicKey : Bytes) : NitroProg AttestationToken := do
  validateSize publicKey "Public key"
  use fun nsm => do
    let doc ← getAttestationDocument nsm none none (some publicKey)
    return ⟨doc⟩

/-- `collectBoundToPubkey` with user data. -/
def collectBoundToPubkeyAndUserData (publicKey userData : Bytes) : NitroProg AttestationToken := do
  validateSize publicKey "Public key"
  validateSize userData "User data"
  use fun nsm => do
    let doc ← getAttestationDocument nsm (some userData) none (some publicKey)
    return ⟨doc⟩

/-- Both, for user data that may be missing. -/
def collect (publicKey : Bytes) : Option Bytes → NitroProg AttestationToken
  | none => collectBoundToPubkey publicKey
  | some userData => collectBoundToPubkeyAndUserData publicKey userData

/-! ## `AwsKmsClient` -/

section AwsKmsClient

variable (cms : Bytes → Bytes → Except Exn Bytes)

def generateEphemeralKeyPair : NitroProg KeyPair := .call .generateKeyPair Prog.ofExcept

/-- `decryptCiphertextForRecipient`, with the check before it. -/
def decryptCiphertextForRecipient (ciphertextForRecipient : Option Bytes) (keyPair : KeyPair) :
    NitroProg Bytes :=
  match ciphertextForRecipient with
  | none | some [] => .throw .kms
  | some ciphertext => .ofExcept (cms keyPair.getPrivate ciphertext)

/-- The `catch` clause: every exception becomes a `KmsException`. -/
def wrapping {α : Type} (p : NitroProg α) : NitroProg α := tryCatch p fun _ => throw .kms

def generateDataKey (keyId : String) : NitroProg (Bytes × Bytes) :=
  wrapping <| use fun nsm => do
    let keyPair ← generateEphemeralKeyPair
    let attestationDoc ← getAttestationDocument nsm none none (some keyPair.getPublic)
    let response ← .call (.generateDataKey keyId attestationDoc) Prog.ofExcept
    let plaintext ← decryptCiphertextForRecipient cms response.ciphertextForRecipient keyPair
    match response.ciphertextBlob with
    | some ciphertext => return (plaintext, ciphertext)
    | none => throw (.runtime "NullPointerException")

def decrypt (ciphertext : Bytes) (keyId : String) : NitroProg Bytes :=
  wrapping <| use fun nsm => do
    let keyPair ← generateEphemeralKeyPair
    let attestationDoc ← getAttestationDocument nsm none none (some keyPair.getPublic)
    let response ← .call (.decrypt ciphertext keyId attestationDoc) Prog.ofExcept
    decryptCiphertextForRecipient cms response.ciphertextForRecipient keyPair

/-! ## Sessions -/

/-- A call of the collector or of the KMS client. -/
inductive Call where
  | collectBoundToPubkey (publicKey : Bytes)
  | collectBoundToPubkeyAndUserData (publicKey userData : Bytes)
  | generateDataKey (keyId : String)
  | decrypt (ciphertext : Bytes) (keyId : String)

/-- The call, without its value. -/
def Call.perform : Call → NitroProg Unit
  | .collectBoundToPubkey publicKey => do
    let _ ← Nitro.collectBoundToPubkey publicKey
    return ()
  | .collectBoundToPubkeyAndUserData publicKey userData => do
    let _ ← Nitro.collectBoundToPubkeyAndUserData publicKey userData
    return ()
  | .generateDataKey keyId => do
    let _ ← Nitro.generateDataKey cms keyId
    return ()
  | .decrypt ciphertext keyId => do
    let _ ← Nitro.decrypt cms ciphertext keyId
    return ()

/-- One call after the other, also after one that throws. -/
def session : List Call → NitroProg Unit
  | [] => return ()
  | call :: calls => do
    tryCatch (call.perform cms) fun _ => return ()
    session calls

end AwsKmsClient

end Nitro
end Mbs
end TrustedCa
