import TrustedCa.Issuance.Domain

/-!
# The audience binding (`OidcAudienceBindingValidator`)

A caller proves that its token was made for this request: one of the audiences of the token names the
authority's host and the digest of the public key that is to be certified.

* `groups` is `AUDIENCE_PATTERN.matcher(audience).matches()` with its two groups. The pattern is
  `^https://([^/]+)/v1/certificates:issue\?pubkey_sha256=([a-f0-9]{64})$`. As no character of the
  first group is a slash, the group ends at the first slash.
-/

namespace TrustedCa
namespace Issuance

open Spec

/-- `AwsInstanceMetadata`. The account is not used. -/
structure AwsInstanceMetadata where
  region : JString
  environment : JString
  domain : JString

namespace OidcAudienceBindingValidator

/-- `[a-f0-9]`. -/
def isHexDigit (c : UInt16) : Bool :=
  (JString.char 'a' ≤ c && c ≤ JString.char 'f') || (JString.char '0' ≤ c && c ≤ JString.char '9')

/-- The rest of `s` after `start`, where `s` starts with it. -/
def after (start s : JString) : Option JString :=
  if start <+: s then some (s.drop start.length) else none

def groups (audience : JString) : Option (JString × JString) := do
  let rest ← after (.lit "https://") audience
  let hostname := rest.takeWhile (· ≠ JString.char '/')
  let digest ← after (.lit "/v1/certificates:issue?pubkey_sha256=") (rest.drop hostname.length)
  guard (hostname ≠ [] ∧ digest.length = 64 ∧ digest.all isHexDigit)
  return (hostname, digest)

variable (trustDomain : JString) (metadata : AwsInstanceMetadata) (sha256 : Bytes → Bytes)

def isValidHostname (hostname : JString) : Bool :=
  let globalHostname := .lit "tca." ++ metadata.environment ++ .lit "." ++ metadata.domain
  let regionalHostname := metadata.region ++ .lit "." ++ globalHostname
  hostname == trustDomain || hostname == globalHostname || hostname == regionalHostname

def getExpectedDigest (csrPublicKey : PublicKey) : JString :=
  JString.base16 (sha256 csrPublicKey.getEncoded)

/-- The body of the loop over the audiences: whether it returns. -/
def accepts (expectedDigest audience : JString) : Bool :=
  match groups audience with
  | some (hostname, digest) =>
    digest == expectedDigest && isValidHostname trustDomain metadata hostname
  | none => false

def validate (csrPublicKey : PublicKey) (callerIdentity : CallerIdentity) : Except Thrown Unit :=
  let expectedDigest := getExpectedDigest sha256 csrPublicKey
  if callerIdentity.audiences.any (accepts trustDomain metadata expectedDigest) then .ok ()
  else .error
    ⟨.audienceValidationException, .lit "OIDC audience binding validation failed."⟩

end OidcAudienceBindingValidator

end Issuance
end TrustedCa
