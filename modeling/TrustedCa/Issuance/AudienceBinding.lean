import TrustedCa.Issuance.Audience
import TrustedCa.Spec.Framing
import Mathlib.Data.Option.Basic

/-!
# The audience binding is an exact comparison

`OidcAudienceBindingValidator` takes an audience apart with a regular expression and compares the
parts. `validate_exact` says that this is a comparison of whole texts: the validator returns exactly
if one of three texts is among the audiences, one for each host of the authority, with the digest of
the key.

* `groups_eq_some_iff`: the pattern matches the texts that are put together from a host without a
  slash and 64 hexadecimal digits, and its groups are these two.
* `base16_hex`: the digest that is compared with has that form.
-/

namespace TrustedCa
namespace Issuance
namespace OidcAudienceBindingValidator

open Spec

/-- The audience for a host and the digest of a key. -/
def audienceFor (hostname digest : JString) : JString :=
  .lit "https://" ++ hostname ++ .lit "/v1/certificates:issue?pubkey_sha256=" ++ digest

/-- The trust domain, the global and the regional host. -/
def hostnames (trustDomain : JString) (metadata : AwsInstanceMetadata) : List JString :=
  [trustDomain, .lit "tca." ++ metadata.environment ++ .lit "." ++ metadata.domain,
    metadata.region ++ .lit ".tca." ++ metadata.environment ++ .lit "." ++ metadata.domain]

/-- A text that can be a part of a host. -/
def IsLabel (s : JString) : Prop := s ≠ [] ∧ JString.char '/' ∉ s

instance (s : JString) : Decidable (IsLabel s) := inferInstanceAs (Decidable (_ ∧ _))

/-- 64 lower case hexadecimal digits. -/
def IsDigest (d : JString) : Prop := d.length = 64 ∧ d.all isHexDigit = true

theorem after_eq_some_iff {start s rest : JString} : after start s = some rest ↔ s = start ++ rest := by
  unfold after
  constructor
  · intro h
    split at h
    · next hpre =>
      cases h
      obtain ⟨t, rfl⟩ := hpre
      rw [List.drop_left]
    · cases h
  · rintro rfl
    rw [if_pos (List.prefix_append ..), List.drop_left]

/-- What the pattern matches, and its groups. -/
theorem groups_eq_some_iff {audience hostname digest : JString} :
    groups audience = some (hostname, digest) ↔
      audience = audienceFor hostname digest ∧ IsLabel hostname ∧ IsDigest digest := by
  have hpath : JString.lit "/v1/certificates:issue?pubkey_sha256=" =
      JString.char '/' :: JString.lit "v1/certificates:issue?pubkey_sha256=" := rfl
  constructor
  · intro h
    obtain ⟨rest, hrest, h⟩ := Option.bind_eq_some_iff.mp h
    obtain ⟨digest', hdigest, h⟩ := Option.bind_eq_some_iff.mp h
    obtain ⟨_, hguard, h⟩ := Option.bind_eq_some_iff.mp h
    cases h
    obtain ⟨hne, hlen, hhex⟩ := (Option.guard_eq_some' _).mp hguard
    rw [after_eq_some_iff] at hrest hdigest
    refine ⟨?_, ⟨hne, fun hmem => ?_⟩, hlen, hhex⟩
    · rw [hrest, audienceFor, List.append_assoc, List.append_assoc, ← hdigest]
      exact congrArg _ (List.prefix_iff_eq_append.mp (List.takeWhile_prefix _)).symm
    · have := List.mem_takeWhile_imp hmem
      simp at this
  · rintro ⟨rfl, ⟨hne, hslash⟩, hlen, hhex⟩
    have hhost : (hostname ++ (JString.lit "/v1/certificates:issue?pubkey_sha256=" ++ digest)).takeWhile
        (· ≠ JString.char '/') = hostname := by
      rw [hpath, List.cons_append, takeWhile_append_cons_eq_iff (by simp)]
      intro c hc
      exact decide_eq_true fun h => hslash (h ▸ hc)
    have hrest : after (.lit "https://") (audienceFor hostname digest) =
        some (hostname ++ (JString.lit "/v1/certificates:issue?pubkey_sha256=" ++ digest)) := by
      rw [after_eq_some_iff, audienceFor, List.append_assoc, List.append_assoc]
    have hdigest : after (.lit "/v1/certificates:issue?pubkey_sha256=")
        (.lit "/v1/certificates:issue?pubkey_sha256=" ++ digest) = some digest :=
      after_eq_some_iff.mpr rfl
    simp only [groups, hrest, Option.bind_eq_bind, Option.bind_some, hhost, List.drop_left, hdigest]
    exact Option.bind_eq_some_iff.mpr ⟨(), (Option.guard_eq_some' _).mpr ⟨hne, hlen, hhex⟩, rfl⟩

/-! ## The digest -/

theorem isHexDigit_hexDigit {n : Nat} (hn : n < 16) : isHexDigit (JString.hexDigit n) = true := by
  have hall : ∀ n : Fin 16, isHexDigit (JString.hexDigit n) = true := by decide
  exact hall ⟨n, hn⟩

theorem base16_length (bytes : List UInt8) : (JString.base16 bytes).length = 2 * bytes.length := by
  induction bytes with
  | nil => rfl
  | cons b bytes ih =>
    rw [JString.base16, List.flatMap_cons, List.length_append, ← JString.base16, ih]
    simp only [List.length_cons, List.length_nil]
    omega

theorem base16_hex (bytes : List UInt8) : (JString.base16 bytes).all isHexDigit = true := by
  rw [List.all_eq_true]
  intro c hc
  obtain ⟨b, -, hc⟩ := List.mem_flatMap.mp hc
  have hlt := b.toNat_lt
  simp only [List.mem_cons, List.not_mem_nil, or_false] at hc
  rcases hc with rfl | rfl <;> exact isHexDigit_hexDigit (by omega)

section Validate

variable {trustDomain : JString} {metadata : AwsInstanceMetadata} {sha256 : Bytes → Bytes}

theorem isValidHostname_iff {hostname : JString} :
    isValidHostname trustDomain metadata hostname = true ↔
      hostname ∈ hostnames trustDomain metadata := by
  have hregional : metadata.region ++ JString.lit "." ++ (JString.lit "tca." ++ metadata.environment ++
      JString.lit "." ++ metadata.domain) =
      metadata.region ++ JString.lit ".tca." ++ metadata.environment ++ JString.lit "." ++
        metadata.domain := by
    simp only [List.append_assoc]
    rfl
  simp only [isValidHostname, hregional, hostnames, Bool.or_eq_true, beq_iff_eq, List.mem_cons,
    List.not_mem_nil, or_false, or_assoc]

/-- A host is made of labels. -/
theorem isLabel_of_mem (ht : IsLabel trustDomain) (he : IsLabel metadata.environment)
    (hd : IsLabel metadata.domain) (hr : IsLabel metadata.region) {hostname : JString}
    (h : hostname ∈ hostnames trustDomain metadata) : IsLabel hostname := by
  have hlit : JString.char '/' ∉ JString.lit "tca." ∧ JString.char '/' ∉ JString.lit "." ∧
      JString.char '/' ∉ JString.lit ".tca." := by decide
  simp only [hostnames, List.mem_cons, List.not_mem_nil, or_false] at h
  rcases h with rfl | rfl | rfl
  · exact ht
  · exact ⟨by simp [hd.1], by simp only [List.mem_append, not_or]; exact
      ⟨⟨⟨hlit.1, he.2⟩, hlit.2.1⟩, hd.2⟩⟩
  · exact ⟨by simp [hd.1], by simp only [List.mem_append, not_or]; exact
      ⟨⟨⟨⟨hr.2, hlit.2.2⟩, he.2⟩, hlit.2.1⟩, hd.2⟩⟩

/-- The body of the loop is a comparison of texts. -/
theorem accepts_iff (hhosts : ∀ h ∈ hostnames trustDomain metadata, IsLabel h) {digest audience : JString}
    (hdigest : IsDigest digest) :
    accepts trustDomain metadata digest audience = true ↔
      ∃ h ∈ hostnames trustDomain metadata, audience = audienceFor h digest := by
  unfold accepts
  constructor
  · intro h
    split at h
    · next hostname digest' hgroups =>
      rw [Bool.and_eq_true, beq_iff_eq, isValidHostname_iff] at h
      obtain ⟨rfl, hhost⟩ := h
      exact ⟨hostname, hhost, (groups_eq_some_iff.mp hgroups).1⟩
    · cases h
  · rintro ⟨hostname, hhost, rfl⟩
    rw [groups_eq_some_iff.mpr ⟨rfl, hhosts hostname hhost, hdigest⟩]
    exact Bool.and_eq_true_iff.mpr ⟨beq_self_eq_true _, isValidHostname_iff.mpr hhost⟩

/-- **The audience binding is exact.** The validator returns if and only if one of the audiences is
that of a host of the authority with the digest of the key, and throws
`AudienceValidationException` otherwise. The order of the audiences, and anything else about the
caller, has no influence. -/
theorem validate_exact (hsha : ∀ bytes, (sha256 bytes).length = 32) (ht : IsLabel trustDomain)
    (he : IsLabel metadata.environment) (hd : IsLabel metadata.domain) (hr : IsLabel metadata.region)
    (key : PublicKey) (caller : CallerIdentity) :
    (validate trustDomain metadata sha256 key caller = .ok () ↔
      ∃ h ∈ hostnames trustDomain metadata,
        audienceFor h (JString.base16 (sha256 key.getEncoded)) ∈ caller.audiences) ∧
    (validate trustDomain metadata sha256 key caller ≠ .ok () →
      ∃ message, validate trustDomain metadata sha256 key caller =
        .error ⟨.audienceValidationException, message⟩) ∧
    ∀ caller' : CallerIdentity, (∀ a, a ∈ caller'.audiences ↔ a ∈ caller.audiences) →
      validate trustDomain metadata sha256 key caller' =
        validate trustDomain metadata sha256 key caller := by
  have hdigest : IsDigest (getExpectedDigest sha256 key) :=
    ⟨by rw [getExpectedDigest, base16_length, hsha], base16_hex _⟩
  have hhosts : ∀ h ∈ hostnames trustDomain metadata, IsLabel h :=
    fun h => isLabel_of_mem ht he hd hr
  have hany : ∀ c : CallerIdentity,
      (c.audiences.any (accepts trustDomain metadata (getExpectedDigest sha256 key)) = true ↔
        ∃ h ∈ hostnames trustDomain metadata,
          audienceFor h (getExpectedDigest sha256 key) ∈ c.audiences) := by
    intro c
    rw [List.any_eq_true]
    constructor
    · rintro ⟨audience, hmem, haccepts⟩
      obtain ⟨h, hhost, rfl⟩ := (accepts_iff hhosts hdigest).mp haccepts
      exact ⟨h, hhost, hmem⟩
    · rintro ⟨h, hhost, hmem⟩
      exact ⟨_, hmem, (accepts_iff hhosts hdigest).mpr ⟨h, hhost, rfl⟩⟩
  unfold validate
  dsimp only
  refine ⟨?_, fun hne => ?_, fun caller' hsame => ?_⟩
  · rw [← getExpectedDigest, ← hany caller]
    split
    · next h => exact ⟨fun _ => h, fun _ => rfl⟩
    · next h => exact ⟨nofun, fun h' => absurd h' h⟩
  · split at hne
    · exact absurd rfl hne
    · next h => exact ⟨_, if_neg h⟩
  · have hiff : caller'.audiences.any (accepts trustDomain metadata (getExpectedDigest sha256 key)) =
        caller.audiences.any (accepts trustDomain metadata (getExpectedDigest sha256 key)) := by
      rw [Bool.eq_iff_iff, hany, hany]
      simp only [hsame]
    rw [hiff]

end Validate

/-- An Ed25519 key. -/
def edKey : PublicKey := ⟨
  [0x30, 0x2a, 0x30, 0x05, 0x06, 0x03, 0x2b, 0x65, 0x70, 0x03, 0x21, 0x00, 0x00, 0x01, 0x02, 0x03,
   0x04, 0x05, 0x06, 0x07, 0x08, 0x09, 0x0a, 0x0b, 0x0c, 0x0d, 0x0e, 0x0f, 0x10, 0x11, 0x12, 0x13,
   0x14, 0x15, 0x16, 0x17, 0x18, 0x19, 0x1a, 0x1b, 0x1c, 0x1d, 0x1e, 0x1f]⟩

/-- Its SHA-256. -/
def edKeyDigest : Bytes :=
  [0x94, 0x08, 0x45, 0x7a, 0xef, 0xd0, 0x71, 0xce, 0xc1, 0x27, 0xc1, 0xf9, 0x85, 0x39, 0x93, 0x08,
   0x61, 0xad, 0x1b, 0xa9, 0x4c, 0x94, 0x0d, 0xb9, 0x75, 0xc9, 0x72, 0xc0, 0x9f, 0xc6, 0x8b, 0x68]

theorem regionalIssuer_not_blank : (JString.lit "https://issuer").isBlank = false := by
  decide

theorem regionalSubject_not_blank : (JString.lit "client").isBlank = false := by
  decide

/-- A caller with two audiences, of which the second is for the regional host. -/
def regionalCaller : CallerIdentity where
  issuer := .lit "https://issuer"
  subject := .lit "client"
  audiences := [.lit "https://other", .lit "https://eu.tca.prod.example/v1/certificates:issue" ++
    .lit "?pubkey_sha256=9408457aefd071cec127c1f98539930861ad1ba94c940db975c972c09fc68b68"]
  issuer_not_blank := regionalIssuer_not_blank
  subject_not_blank := regionalSubject_not_blank

theorem validate_exact_regional :
    validate (.lit "tca.example") ⟨.lit "eu", .lit "prod", .lit "example"⟩
      (fun bytes => if bytes = edKey.getEncoded then edKeyDigest else List.replicate 32 0)
      edKey regionalCaller = .ok () := by
  refine (validate_exact (fun bytes => ?_) ?_ ?_ ?_ ?_ edKey regionalCaller).1.mpr ?_
  · split <;> rfl
  · decide
  · decide
  · decide
  · decide
  · exact ⟨.lit "eu.tca.prod.example", by decide, by decide +kernel⟩

end OidcAudienceBindingValidator
end Issuance
end TrustedCa
