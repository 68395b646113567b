import TrustedCa.Issuance.Soundness
import TrustedCa.Spec.Framing

/-!
# The SPIFFE ID in a certificate (`SubjectAlternativeNameModifier`)

The URI joins four texts of the policy with slashes and fixed words, and its authority is the
operator's domain under the authority's own trust domain. The mapper of version 1 cuts the operator
at its first slash and refuses blank parts. The mapper of version 2 takes both parts as they are.

The certificate has the URI as an `IA5String`, which keeps the lower byte of every character. So a
character above U+00FF may become a separator, and different texts may become the same URI.

* `authority`: the text between `spiffe://` and the first `/`, `?` or `#`.
* `authority_contained_iff`: when the authority is the operator's domain in the trust domain.
* `slashes`: how many slashes the parts of the identity have in the URI. Where the numbers agree, the
  parts of two URIs can be compared one after the other. `upperBytes` is what the URI has lost
  (`san_identity_iff_slashes`).
-/

namespace TrustedCa
namespace Issuance

open Spec

/-- The parts of the operator in a policy of version 1. -/
theorem PolicyV1Mapper.toDomainPolicy_ok {format : PolicyFormat} {proto : Proto.V1.Policy}
    {policy : Policy} (h : PolicyV1Mapper.toDomainPolicy format proto = .ok policy) :
    JString.splitAtFirst (JString.char '/') proto.operator =
        some (policy.operatorDomain, policy.operatorRole) ∧
      policy.operatorDomain.isBlank = false := by
  unfold PolicyV1Mapper.toDomainPolicy at h
  split at h
  · dsimp only at h
    split at h
    · cases h
    · split at h
      · next domain role hsplit =>
        split at h
        · cases h
        · next hblank =>
          obtain ⟨_, -, h⟩ := bind_eq_ok.mp h
          obtain ⟨_, -, h⟩ := bind_eq_ok.mp h
          cases h
          rw [Bool.or_eq_true, not_or, Bool.not_eq_true] at hblank
          exact ⟨hsplit, hblank.1⟩
      · cases h
  · cases h

/-- A policy of version 2 has the domain of the operator as it is in the file. -/
theorem PolicyV2Mapper.toDomainPolicy_ok {format : PolicyFormat} {proto : Proto.V2.Policy}
    {policy : Policy} (h : PolicyV2Mapper.toDomainPolicy format proto = .ok policy) :
    policy.operatorDomain = proto.operatorDomain := by
  unfold PolicyV2Mapper.toDomainPolicy at h
  split at h
  · dsimp only at h
    split at h
    · cases h
    · obtain ⟨_, -, h⟩ := bind_eq_ok.mp h
      obtain ⟨_, -, h⟩ := bind_eq_ok.mp h
      cases h
      rfl
  · cases h

namespace SubjectAlternativeNameModifier

/-! ## The URI -/

/-- The extension that `apply` adds for a URI. -/
def sanExtension (uri : DERIA5String) : Extension :=
  ⟨true, .subjectAlternativeName (.uniformResourceIdentifier uri)⟩

theorem apply_ok {lib : CertificateLibrary} {policy : Policy} {trustDomain : JString}
    {builder builder' : X509v3CertificateBuilder}
    (h : apply lib policy trustDomain builder = .ok builder') :
    ∃ uri, san policy trustDomain = .ok uri ∧
      builder'.extensions = builder.extensions ++ [sanExtension (.ofString uri)] := by
  obtain ⟨uri, huri, h⟩ := bind_eq_ok.mp h
  rw [addWrapped, tryCatch_eq_ok (fun e b => by split <;> intro hb <;> cases hb)] at h
  obtain ⟨-, -, h⟩ := bind_eq_ok.mp h
  cases h
  exact ⟨uri, huri, rfl⟩

/-- The URI with its separators in front: the role and the domain are those of the publisher. -/
theorem san_ok {policy : Policy} {trustDomain uri : JString} (h : san policy trustDomain = .ok uri) :
    ∃ role domain, JString.splitAtFirst (JString.char '@') policy.publisherId = some (role, domain) ∧
      uri = JString.lit "spiffe://" ++ ((policy.operatorDomain ++ JString.lit "." ++ trustDomain) ++
        JString.char '/' :: (JString.lit "operator/" ++ (policy.operatorDomain ++
        JString.char '/' :: (policy.operatorRole ++
        JString.char '/' :: (JString.lit "publisher/" ++ (domain ++
        JString.char '/' :: (role ++
        JString.char '/' :: (JString.lit "workload/" ++ policy.workloadId)))))))) := by
  obtain ⟨publisher, hpublisher, h⟩ := bind_eq_ok.mp h
  cases h
  unfold toSpiffeIdPublisher at hpublisher
  split at hpublisher
  · cases hpublisher
  · next role domain hsplit =>
    cases hpublisher
    refine ⟨role, domain, hsplit, ?_⟩
    simp only [List.append_assoc]
    rfl

/-! ## Containment in the trust domain -/

/-- What stands between `spiffe://` and the first `/`, `?` or `#`. -/
def authority (uri : JString) : JString :=
  (uri.drop (JString.lit "spiffe://").length).takeWhile fun c =>
    c != JString.char '/' && c != JString.char '?' && c != JString.char '#'

/-- Every URI that was added has the operator's domain in the trust domain as its authority, which
is a proper subdomain. -/
def Contained (policy : Policy) (trustDomain : JString)
    (builder builder' : X509v3CertificateBuilder) : Prop :=
  ∀ uri, builder'.extensions = builder.extensions ++ [sanExtension uri] →
    authority uri.getString = policy.operatorDomain ++ .lit "." ++ trustDomain ∧
      policy.operatorDomain ≠ []

theorem isSafe_ascii {c : UInt16} (h : CallerIdentity.isSafe c = true) :
    c < 0x100 ∧ c ≠ JString.char '/' ∧ c ≠ JString.char '?' ∧ c ≠ JString.char '#' := by
  refine ⟨?_, ?_, ?_, ?_⟩
  · have hle : c ≤ JString.char 'z' := by
      simp only [CallerIdentity.isSafe, Bool.or_eq_true, Bool.and_eq_true, decide_eq_true_eq,
        beq_iff_eq] at h
      rcases h with (((⟨-, h⟩ | ⟨-, h⟩) | ⟨-, h⟩) | rfl) | rfl
      · exact h
      · exact UInt16.le_trans h (by decide)
      · exact UInt16.le_trans h (by decide)
      · decide
      · decide
    exact UInt16.lt_of_le_of_lt hle (by decide)
  · rintro rfl
    exact absurd h (by decide)
  · rintro rfl
    exact absurd h (by decide)
  · rintro rfl
    exact absurd h (by decide)

/-- A domain can stand in the authority: its characters are below U+0100 and none of them ends the
authority. -/
def Plain (domain : JString) : Prop :=
  JString.char '/' ∉ domain ∧ JString.char '?' ∉ domain ∧ JString.char '#' ∉ domain ∧
    ∀ c ∈ domain, c < 0x100

theorem plain_iff {domain : JString} : Plain domain ↔
    ∀ c ∈ domain, c < 0x100 ∧ c ≠ JString.char '/' ∧ c ≠ JString.char '?' ∧ c ≠ JString.char '#' := by
  constructor
  · rintro ⟨hslash, hquestion, hhash, hlower⟩ c hc
    refine ⟨hlower c hc, ?_, ?_, ?_⟩
    · rintro rfl
      exact hslash hc
    · rintro rfl
      exact hquestion hc
    · rintro rfl
      exact hhash hc
  · intro h
    exact ⟨fun hc => (h _ hc).2.1 rfl, fun hc => (h _ hc).2.2.1 rfl, fun hc => (h _ hc).2.2.2 rfl,
      fun c hc => (h c hc).1⟩

theorem getString_append (s t : JString) : (DERIA5String.ofString (s ++ t)).getString =
    (DERIA5String.ofString s).getString ++ (DERIA5String.ofString t).getString := by
  simp only [DERIA5String.getString, DERIA5String.ofString, List.map_append]

/-- The authority of the URI in the certificate, for a text `a` between `spiffe://` and a slash. -/
theorem authority_eq_iff (a s : JString) :
    authority (DERIA5String.ofString (JString.lit "spiffe://" ++
      (a ++ JString.char '/' :: s))).getString = a ↔ Plain a := by
  have hscheme : (DERIA5String.ofString (JString.lit "spiffe://")).getString =
      JString.lit "spiffe://" := by
    decide
  have hslash : (DERIA5String.ofString (JString.char '/' :: s)).getString =
      JString.char '/' :: (DERIA5String.ofString s).getString := rfl
  have hlen : a.length = (DERIA5String.ofString a).getString.length := by
    simp [DERIA5String.getString, DERIA5String.ofString]
  rw [getString_append, getString_append, hscheme, hslash, authority, List.drop_left,
    takeWhile_append_cons_eq_iff_of_length rfl _ hlen, plain_iff]
  simp only [Bool.and_eq_true, bne_iff_ne]
  constructor
  · rintro ⟨heq, hall⟩ c hc
    have hlower := DERIA5String.getString_ofString_eq_iff.mp heq.symm c hc
    rw [← heq] at hall
    exact ⟨hlower, (hall c hc).1.1, (hall c hc).1.2, (hall c hc).2⟩
  · intro hall
    have heq := DERIA5String.getString_ofString_eq_iff.mpr fun c hc => (hall c hc).1
    rw [heq]
    exact ⟨rfl, fun c hc => ⟨⟨(hall c hc).2.1, (hall c hc).2.2.1⟩, (hall c hc).2.2.2⟩⟩

theorem contained_iff {lib : CertificateLibrary} {policy : Policy} {trustDomain : JString}
    {builder builder' : X509v3CertificateBuilder}
    (hdomain : ∀ c ∈ trustDomain, CallerIdentity.isSafe c = true)
    (h : apply lib policy trustDomain builder = .ok builder') :
    Contained policy trustDomain builder builder' ↔
      policy.operatorDomain ≠ [] ∧ Plain policy.operatorDomain := by
  obtain ⟨uri, huri, hadd⟩ := apply_ok h
  obtain ⟨role, domain, -, huri⟩ := san_ok huri
  have hsafe : ∀ c ∈ JString.lit "." ++ trustDomain, CallerIdentity.isSafe c = true := by
    intro c hc
    rcases List.mem_append.mp hc with hc | hc
    · rw [List.mem_singleton.mp hc]
      decide
    · exact hdomain c hc
  have hauthority : authority (DERIA5String.ofString uri).getString =
      policy.operatorDomain ++ .lit "." ++ trustDomain ↔ Plain policy.operatorDomain := by
    rw [huri, authority_eq_iff, plain_iff, plain_iff, List.append_assoc, List.forall_mem_append]
    exact and_iff_left fun c hc => isSafe_ascii (hsafe c hc)
  constructor
  · intro hcontained
    obtain ⟨hauth, hne⟩ := hcontained _ hadd
    exact ⟨hne, hauthority.mp hauth⟩
  · rintro ⟨hne, hplain⟩ uri' hadd'
    rw [hadd] at hadd'
    cases List.append_cancel_left hadd'
    exact ⟨hauthority.mpr hplain, hne⟩

/-- The identity of a policy of version 1 is contained unless the operator's domain has a `?`, a `#`
or a character above U+00FF. For version 2 the domain must not be empty either, nor have a slash. -/
theorem authority_contained_iff (lib : CertificateLibrary) (format : PolicyFormat)
    (trustDomain : JString) (hdomain : ∀ c ∈ trustDomain, CallerIdentity.isSafe c = true)
    (builder builder' : X509v3CertificateBuilder) :
    (∀ proto policy, PolicyV1Mapper.toDomainPolicy format proto = .ok policy →
      apply lib policy trustDomain builder = .ok builder' →
      (Contained policy trustDomain builder builder' ↔
        JString.char '?' ∉ policy.operatorDomain ∧ JString.char '#' ∉ policy.operatorDomain ∧
          ∀ c ∈ policy.operatorDomain, c < 0x100)) ∧
    ∀ proto policy, PolicyV2Mapper.toDomainPolicy format proto = .ok policy →
      apply lib policy trustDomain builder = .ok builder' →
      (Contained policy trustDomain builder builder' ↔
        proto.operatorDomain ≠ [] ∧ JString.char '/' ∉ proto.operatorDomain ∧
          JString.char '?' ∉ proto.operatorDomain ∧ JString.char '#' ∉ proto.operatorDomain ∧
          ∀ c ∈ proto.operatorDomain, c < 0x100) := by
  refine ⟨fun proto policy hpolicy happly => ?_, fun proto policy hpolicy happly => ?_⟩
  · obtain ⟨hsplit, hblank⟩ := PolicyV1Mapper.toDomainPolicy_ok hpolicy
    have hslash := (JString.splitAtFirst_eq_some hsplit).2
    have hne : policy.operatorDomain ≠ [] := by
      intro hnil
      rw [hnil] at hblank
      cases hblank
    rw [contained_iff hdomain happly]
    exact ⟨fun h => h.2.2, fun h => ⟨hne, hslash, h⟩⟩
  · rw [← PolicyV2Mapper.toDomainPolicy_ok hpolicy]
    exact contained_iff hdomain happly

/-- A policy of version 2 with the operator's domain and the publisher. -/
def sampleProto (operatorDomain publisherId : JString) : Proto.V2.Policy where
  publisherId := publisherId
  workloadId := .lit "app"
  operatorDomain := operatorDomain
  operatorRole := .lit "main"
  referenceValues := [⟨some []⟩]
  certificateAttributes := some { maxCertificateValidity := { seconds := 3600 } }

def samplePolicy (operatorDomain publisherId : JString) : Policy where
  publisherId := publisherId
  workloadId := .lit "app"
  operatorDomain := operatorDomain
  operatorRole := .lit "main"
  referenceValuesList := [⟨.OAK, []⟩]
  certificateAttributes := ⟨⟨3600 * nanosPerSecond⟩, ⟨none, none⟩, ⟨[]⟩⟩

def sampleBuilder : X509v3CertificateBuilder where
  issuer := Sample.emptyName
  serial := 1
  notBefore := 0
  notAfter := 3600000
  subject := Sample.emptyName
  publicKey := ⟨[]⟩

/-- The builder with the URI added. -/
def sampleBuilderWith (uri : JString) : X509v3CertificateBuilder :=
  { sampleBuilder with extensions := [sanExtension (.ofString uri)] }

def sampleFormat : PolicyFormat where
  toStringUtf8 bytes := bytes.map UInt8.toUInt16
  mergeV1 _ := .error ⟨.parseException, []⟩
  mergeV2 _ := .error ⟨.parseException, []⟩
  toString _ := []

theorem sample_accepted (operatorDomain publisherId : JString) :
    PolicyV2Mapper.toDomainPolicy sampleFormat (sampleProto operatorDomain publisherId) =
      .ok (samplePolicy operatorDomain publisherId) := rfl

theorem sampleTrustDomain_safe :
    ∀ c ∈ JString.lit "tca.example", CallerIdentity.isSafe c = true :=
  List.all_eq_true.mp (by decide +kernel)

/-- The theorem for an operator's domain without special characters. -/
theorem authority_contained_iff_ops :
    Contained (samplePolicy (.lit "ops") (.lit "dev@acme")) (.lit "tca.example") sampleBuilder
      (sampleBuilderWith
        (.lit "spiffe://ops.tca.example/operator/ops/main/publisher/acme/dev/workload/app")) := by
  refine ((authority_contained_iff Sample.lib sampleFormat (.lit "tca.example")
    sampleTrustDomain_safe sampleBuilder _).2 _ _
    (sample_accepted (.lit "ops") (.lit "dev@acme")) ?_).mpr ?_
  · decide +kernel
  · have hchars : (JString.lit "ops").all (· < 0x100) = true := by decide
    exact ⟨by decide, by decide, by decide, by decide,
      fun c hc => of_decide_eq_true (List.all_eq_true.mp hchars c hc)⟩

/-- A slash in the operator's domain moves the identity out of the trust domain: the authority is
`evil.example`. -/
theorem authority_escapes_trust_domain :
    ¬ ∀ (lib : CertificateLibrary) (format : PolicyFormat) (trustDomain : JString)
      (builder builder' : X509v3CertificateBuilder) (policy : Policy),
      (∀ c ∈ trustDomain, CallerIdentity.isSafe c = true) →
      ((∃ proto, PolicyV1Mapper.toDomainPolicy format proto = .ok policy) ∨
        ∃ proto, PolicyV2Mapper.toDomainPolicy format proto = .ok policy) →
      apply lib policy trustDomain builder = .ok builder' →
      Contained policy trustDomain builder builder' := by
  intro hclaim
  have hcontained := hclaim Sample.lib sampleFormat (.lit "tca.example") sampleBuilder
    (sampleBuilderWith (.lit "spiffe://evil.example/x.tca.example" ++
      .lit "/operator/evil.example/x/main/publisher/acme/dev/workload/app"))
    (samplePolicy (.lit "evil.example/x") (.lit "dev@acme")) sampleTrustDomain_safe
    (.inr ⟨_, sample_accepted _ _⟩) (by decide +kernel) _ rfl
  exact absurd hcontained.1 (by decide +kernel)

/-! ## Identities with the same URI -/

/-- How many slashes a text has in an `IA5String`. -/
def slashCount (s : JString) : Nat :=
  (DERIA5String.ofString s).contents.count (JString.char '/').toUInt8

/-- How many slashes the domain and the role of the operator have in the URI, and the domain and the
role of the publisher. -/
def slashes (policy : Policy) : Nat × Nat × Nat × Nat :=
  let publisher := (JString.splitAtFirst (JString.char '@') policy.publisherId).getD ([], [])
  (slashCount policy.operatorDomain, slashCount policy.operatorRole, slashCount publisher.2,
    slashCount publisher.1)

/-- The upper bytes of the characters of the four parts. -/
def upperBytes (policy : Policy) : List Nat × List Nat × List Nat × List Nat :=
  let upper (s : JString) := s.map fun c => c.toNat / 256
  (upper policy.operatorDomain, upper policy.operatorRole, upper policy.publisherId,
    upper policy.workloadId)

/-- Two policies are for the same identity. -/
def SameIdentity (p q : Policy) : Prop :=
  p.operatorDomain = q.operatorDomain ∧ p.operatorRole = q.operatorRole ∧
    p.publisherId = q.publisherId ∧ p.workloadId = q.workloadId

/-- A text is determined by its `IA5String` and the upper bytes. -/
theorem eq_of_bytes {s t : JString} (hlower : DERIA5String.ofString s = DERIA5String.ofString t)
    (hupper : (s.map fun c => c.toNat / 256) = t.map fun c => c.toNat / 256) : s = t := by
  have hlower' : s.map UInt16.toUInt8 = t.map UInt16.toUInt8 := congrArg DERIA5String.contents hlower
  induction s generalizing t with
  | nil =>
    cases t with
    | nil => rfl
    | cons d t => cases hlower'
  | cons c s ih =>
    cases t with
    | nil => cases hlower'
    | cons d t =>
      obtain ⟨hl, hlower'⟩ := List.cons.inj hlower'
      obtain ⟨hu, hupper⟩ := List.cons.inj hupper
      have hl' := congrArg UInt8.toNat hl
      rw [UInt16.toNat_toUInt8, UInt16.toNat_toUInt8] at hl'
      dsimp only at hu
      have hcd : c = d := UInt16.toNat_inj.mp (by omega)
      rw [hcd, ih (congrArg DERIA5String.mk hlower') hupper hlower']

/-- The bytes of a URI, with its separators in front. -/
theorem contents_append_cons (s t : JString) (c : UInt16) :
    (DERIA5String.ofString (s ++ c :: t)).contents =
      (DERIA5String.ofString s).contents ++ c.toUInt8 :: (DERIA5String.ofString t).contents := by
  simp only [DERIA5String.ofString, List.map_append, List.map_cons]

/-- The first part of a URI and the rest, where the number of slashes is known. -/
theorem ofString_inj_of_slashCount {a b s t : JString} (hcount : slashCount a = slashCount b)
    (h : DERIA5String.ofString (a ++ JString.char '/' :: s) =
      DERIA5String.ofString (b ++ JString.char '/' :: t)) :
    DERIA5String.ofString a = DERIA5String.ofString b ∧
      DERIA5String.ofString s = DERIA5String.ofString t := by
  have hcontents := congrArg DERIA5String.contents h
  rw [contents_append_cons, contents_append_cons] at hcontents
  obtain ⟨ha, hs⟩ := append_cons_inj_of_count hcount hcontents
  exact ⟨congrArg DERIA5String.mk ha, congrArg DERIA5String.mk hs⟩

theorem ofString_append_cancel_left {a s t : JString}
    (h : DERIA5String.ofString (a ++ s) = DERIA5String.ofString (a ++ t)) :
    DERIA5String.ofString s = DERIA5String.ofString t := by
  have hcontents := congrArg DERIA5String.contents h
  simp only [DERIA5String.ofString, List.map_append] at hcontents
  exact congrArg DERIA5String.mk (List.append_cancel_left hcontents)

theorem sameIdentity_of_san {p q : Policy} {trustDomain uri uri' : JString}
    (hp : san p trustDomain = .ok uri) (hq : san q trustDomain = .ok uri')
    (huri : DERIA5String.ofString uri = DERIA5String.ofString uri')
    (hslashes : slashes p = slashes q) (hupper : upperBytes p = upperBytes q) :
    SameIdentity p q := by
  obtain ⟨role, domain, hsplit, rfl⟩ := san_ok hp
  obtain ⟨role', domain', hsplit', rfl⟩ := san_ok hq
  simp only [slashes, hsplit, hsplit', Option.getD_some, Prod.mk.injEq] at hslashes
  simp only [upperBytes, Prod.mk.injEq] at hupper
  obtain ⟨hoperator, hrole, hdomain, hpublisher⟩ := hslashes
  obtain ⟨hu₁, hu₂, hu₃, hu₄⟩ := hupper
  -- Each part has as many slashes as its counterpart, so that the next slash ends both.
  have htrust : slashCount (p.operatorDomain ++ .lit "." ++ trustDomain) =
      slashCount (q.operatorDomain ++ .lit "." ++ trustDomain) := by
    simp only [slashCount, DERIA5String.ofString, List.map_append, List.count_append] at hoperator ⊢
    rw [hoperator]
  obtain ⟨-, huri⟩ := ofString_inj_of_slashCount htrust (ofString_append_cancel_left huri)
  obtain ⟨h₁, huri⟩ := ofString_inj_of_slashCount hoperator (ofString_append_cancel_left huri)
  obtain ⟨h₂, huri⟩ := ofString_inj_of_slashCount hrole huri
  obtain ⟨h₃, huri⟩ := ofString_inj_of_slashCount hdomain (ofString_append_cancel_left huri)
  obtain ⟨h₄, huri⟩ := ofString_inj_of_slashCount hpublisher huri
  refine ⟨eq_of_bytes h₁ hu₁, eq_of_bytes h₂ hu₂, eq_of_bytes ?_ hu₃,
    eq_of_bytes (ofString_append_cancel_left huri) hu₄⟩
  have hcontents : (DERIA5String.ofString p.publisherId).contents =
      (DERIA5String.ofString q.publisherId).contents := by
    rw [(JString.splitAtFirst_eq_some hsplit).1, (JString.splitAtFirst_eq_some hsplit').1,
      contents_append_cons, contents_append_cons, h₃, h₄]
  exact congrArg DERIA5String.mk hcontents

/-- Where two policies are given the same URI, they are for the same identity if and only if their
parts have the same numbers of slashes in it and the same upper bytes. -/
theorem san_identity_iff_slashes (lib : CertificateLibrary) (trustDomain : JString)
    (uri : DERIA5String) (p q : Policy) (builder builder' : X509v3CertificateBuilder)
    (hp : apply lib p trustDomain builder =
      .ok { builder with extensions := builder.extensions ++ [sanExtension uri] })
    (hq : apply lib q trustDomain builder' =
      .ok { builder' with extensions := builder'.extensions ++ [sanExtension uri] }) :
    SameIdentity p q ↔ slashes p = slashes q ∧ upperBytes p = upperBytes q := by
  have huri : ∀ {p builder}, apply lib p trustDomain builder =
      .ok { builder with extensions := builder.extensions ++ [sanExtension uri] } →
      ∃ text, san p trustDomain = .ok text ∧ DERIA5String.ofString text = uri := by
    intro p builder h
    obtain ⟨text, htext, hadd⟩ := apply_ok h
    cases List.append_cancel_left hadd
    exact ⟨text, htext, rfl⟩
  constructor
  · rintro ⟨h₁, h₂, h₃, h₄⟩
    rw [slashes, slashes, upperBytes, upperBytes, h₁, h₂, h₃, h₄]
    exact ⟨rfl, rfl⟩
  · rintro ⟨hslashes, hupper⟩
    obtain ⟨text, htext, heq⟩ := huri hp
    obtain ⟨text', htext', heq'⟩ := huri hq
    exact sameIdentity_of_san htext htext' (heq.trans heq'.symm) hslashes hupper

/-- The URI of two publishers, `b@c/a` and `a/b@c`. -/
def sharedUri : JString :=
  .lit "spiffe://ops.tca.example" ++ .lit "/operator/ops/main/publisher/c/a/b/workload/app"

theorem sharedUri_added (publisherId : JString)
    (h : publisherId = .lit "b@c/a" ∨ publisherId = .lit "a/b@c") :
    apply Sample.lib (samplePolicy (.lit "ops") publisherId) (.lit "tca.example") sampleBuilder =
      .ok (sampleBuilderWith sharedUri) := by
  rcases h with rfl | rfl
  · decide +kernel
  · decide +kernel

/-- The theorem for these two publishers, and for two policies of one identity that differ in the
attributes of their certificates. -/
theorem san_identity_iff_slashes_ops :
    ¬ SameIdentity (samplePolicy (.lit "ops") (.lit "b@c/a"))
        (samplePolicy (.lit "ops") (.lit "a/b@c")) ∧
      SameIdentity (samplePolicy (.lit "ops") (.lit "a/b@c"))
        { samplePolicy (.lit "ops") (.lit "a/b@c") with
          certificateAttributes := ⟨⟨60 * nanosPerSecond⟩, ⟨none, none⟩, ⟨[]⟩⟩ } := by
  constructor
  · intro hsame
    have hslashes := ((san_identity_iff_slashes Sample.lib (.lit "tca.example") _ _ _ sampleBuilder
      sampleBuilder (sharedUri_added _ (.inl rfl)) (sharedUri_added _ (.inr rfl))).mp hsame).1
    exact absurd hslashes (by decide)
  · exact (san_identity_iff_slashes Sample.lib (.lit "tca.example") _ _ _ sampleBuilder sampleBuilder
      (sharedUri_added _ (.inr rfl)) (sharedUri_added _ (.inr rfl))).mpr ⟨rfl, rfl⟩

/-- The publishers `b@c/a` and `a/b@c` have the same SPIFFE ID. -/
theorem publishers_share_spiffe_id :
    ¬ ∀ (lib : CertificateLibrary) (format : PolicyFormat) (trustDomain : JString)
      (uri : DERIA5String) (p q : Policy) (builder builder' : X509v3CertificateBuilder),
      (∀ policy ∈ [p, q], (∃ proto, PolicyV1Mapper.toDomainPolicy format proto = .ok policy) ∨
        ∃ proto, PolicyV2Mapper.toDomainPolicy format proto = .ok policy) →
      apply lib p trustDomain builder =
        .ok { builder with extensions := builder.extensions ++ [sanExtension uri] } →
      apply lib q trustDomain builder' =
        .ok { builder' with extensions := builder'.extensions ++ [sanExtension uri] } →
      SameIdentity p q := by
  intro hclaim
  have hsame := hclaim Sample.lib sampleFormat (.lit "tca.example") (.ofString sharedUri)
    (samplePolicy (.lit "ops") (.lit "b@c/a")) (samplePolicy (.lit "ops") (.lit "a/b@c"))
    sampleBuilder sampleBuilder
    (by
      intro policy hpolicy
      rcases List.mem_pair.mp hpolicy with rfl | rfl
      · exact .inr ⟨_, sample_accepted _ _⟩
      · exact .inr ⟨_, sample_accepted _ _⟩)
    (sharedUri_added _ (.inl rfl)) (sharedUri_added _ (.inr rfl))
  exact absurd hsame.2.2.1 (by decide)

end SubjectAlternativeNameModifier

end Issuance
end TrustedCa
