import TrustedCa.Issuance.Soundness
import TrustedCa.Oidc.KeyFetcher

/-!
# Verification of Google attestation tokens (`GcpAttestationVerifier`)

An attestation token is a signed JWT. Its nonces are pieces of the Base64 text of a public key. The
key that it is signed with is looked up by the fetcher of key sets, which all calls of the verifier
share.

* `Library`: the JWT parser, the Base64 decoder and the key factory. The parser reads the id of the
  key in the header, asks the resolver for the key, and then checks the signature and the dates. The
  texts of its exceptions are left out, as the verifier catches them.
* `verifyToken_chunks`: the nonces may cut the text of the key anywhere.
* `Call` and `run`: one call of the verifier after the other, each with the readings of the clock and
  the exchanges with the server that the fetcher makes for it.
* `Published` is the invariant of the cache: its key set was fetched in this run.
* `accepted_published`: a token is accepted only with a key of a published key set that was alive.
-/

namespace TrustedCa
namespace Attestation
namespace Gcp

open Issuance (Bytes Thrown PublicKey IllegalArgumentException AttestationEvidence ReferenceValues)
open Oidc (Readings State Load Entry JwksData getKey fetchJwks)
open Spec

/-! ## Claims -/

/-- A value of a claim. `other` is a number or a truth value, by its text. -/
inductive Json where
  | null
  | string (text : JString)
  | list (values : List Json)
  | map (entries : List (JString × Json))
  | other (text : JString)

/-- `Map.get`, which is `null` for a key that is missing. -/
def lookup (entries : List (JString × Json)) (key : JString) : Json :=
  (entries.lookup key).getD .null

/-- `Claims`, with the issuer and all claims as a map. -/
structure Claims where
  getIssuer : Option JString
  entries : List (JString × Json)

/-- `claims.get(name, List.class)`. -/
def Claims.getList (claims : Claims) (name : JString) : Except Thrown (Option (List Json)) :=
  match lookup claims.entries name with
  | .null => .ok none
  | .list values => .ok (some values)
  | _ => .error ⟨.jwtException, []⟩

/-- A piece of `String.join`, which is cast to a text. -/
def piece : Json → Except Thrown JString
  | .string text => .ok text
  | .null => .ok (.lit "null")
  | _ => .error ⟨.runtimeException, .lit "ClassCastException"⟩

/-- `String.join("", values)`. -/
def join (values : List Json) : Except Thrown JString := do
  let pieces ← values.mapM piece
  return pieces.flatten

/-- A value that has to be a map. -/
def asMap (message : JString) : Json → Except Thrown (List (JString × Json))
  | .map entries => .ok entries
  | _ => .error (IllegalArgumentException message)

def getRequiredString (map : List (JString × Json)) (key : JString) : Except Thrown JString :=
  match lookup map key with
  | .string text => .ok text
  | _ => .error (IllegalArgumentException
      (.lit "Invalid attestation token: missing or invalid '" ++ key ++ .lit "' in 'gce' map."))

/-! ## The verifier -/

/-- What the code uses of its libraries. -/
structure Library (Key : Type) where
  toStringUtf8 : Bytes → JString
  /-- The id of the key in the header of a signed token. -/
  getKeyId : JString → Except Thrown (Option JString)
  /-- The claims of a token that is signed with the key and in its period. -/
  parseSigned : JString → Key → Except Thrown Claims
  /-- `Base64.getDecoder().decode`. -/
  base64Decode : JString → Except Thrown Bytes
  keys : Issuance.CertificateLibrary
  jwks : Oidc.Lib Key

section Verifier

variable {Key : Type} (lib : Library Key)

/-- `GcpSigningKeyResolver.resolveSigningKey`. -/
def resolveSigningKey (r : Readings) (keyId : Option JString) (s : State Key) :
    Except Thrown Key × State Key :=
  match keyId with
  | none => (.error (IllegalArgumentException (.lit "Missing 'kid' in JWT header")), s)
  | some keyId =>
    match getKey lib.jwks r keyId s with
    | (.ok (some key), s) => (.ok key, s)
    | (.ok none, s) =>
      (.error (IllegalArgumentException (.lit "Key not found for kid: " ++ keyId)), s)
    | (.error e, s) => (.error e, s)

def parseClaimsJws (r : Readings) (token : JString) (s : State Key) :
    Except Thrown Claims × State Key :=
  match lib.getKeyId token with
  | .error e => (.error e, s)
  | .ok keyId =>
    match resolveSigningKey lib r keyId s with
    | (.ok key, s) => (lib.parseSigned token key, s)
    | (.error e, s) => (.error e, s)

def decodeBase64PublicKey (base64PublicKey : JString) : Except Thrown PublicKey := do
  let keyBytes ← lib.base64Decode base64PublicKey
  Issuance.PublicKeyDecoder.decodeRawPublicKey lib.keys keyBytes

/-- `GCP_ISSUER`. -/
def gcpIssuer : JString := .lit "https://confidentialcomputing.googleapis.com"

/-- The maps about the instance and the container. The texts are only required. -/
def verifySubmods (claims : Claims) : Except Thrown Unit := do
  let submods ← asMap (.lit "Invalid attestation token: missing submods.")
    (lookup claims.entries (.lit "submods"))
  let gce ← asMap (.lit "Invalid attestation token: missing or invalid 'gce' map.")
    (lookup submods (.lit "gce"))
  let _projectId ← getRequiredString gce (.lit "project_id")
  let _instanceId ← getRequiredString gce (.lit "instance_id")
  let _instanceName ← getRequiredString gce (.lit "instance_name")
  let _zone ← getRequiredString gce (.lit "zone")
  let container ← asMap (.lit "Invalid attestation token: missing or invalid 'container' map.")
    (lookup submods (.lit "container"))
  let _imageDigest ← getRequiredString container (.lit "image_digest")
  return ()

def verifyClaims (claims : Claims) (claimedPublicKey : PublicKey) : Except Thrown Bool := do
  if claims.getIssuer ≠ some gcpIssuer then
    return false
  else
    match ← claims.getList (.lit "eat_nonce") with
    | none | some [] => return false
    | some nonces =>
      let combinedBase64Key ← join nonces
      let publicKey ← decodeBase64PublicKey lib combinedBase64Key
      if publicKey ≠ claimedPublicKey then
        return false
      else
        verifySubmods claims
        return true

/-- `verify` with a text. Every exception is a refusal. -/
def verifyToken (r : Readings) (token : JString) (claimedPublicKey : PublicKey) (s : State Key) :
    Bool × State Key :=
  match parseClaimsJws lib r token s with
  | (.error _, s) => (false, s)
  | (.ok claims, s) =>
    match verifyClaims lib claims claimedPublicKey with
    | .ok verified => (verified, s)
    | .error _ => (false, s)

/-- `verify`. The reference values are not used. -/
def verify (r : Readings) (evidence : AttestationEvidence) (claimedPublicKey : PublicKey)
    (_unused : ReferenceValues) (s : State Key) : Except Thrown Bool × State Key :=
  match evidence with
  | .gcp attestationToken =>
    let verified := verifyToken lib r (lib.toStringUtf8 attestationToken) claimedPublicKey s
    (.ok verified.1, verified.2)
  | .aws _ | .oak .. => (.error ⟨.runtimeException, .lit "ClassCastException"⟩, s)

/-! ## What is accepted -/

/-- The key that the nonces are the text of. -/
def Names (claims : Claims) (key : PublicKey) : Prop :=
  ∃ nonces combinedBase64Key, nonces ≠ [] ∧ claims.getList (.lit "eat_nonce") = .ok (some nonces) ∧
    join nonces = .ok combinedBase64Key ∧ decodeBase64PublicKey lib combinedBase64Key = .ok key

variable {lib}

/-- The nonces are the text of one key. -/
theorem Names.unique {claims : Claims} {key key' : PublicKey} (h : Names lib claims key)
    (h' : Names lib claims key') : key = key' := by
  obtain ⟨nonces, combined, -, hnonces, hjoin, hkey⟩ := h
  obtain ⟨nonces', combined', -, hnonces', hjoin', hkey'⟩ := h'
  obtain rfl : nonces = nonces' := Option.some.inj (Except.ok.inj (hnonces.symm.trans hnonces'))
  obtain rfl : combined = combined' := Except.ok.inj (hjoin.symm.trans hjoin')
  exact Except.ok.inj (hkey.symm.trans hkey')

/-- Texts are put together as they are. -/
theorem join_texts (texts : List JString) : join (texts.map .string) = .ok texts.flatten := by
  have hpieces : (texts.map Json.string).mapM piece = .ok (texts.map id) :=
    mapM_map_eq_ok fun _ _ => rfl
  rw [List.map_id] at hpieces
  exact bind_eq_ok.mpr ⟨texts, hpieces, rfl⟩

/-- However the text of a key is cut into nonces, they name the key. -/
theorem names_of_chunks {claims : Claims} {chunks : List JString} {text : JString} {key : PublicKey}
    (hchunks : chunks.flatten = text) (hne : chunks ≠ [])
    (hclaim : lookup claims.entries (.lit "eat_nonce") = .list (chunks.map .string))
    (hkey : decodeBase64PublicKey lib text = .ok key) : Names lib claims key := by
  refine ⟨chunks.map .string, text, by simpa using hne, ?_, ?_, hkey⟩
  · rw [Claims.getList, hclaim]
  · rw [join_texts, hchunks]

theorem verifyClaims_true_iff {claims : Claims} {key : PublicKey} :
    verifyClaims lib claims key = .ok true ↔
      claims.getIssuer = some gcpIssuer ∧ Names lib claims key ∧ verifySubmods claims = .ok () := by
  constructor
  · intro h
    unfold verifyClaims at h
    split at h
    · cases h
    · next hissuer =>
      obtain ⟨found, hfound, h⟩ := bind_eq_ok.mp h
      split at h
      · cases h
      · cases h
      · next nonces hne =>
        obtain ⟨combined, hjoin, h⟩ := bind_eq_ok.mp h
        obtain ⟨publicKey, hpublicKey, h⟩ := bind_eq_ok.mp h
        split at h
        · cases h
        · next hkey =>
          obtain ⟨⟨⟩, hsubmods, -⟩ := bind_eq_ok.mp h
          obtain rfl := not_not.mp hkey
          exact ⟨not_not.mp hissuer, ⟨nonces, combined, hne, hfound, hjoin, hpublicKey⟩, hsubmods⟩
  · rintro ⟨hissuer, ⟨nonces, combined, hne, hfound, hjoin, hkey⟩, hsubmods⟩
    unfold verifyClaims
    rw [if_neg (not_not.mpr hissuer)]
    refine bind_eq_ok.mpr ⟨some nonces, hfound, ?_⟩
    obtain ⟨nonce, rest, rfl⟩ := List.exists_cons_of_ne_nil hne
    refine bind_eq_ok.mpr ⟨combined, hjoin, bind_eq_ok.mpr ⟨key, hkey, ?_⟩⟩
    rw [if_neg (not_not.mpr rfl)]
    exact bind_eq_ok.mpr ⟨(), hsubmods, rfl⟩

theorem verifyToken_true_iff {r : Readings} {token : JString} {key : PublicKey} {s : State Key} :
    (verifyToken lib r token key s).1 = true ↔
      ∃ keyId signingKey claims, lib.getKeyId token = .ok (some keyId) ∧
        (getKey lib.jwks r keyId s).1 = .ok (some signingKey) ∧
        lib.parseSigned token signingKey = .ok claims ∧ verifyClaims lib claims key = .ok true := by
  unfold verifyToken parseClaimsJws
  cases hheader : lib.getKeyId token with
  | error e => simp
  | ok keyId =>
    cases keyId with
    | none => simp [resolveSigningKey]
    | some keyId =>
      simp only [resolveSigningKey]
      rcases hget : getKey lib.jwks r keyId s with ⟨_ | found, s'⟩
      · simp [hget]
      · cases found with
        | none => simp [hget]
        | some signingKey =>
          cases hclaims : lib.parseSigned token signingKey with
          | error e => simp [hget, hclaims]
          | ok claims =>
            cases hverified : verifyClaims lib claims key with
            | error e => simp [hget, hclaims, hverified]
            | ok verified => simp [hget, hclaims, hverified]

/-- However the text of a key is cut into nonces: where the token is signed with a key that the
fetcher gives and the other claims are there, it is accepted for this key and for no other. -/
theorem verifyToken_chunks {chunks : List JString} {text : JString} {key : PublicKey} {r : Readings}
    {token keyId : JString} {signingKey : Key} {claims : Claims} {s : State Key}
    (hheader : lib.getKeyId token = .ok (some keyId))
    (hget : (getKey lib.jwks r keyId s).1 = .ok (some signingKey))
    (hparse : lib.parseSigned token signingKey = .ok claims)
    (hissuer : claims.getIssuer = some gcpIssuer) (hsubmods : verifySubmods claims = .ok ())
    (hchunks : chunks.flatten = text) (hne : chunks ≠ [])
    (hclaim : lookup claims.entries (.lit "eat_nonce") = .list (chunks.map .string))
    (hkey : decodeBase64PublicKey lib text = .ok key) (key' : PublicKey) :
    (verifyToken lib r token key' s).1 = true ↔ key' = key := by
  have hnames := names_of_chunks hchunks hne hclaim hkey
  rw [verifyToken_true_iff]
  constructor
  · rintro ⟨keyId', signingKey', claims', hheader', hget', hparse', hclaims⟩
    obtain rfl : keyId = keyId' := Option.some.inj (Except.ok.inj (hheader.symm.trans hheader'))
    obtain rfl : signingKey = signingKey' :=
      Option.some.inj (Except.ok.inj (hget.symm.trans hget'))
    obtain rfl : claims = claims' := Except.ok.inj (hparse.symm.trans hparse')
    exact (verifyClaims_true_iff.mp hclaims).2.1.unique hnames
  · rintro rfl
    exact ⟨keyId, signingKey, claims, hheader, hget, hparse,
      verifyClaims_true_iff.mpr ⟨hissuer, hnames, hsubmods⟩⟩

end Verifier

/-! ## Runs -/

section Runs

variable {Key : Type} (lib : Library Key)

/-- A call of the verifier. -/
structure Call where
  readings : Readings
  token : JString
  claimedPublicKey : PublicKey

/-- What the cache may load in a call. -/
def Call.loads (call : Call) : List Load := [call.readings.first, call.readings.second]

/-- The state of the fetcher after the calls, of which the first finds an empty cache. -/
def run (calls : List Call) : State Key :=
  calls.foldl (fun s call =>
    (verifyToken lib call.readings call.token call.claimedPublicKey s).2) ⟨none, 0⟩

/-- The key set in the cache was fetched in one of the loads. -/
def Published (loads : List Load) (s : State Key) : Prop :=
  ∀ e, s.cache = some e → ∃ l ∈ loads,
    fetchJwks lib.jwks l.response l.fetchedAt = .ok e.data ∧ e.created = l.created

/-- A key of a key set that was fetched for a call, or in an earlier load and is within its
`max-age`. -/
def Serves (loads : List Load) (r : Readings) (keyId : JString) (key : Key) : Prop :=
  ∃ l data, fetchJwks lib.jwks l.response l.fetchedAt = .ok data ∧ data.keys keyId = some key ∧
    (l = r.first ∨ l = r.second ∨
      l ∈ loads ∧ r.first.read < l.created + data.maxAgeSecs * 1000)

variable {lib} {loads loads' : List Load} {s s₁ : State Key}

theorem Published.mono (h : Published lib loads s) (hsub : loads ⊆ loads') :
    Published lib loads' s := by
  intro e he
  obtain ⟨l, hl, hfetched⟩ := h e he
  exact ⟨l, hsub hl, hfetched⟩

theorem not_expired {e : Entry Key} {millis : Int} (h : e.expired millis = false) :
    millis < e.created + e.data.maxAgeSecs * 1000 := by
  have hlt := of_decide_eq_false h
  have hmin := min_le_left (e.data.maxAgeSecs * 1000000000) Oidc.maximumExpiry
  unfold JwksData.expireAfterCreate at hlt
  omega

/-- A `cache.get` keeps the invariant. -/
theorem get_published (h : Published lib loads s) (l : Load) :
    Published lib (l :: loads) (Oidc.get lib.jwks l s).2 := by
  rcases Oidc.get_cases lib.jwks l s with ⟨e, -, -, hget⟩ | ⟨data, hfetch, hget⟩ | ⟨err, hget⟩
  · rw [hget]
    exact h.mono (List.subset_cons_self l loads)
  · rw [hget]
    intro e he
    cases he
    exact ⟨l, List.mem_cons_self, hfetch, rfl⟩
  · rw [hget]
    exact h.mono (List.subset_cons_self l loads)

/-- What a `cache.get` returns was fetched for it, or before and is alive. -/
theorem get_served (h : Published lib loads s) {l : Load} {data : JwksData Key}
    (hget : Oidc.get lib.jwks l s = (.ok data, s₁)) :
    ∃ l', fetchJwks lib.jwks l'.response l'.fetchedAt = .ok data ∧
      (l' = l ∨ l' ∈ loads ∧ l.read < l'.created + data.maxAgeSecs * 1000) := by
  rcases Oidc.get_cases lib.jwks l s with
    ⟨e, hcache, halive, hget'⟩ | ⟨data', hfetch, hget'⟩ | ⟨err, hget'⟩
  · rw [hget'] at hget
    cases hget
    obtain ⟨l', hl', hfetched, hcreated⟩ := h e hcache
    exact ⟨l', hfetched, .inr ⟨hl', hcreated ▸ not_expired halive⟩⟩
  · rw [hget'] at hget
    cases hget
    exact ⟨l, hfetch, .inl rfl⟩
  · rw [hget'] at hget
    cases hget

/-- After the cache was invalidated, what is returned was fetched. -/
theorem published_invalidate (lib : Library Key) (s : State Key) :
    Published lib [] (Oidc.invalidate s) := by
  intro e he
  cases he

/-- The cache is as the first `cache.get` leaves it, or as the refresh does. -/
theorem getKey_state (lib : Library Key) (r : Readings) (keyId : JString) (s : State Key) :
    (getKey lib.jwks r keyId s).2 = (Oidc.get lib.jwks r.first s).2 ∨
      ∃ s₁, (getKey lib.jwks r keyId s).2 =
        (Oidc.get lib.jwks r.second (Oidc.invalidate s₁)).2 := by
  rcases Oidc.getKey_cases lib.jwks r keyId s with
    ⟨err, s₁, hget, hkey⟩ | ⟨data, s₁, hget, hkey | ⟨err, s₂, hget', hkey⟩ | ⟨data', s₂, hget', hkey⟩⟩
  · exact .inl (by rw [hkey, hget])
  · exact .inl (by rw [hkey, hget])
  · exact .inr ⟨s₁, by rw [hkey, hget']⟩
  · exact .inr ⟨s₁, by rw [hkey, hget']⟩

theorem getKey_published (h : Published lib loads s) (r : Readings) (keyId : JString) :
    Published lib (loads ++ [r.first, r.second]) (getKey lib.jwks r keyId s).2 := by
  rcases getKey_state lib r keyId s with hstate | ⟨s₁, hstate⟩
  · rw [hstate]
    refine (get_published h r.first).mono fun l hl => ?_
    rcases List.mem_cons.mp hl with rfl | hl
    · simp
    · simp [hl]
  · rw [hstate]
    refine (get_published (published_invalidate lib s₁) r.second).mono fun l hl => ?_
    obtain rfl := List.mem_singleton.mp hl
    simp

theorem getKey_served (h : Published lib loads s) {r : Readings} {keyId : JString} {key : Key}
    (hkey : (getKey lib.jwks r keyId s).1 = .ok (some key)) : Serves lib loads r keyId key := by
  rcases Oidc.getKey_cases lib.jwks r keyId s with
    ⟨err, s₁, hget, heq⟩ | ⟨data, s₁, hget, heq | ⟨err, s₂, hget', heq⟩ | ⟨data', s₂, hget', heq⟩⟩
  · rw [heq] at hkey
    cases hkey
  · rw [heq] at hkey
    obtain ⟨l, hfetch, hl⟩ := get_served h hget
    refine ⟨l, data, hfetch, Except.ok.inj hkey, ?_⟩
    exact hl.imp_right .inr
  · rw [heq] at hkey
    cases hkey
  · rw [heq] at hkey
    obtain ⟨l, hfetch, rfl | ⟨hl, -⟩⟩ := get_served (published_invalidate lib s₁) hget'
    · exact ⟨_, data', hfetch, Except.ok.inj hkey, .inr (.inl rfl)⟩
    · cases hl

/-- A call of the verifier leaves the fetcher alone or calls it once. -/
theorem verifyToken_state (lib : Library Key) (r : Readings) (token : JString) (key : PublicKey)
    (s : State Key) : (verifyToken lib r token key s).2 = s ∨
      ∃ keyId, (verifyToken lib r token key s).2 = (getKey lib.jwks r keyId s).2 := by
  have hstate : (verifyToken lib r token key s).2 = (parseClaimsJws lib r token s).2 := by
    unfold verifyToken
    split
    · next heq => rw [heq]
    · next heq =>
      rw [heq]
      split <;> rfl
  rw [hstate]
  unfold parseClaimsJws
  split
  · exact .inl rfl
  · next keyId _ =>
    cases keyId with
    | none => exact .inl rfl
    | some keyId =>
      refine .inr ⟨keyId, ?_⟩
      rcases hget : getKey lib.jwks r keyId s with ⟨_ | _ | _, s'⟩
      · simp [resolveSigningKey, hget]
      · simp [resolveSigningKey, hget]
      · simp [resolveSigningKey, hget]

theorem verifyToken_published (h : Published lib loads s) (call : Call) :
    Published lib (loads ++ call.loads)
      (verifyToken lib call.readings call.token call.claimedPublicKey s).2 := by
  rcases verifyToken_state lib call.readings call.token call.claimedPublicKey s with
    heq | ⟨keyId, heq⟩
  · rw [heq]
    exact h.mono (List.subset_append_left loads call.loads)
  · rw [heq]
    exact getKey_published h call.readings keyId

/-- In every run, the key set in the cache was fetched by one of its calls. -/
theorem run_published (lib : Library Key) (calls : List Call) :
    Published lib (calls.flatMap Call.loads) (run lib calls) := by
  have hruns : ∀ (loads : List Load) (s : State Key), Published lib loads s →
      Published lib (loads ++ calls.flatMap Call.loads) (calls.foldl (fun s call =>
        (verifyToken lib call.readings call.token call.claimedPublicKey s).2) s) := by
    induction calls with
    | nil =>
      intro loads s h
      exact h.mono (List.subset_append_left loads _)
    | cons call calls ih =>
      intro loads s h
      rw [List.flatMap_cons, ← List.append_assoc]
      exact ih _ _ (verifyToken_published h call)
  exact hruns [] ⟨none, 0⟩ fun e he => by cases he

/-- **A token is accepted with a published key.** In every run of the verifier: the key that an
accepted token is signed with was in a key set that the server gave for this call, or for an earlier
one and whose `max-age` has not passed; the claims are Google's, and their nonces are the text of the
claimed key and of no other. -/
theorem accepted_published (lib : Library Key) (calls : List Call) (call : Call)
    (h : (verifyToken lib call.readings call.token call.claimedPublicKey (run lib calls)).1 = true) :
    ∃ keyId signingKey claims, lib.getKeyId call.token = .ok (some keyId) ∧
      Serves lib (calls.flatMap Call.loads) call.readings keyId signingKey ∧
      lib.parseSigned call.token signingKey = .ok claims ∧ claims.getIssuer = some gcpIssuer ∧
      ∀ key, Names lib claims key ↔ key = call.claimedPublicKey := by
  obtain ⟨keyId, signingKey, claims, hheader, hkey, hparse, hclaims⟩ := verifyToken_true_iff.mp h
  obtain ⟨hissuer, hnames, -⟩ := verifyClaims_true_iff.mp hclaims
  refine ⟨keyId, signingKey, claims, hheader, getKey_served (run_published lib calls) hkey, hparse,
    hissuer, fun key => ⟨fun h' => h'.unique hnames, ?_⟩⟩
  rintro rfl
  exact hnames

end Runs

/-! ### Two calls of which the second finds the key in the cache -/

namespace Sample

/-- An RSA key in Base64, in two nonces. -/
def chunks : List JString :=
  [.lit "MFwwDQYJKoZIhvcNAQEBBQADSwAwSAJBALSYZtdKS3YR3IGlioITDsLHQZVitj/T",
    .lit "/jgwAuA+74SU9vmS18hMt2E9Kwyra+mBrGCpisbmMco3794RsAYQl0ECAwEAAQ=="]

def claims : Claims where
  getIssuer := some gcpIssuer
  entries := [
    (.lit "eat_nonce", .list (chunks.map .string)),
    (.lit "submods", .map [
      (.lit "gce", .map [
        (.lit "project_id", .string (.lit "project")),
        (.lit "instance_id", .string (.lit "1")),
        (.lit "instance_name", .string (.lit "vm")),
        (.lit "zone", .string (.lit "us-east1-b"))]),
      (.lit "container", .map [(.lit "image_digest", .string (.lit "sha256:00"))])])]

/-- A token whose header names the key `b`. The claims and the signature are abbreviated. -/
def token : JString := .lit "eyJhbGciOiJSUzI1NiIsImtpZCI6ImIifQ.e30.AA"

/-- The key of the id `b` in the key set of the server. -/
def signingKey : Nat × Nat := (Oidc.bigInteger Oidc.modulusBytes, 65537)

def lib : Library (Nat × Nat) where
  toStringUtf8 bytes := bytes.map fun byte => byte.toUInt16
  getKeyId text := if text = token then .ok (some (.lit "b")) else .error ⟨.jwtException, []⟩
  parseSigned text key :=
    if text = token ∧ key = signingKey then .ok claims else .error ⟨.jwtException, []⟩
  base64Decode text :=
    if text = chunks.flatten then .ok Issuance.Sample.keyInfo
    else .error (IllegalArgumentException (.lit "Illegal base64 character"))
  keys := Issuance.Sample.lib
  jwks := Oidc.mixedLib

/-- The server answers the first call. Half a minute later it is not asked. -/
def call (millis : Int) (response : Except Thrown Oidc.HttpResponse) : Call where
  readings :=
    { first := ⟨millis, response, millis, millis⟩
      check := millis
      second := ⟨millis, response, millis, millis⟩ }
  token := token
  claimedPublicKey := ⟨Issuance.Sample.keyInfo⟩

def firstCall : Call :=
  call 0 (.ok ⟨200, Oidc.document [], some (.lit "public, max-age = 60")⟩)

def secondCall : Call := call 30000 (.error ⟨.ioException, .lit "timeout"⟩)

end Sample

/-- The theorem for the second call: the key is that of the first call's key set. -/
theorem accepted_published_sample :
    (verifyToken Sample.lib Sample.secondCall.readings Sample.token ⟨Issuance.Sample.keyInfo⟩
        (run Sample.lib [Sample.firstCall])).1 = true ∧
      ∃ keyId signingKey claims, Sample.lib.getKeyId Sample.token = .ok (some keyId) ∧
        Serves Sample.lib Sample.firstCall.loads Sample.secondCall.readings keyId signingKey ∧
        Sample.lib.parseSigned Sample.token signingKey = .ok claims ∧
        claims.getIssuer = some gcpIssuer ∧
        ∀ key, Names Sample.lib claims key ↔ key = ⟨Issuance.Sample.keyInfo⟩ := by
  have haccepted : (verifyToken Sample.lib Sample.secondCall.readings Sample.token
      ⟨Issuance.Sample.keyInfo⟩ (run Sample.lib [Sample.firstCall])).1 = true := by
    decide +kernel
  exact ⟨haccepted, accepted_published Sample.lib [Sample.firstCall] Sample.secondCall haccepted⟩

end Gcp
end Attestation
end TrustedCa
