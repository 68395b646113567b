import TrustedCa.Mbs.Recovery
import TrustedCa.Spec.Coupling

/-!
# What the stored objects say about the keys

Two worlds with the same certificates, tokens and ciphertexts, and any private keys and data keys
behind them (`World.Alike`). `keys_unobservable`: whatever runs the provider has in the one, it has
in the other, through contents of the buckets, of the transparency log and of the metrics that are
the same but for the signatures. So the keys are seen through the ciphertexts, and in the log entry
of a root through the signature of its certificate, however runs fail or stop.

* `HashedRekordRequest.Alike`: two entries of the log are the same, or have the signatures of one
  certificate by its two keys. `Store.Alike` says the same of all that is stored.
* The programs of the two worlds run in step (`Spec.twp`). They read different keys, and their answers
  may be told apart at one place, the decryption of the private key. It comes after the attestation
  document was read, so both decryptions are of one generation.
-/

namespace TrustedCa
namespace Mbs

open Spec

variable {Cert Key : Type} {w w' : World Cert Key} {α β γ δ : Type}

/-- The two worlds differ in keys, and in what is signed with them. The KMS decrypts the same
ciphertexts, to data keys of the same sizes, and the encrypted private keys are the same. -/
structure World.Alike (w w' : World Cert Key) : Prop where
  cert : w.cert = w'.cert
  token : w.token = w'.token
  ciphertext : w.ciphertext = w'.ciphertext
  convertToPem : w.convertToPem = w'.convertToPem
  generateCertificate : w.generateCertificate = w'.generateCertificate
  certDer : w.certDer = w'.certDer
  sha256 : w.sha256 = w'.sha256
  publicKeyPem : w.publicKeyPem = w'.publicKeyPem
  toJson : w.toJson = w'.toJson
  sealedKey : ∀ g, w.aeadEncrypt (w.plaintext g) g (w.getEncoded (w.key g)) =
    w'.aeadEncrypt (w'.plaintext g) g (w'.getEncoded (w'.key g))
  size : ∀ g, (w.plaintext g).length = (w'.plaintext g).length
  kms : ∀ c, (w.kmsDecrypt c).isSome = (w'.kmsDecrypt c).isSome

theorem World.Alike.part (ha : w.Alike w') (g : Nat) {p : ObjectPath} (hp : p ≠ .tlogEntry) :
    w.part g p = w'.part g p := by
  cases p with
  | kmsEncryptedDataKey => rw [World.part, World.part, ha.ciphertext]
  | aesEncryptedPrivateKey => rw [World.part, World.part, ha.sealedKey]
  | cert => rw [World.part, World.part, ha.convertToPem, ha.cert]
  | attestationDoc => rw [World.part, World.part, ha.token]
  | tlogEntry => exact absurd rfl hp

theorem World.Alike.artifactDigest (ha : w.Alike w') (c : Cert) :
    RekorClientImpl.artifactDigest w c = RekorClientImpl.artifactDigest w' c := by
  rw [RekorClientImpl.artifactDigest, RekorClientImpl.artifactDigest, ha.sha256, ha.certDer]

/-! ## What may differ -/

/-- The same request, or the requests for the certificate of one generation, signed with its key in
the one world and in the other. -/
inductive HashedRekordRequest.Alike (w w' : World Cert Key) :
    HashedRekordRequest → HashedRekordRequest → Prop
  | refl (request : HashedRekordRequest) : Alike w w' request request
  | signed (g : Nat) : Alike w w' (RekorClientImpl.hashedRekordRequest w (w.cert g) (w.key g))
      (RekorClientImpl.hashedRekordRequest w' (w'.cert g) (w'.key g))

/-- The texts of two such entries. -/
def JsonAlike (w w' : World Cert Key) (json json' : Bytes) : Prop :=
  ∃ request request' logIndex, HashedRekordRequest.Alike w w' request request' ∧
    json = w.toJson ⟨request, logIndex⟩ ∧ json' = w'.toJson ⟨request', logIndex⟩

/-- Two tlog entries of one generation. -/
def Object.Alike (w w' : World Cert Key) (o o' : Object) : Prop :=
  o.origin = o'.origin ∧ JsonAlike w w' o.bytes o'.bytes

/-- The buckets, the log and the metrics are the same but for the signatures, which are in the log
and in the tlog entry. -/
structure Store.Alike (w w' : World Cert Key) (s s' : Store) : Prop where
  objects : ∀ p, p ≠ .tlogEntry → s.objects p = s'.objects p
  tlogEntry : Option.Rel (Object.Alike w w') (s.objects .tlogEntry) (s'.objects .tlogEntry)
  log : List.Forall₂ (HashedRekordRequest.Alike w w') s.log s'.log
  generations : s.generations = s'.generations
  events : s.events = s'.events

/-- Calls that are the same but for the signature. -/
inductive Op.Alike (w w' : World Cert Key) : Op Cert Key → Op Cert Key → Prop
  | refl (o : Op Cert Key) : Alike w w' o o
  | putEntry {request request' : HashedRekordRequest} (h : request.Alike w w' request') :
    Alike w w' (.putEntry request) (.putEntry request')
  | putTlogEntry {o o' : Object} (h : o.Alike w w' o') :
    Alike w w' (.putObject .tlogEntry o) (.putObject .tlogEntry o')

variable {s s' : Store}

theorem Store.Alike.put (h : s.Alike w w' s') {p : ObjectPath} (hp : p ≠ .tlogEntry) (o : Object) :
    (s.put p o).Alike w w' (s'.put p o) where
  objects q hq := by
    by_cases hqp : q = p
    · rw [hqp, put_same, put_same]
    · rw [put_other o hqp, put_other o hqp, h.objects q hq]
  tlogEntry := by
    rw [put_other o hp.symm, put_other o hp.symm]
    exact h.tlogEntry
  log := h.log
  generations := h.generations
  events := h.events

theorem Store.Alike.putTlogEntry (h : s.Alike w w' s') {o o' : Object} (ho : o.Alike w w' o') :
    (s.put .tlogEntry o).Alike w w' (s'.put .tlogEntry o') where
  objects q hq := by rw [put_other o hq, put_other o' hq, h.objects q hq]
  tlogEntry := by
    rw [put_same, put_same]
    exact .some ho
  log := h.log
  generations := h.generations
  events := h.events

theorem Store.Alike.record (h : s.Alike w w' s') {request request' : HashedRekordRequest}
    (hr : request.Alike w w' request') :
    Store.Alike w w' { s with log := s.log ++ [request] } { s' with log := s'.log ++ [request'] } where
  objects := h.objects
  tlogEntry := h.tlogEntry
  log := List.rel_append h.log (.cons hr .nil)
  generations := h.generations
  events := h.events

/-- Whether an object is there is seen in both worlds. -/
theorem Store.Alike.exists_object (h : s.Alike w w' s') (p : ObjectPath) :
    ((s.objects p).map fun _ => ()) = (s'.objects p).map fun _ => () := by
  by_cases hp : p = .tlogEntry
  · subst hp
    have htlog := h.tlogEntry
    generalize s.objects .tlogEntry = o at htlog
    generalize s'.objects .tlogEntry = o' at htlog
    cases htlog with
    | some => rfl
    | none => rfl
  · rw [h.objects p hp]

theorem rel_getElem? {R : α → β → Prop} {l : List α} {l' : List β} (h : List.Forall₂ R l l')
    (i : Nat) : Option.Rel R l[i]? l'[i]? := by
  induction h generalizing i with
  | nil => exact .none
  | cons hab _ ih =>
    cases i with
    | zero => exact .some hab
    | succ i => exact ih i

/-- The log is searched by digests, which are the same. -/
theorem Store.Alike.entryUUIDs (ha : w.Alike w') (h : s.Alike w w' s') (digest : Bytes) :
    s.entryUUIDs digest = s'.entryUUIDs digest := by
  have hdigest : ∀ request request', HashedRekordRequest.Alike w w' request request' →
      request.artifactDigest = request'.artifactDigest := by
    rintro _ _ (_ | g)
    · rfl
    · dsimp only [RekorClientImpl.hashedRekordRequest]
      rw [ha.artifactDigest, ha.cert]
  unfold Store.entryUUIDs
  rw [h.log.length_eq]
  congr 2
  funext i
  have hrel := rel_getElem? h.log i
  generalize s.log[i]? = entry, s'.log[i]? = entry' at hrel ⊢
  cases hrel with
  | none => rfl
  | some halike => rw [Option.any_some, Option.any_some, hdigest _ _ halike]

/-- The calls that are made and answered alike. -/
def Op.isPublic : Op Cert Key → Bool
  | .getObject p | .putObject p _ => p ≠ .tlogEntry
  | .kmsDecrypt _ | .generateDataKey _ | .generate | .putEntry _ | .getEntry _ => false
  | .headObject _ | .collectBoundToPubkey _ _ | .searchEntry _ | .recordEvent _ => true

/-- Two results: the same exception, or values that are related. -/
def Agree (w w' : World Cert Key) (P : α → β → Store → Prop) :
    Except Exn α → Except Exn β → Store → Store → Prop
  | .ok a, .ok b, s, s' => s.Alike w w' s' ∧ P a b s
  | .error e, .error e', s, s' => s.Alike w w' s' ∧ e = e'
  | .ok _, .error _, _, _ | .error _, .ok _, _, _ => False

theorem Agree.alike {P : α → β → Store → Prop} {r : Except Exn α} {r' : Except Exn β}
    (h : Agree w w' P r r' s s') : s.Alike w w' s' := by
  match r, r', h with
  | .ok _, .ok _, h => exact h.1
  | .error _, .error _, h => exact h.1

theorem agree_self {r : Except Exn α} (h : s.Alike w w' s') :
    Agree w w' (fun a b _ => a = b) r r s s' := by
  cases r with
  | ok a => exact ⟨h, rfl⟩
  | error e => exact ⟨h, rfl⟩

/-- The same attempt with other values, on other states. -/
theorem attempt_agree {f : Fault} {s₀ s₁ s₂ s₀' s₁' : Store} {a : α} {b : β} {e : Exn}
    {r : Except Exn α} (h : attempt f s₀ s₁ a e = (r, s₂)) (h₀ : s₀.Alike w w' s₀')
    (h₁ : s₁.Alike w w' s₁') {P : α → β → Store → Prop} (hP : P a b s₁) :
    ∃ r' s₂', attempt f s₀' s₁' b e = (r', s₂') ∧ Agree w w' P r r' s₂ s₂' := by
  rcases attempt_cases h with ⟨rfl, rfl, rfl⟩ | ⟨rfl, rfl, rfl⟩ | ⟨rfl, rfl, rfl⟩
  · exact ⟨.ok b, s₁', rfl, h₁, hP⟩
  · exact ⟨.error e, s₀', rfl, h₀, rfl⟩
  · exact ⟨.error e, s₁', rfl, h₁, rfl⟩

/-! ## The runs of the two worlds -/

/-- The runs of the provider in the two worlds. -/
def twin (w w' : World Cert Key) : Twin (Op Cert Key) Ret Store where
  step := device w (faults False)
  step' := device w' (faults False)
  alike := Op.Alike w w'
  same := Store.Alike w w'

theorem twp_seq {p : MbsProg Cert Key α} {p' : MbsProg Cert Key β} {f : α → MbsProg Cert Key γ}
    {f' : β → MbsProg Cert Key δ} {P : α → β → Store → Prop} {P' : γ → δ → Store → Prop}
    (hp : twp (twin w w') p p' (Agree w w' P) s s')
    (hf : ∀ a b t t', t.Alike w w' t' → P a b t →
      twp (twin w w') (f a) (f' b) (Agree w w' P') t t') :
    twp (twin w w') (p >>= f) (p' >>= f') (Agree w w' P') s s' := by
  refine twp_bind (twp_mono (fun r r' t t' h => ?_) hp)
  match r, r', h with
  | .ok a, .ok b, h => exact hf a b t t' h.1 h.2
  | .error e, .error e', h => exact twp_throw h

theorem twp_catch {p : MbsProg Cert Key α} {p' : MbsProg Cert Key β} {h : Exn → MbsProg Cert Key α}
    {h' : Exn → MbsProg Cert Key β} {P : α → β → Store → Prop}
    (hp : twp (twin w w') p p' (Agree w w' P) s s')
    (hh : ∀ e t t', t.Alike w w' t' → twp (twin w w') (h e) (h' e) (Agree w w' P) t t') :
    twp (twin w w') (tryCatch p h) (tryCatch p' h') (Agree w w' P) s s' := by
  refine twp_tryCatch (twp_mono (fun r r' t t' hr => ?_) hp)
  match r, r', hr with
  | .ok a, .ok b, hr => exact twp_pure hr
  | .error e, .error e', hr =>
    obtain ⟨halike, rfl⟩ := hr
    exact hh e t t' halike

/-- One call in each world. -/
theorem twp_perform {o o' : Op Cert Key} {P : Val o → Val o' → Store → Prop}
    (ho : Op.Alike w w' o o')
    (h : ∀ ch r s₁, serve w ch s o = (r, s₁) →
      ∃ r' s₁', serve w' ch s' o' = (r', s₁') ∧ Agree w w' P r r' s₁ s₁') :
    twp (twin w w') (perform o) (perform o') (Agree w w' P) s s' := by
  refine twp_call ho fun r s₁ ⟨ch, hf, hs⟩ => ?_
  obtain ⟨r', s₁', hs', hagree⟩ := h ch r s₁ hs
  refine ⟨r', s₁', ⟨ch, False.elim, hs'⟩, hagree.alike, ?_⟩
  match r, r', hagree with
  | .ok a, .ok b, hagree => exact twp_pure hagree
  | .error e, .error e', hagree => exact twp_throw hagree

/-- A call that is made and answered alike. -/
theorem twp_public (ha : w.Alike w') (hs : s.Alike w w' s') {o : Op Cert Key}
    (ho : o.isPublic = true) :
    twp (twin w w') (perform o) (perform o) (Agree w w' fun a b _ => a = b) s s' := by
  refine twp_perform (.refl o) fun ch r s₁ h => ?_
  cases o with
  | kmsDecrypt | generateDataKey | generate | putEntry | getEntry => cases ho
  | getObject p =>
    obtain ⟨rfl, rfl⟩ := Prod.mk.inj h
    rw [serve, ← hs.objects p (of_decide_eq_true ho)]
    exact ⟨_, _, rfl, agree_self hs⟩
  | headObject p =>
    obtain ⟨rfl, rfl⟩ := Prod.mk.inj h
    rw [serve, ← hs.exists_object p]
    exact ⟨_, _, rfl, agree_self hs⟩
  | putObject p o => exact attempt_agree h hs (hs.put (of_decide_eq_true ho) o) rfl
  | collectBoundToPubkey g c =>
    rw [serve, ha.token] at h
    exact attempt_agree h hs hs rfl
  | searchEntry digest =>
    rw [serve, hs.entryUUIDs ha] at h
    exact attempt_agree h hs hs rfl
  | recordEvent e =>
    obtain ⟨rfl, rfl⟩ := Prod.mk.inj h
    refine ⟨_, _, rfl, ⟨hs.objects, hs.tlogEntry, hs.log, hs.generations, ?_⟩, rfl⟩
    rw [hs.events]

/-- A read of an object changes nothing. -/
theorem twp_getObject (hs : s.Alike w w' s') {p : ObjectPath} (hp : p ≠ .tlogEntry) :
    twp (twin w w') (perform (.getObject p)) (perform (.getObject p))
      (Agree w w' fun a b t => t = s ∧ ∃ o, s.objects p = some o ∧ a = o.bytes ∧ b = o.bytes) s s' := by
  refine twp_perform (.refl _) fun ch r s₁ h => ?_
  obtain ⟨hr, rfl⟩ := Prod.mk.inj h
  refine ⟨r, s', by rw [serve, ← hs.objects p hp, hr], ?_⟩
  rcases getAnswer_cases hr with ⟨-, b, hb, rfl⟩ | ⟨-, -, rfl⟩ | ⟨-, rfl⟩
  · obtain ⟨o, ho, rfl⟩ := Option.map_eq_some_iff.mp hb
    exact ⟨hs, rfl, o, ho, rfl, rfl⟩
  · exact ⟨hs, rfl⟩
  · exact ⟨hs, rfl⟩

theorem twp_kmsDecrypt (ha : w.Alike w') (hs : s.Alike w w' s') {c : Bytes} :
    twp (twin w w') (perform (.kmsDecrypt c)) (perform (.kmsDecrypt c))
      (Agree w w' fun a b t => t = s ∧ w.kmsDecrypt c = some a ∧ w'.kmsDecrypt c = some b) s s' := by
  refine twp_perform (.refl _) fun ch r s₁ h => ?_
  obtain ⟨hr, rfl⟩ := Prod.mk.inj h
  have hkms := ha.kms c
  rcases getAnswer_cases hr with ⟨hf, a, hsome, rfl⟩ | ⟨hf, hnone, rfl⟩ | ⟨hf, rfl⟩
  · rw [hsome, Option.isSome_some] at hkms
    obtain ⟨b, hb⟩ := Option.isSome_iff_exists.mp hkms.symm
    refine ⟨.ok b, s', ?_, hs, rfl, hsome, hb⟩
    simp [serve, getAnswer, hf, hb]
  · rw [hnone, Option.isSome_none] at hkms
    have hnone' : w'.kmsDecrypt c = none :=
      Option.isNone_iff_eq_none.mp (Option.isSome_eq_false_iff.mp hkms.symm)
    refine ⟨.error .kms, s', ?_, hs, rfl⟩
    simp [serve, getAnswer, hf, hnone']
  · refine ⟨.error .kms, s', ?_, hs, rfl⟩
    cases hfault : ch.fault with
    | none => exact absurd hfault hf
    | lost | unacknowledged => simp [serve, getAnswer, hfault]

theorem twp_putTlogEntry (hs : s.Alike w w' s') {o o' : Object} (ho : o.Alike w w' o') :
    twp (twin w w') (perform (.putObject .tlogEntry o)) (perform (.putObject .tlogEntry o'))
      (Agree w w' fun _ _ _ => True) s s' :=
  twp_perform (.putTlogEntry ho) fun _ _ _ h => attempt_agree h hs (hs.putTlogEntry ho) trivial

/-! ## The log -/

/-- An entry is found in both worlds, or in none. -/
theorem twp_getTlogEntryByCertificate (ha : w.Alike w') (hs : s.Alike w w' s') {c : Cert} :
    twp (twin w w') (RekorClientImpl.getTlogEntryByCertificate w c)
      (RekorClientImpl.getTlogEntryByCertificate w' c)
      (Agree w w' fun a b _ => Option.Rel (JsonAlike w w') a b) s s' := by
  unfold RekorClientImpl.getTlogEntryByCertificate
  rw [ha.artifactDigest]
  refine twp_seq (twp_public ha hs rfl) ?_
  rintro entryUUIDs _ t t' hs rfl
  cases entryUUIDs with
  | nil => exact twp_pure ⟨hs, .none⟩
  | cons entryUUID =>
    refine twp_seq (P := fun a b _ =>
      Option.Rel (JsonAlike w w') (a.map w.toJson) (b.map w'.toJson)) ?_ ?_
    · refine twp_perform (.refl _) fun ch r s₁ h => attempt_agree h hs hs ?_
      cases ch.indexed with
      | false => exact .none
      | true =>
        have hrel := rel_getElem? hs.log entryUUID
        generalize t.log[entryUUID]? = entry, t'.log[entryUUID]? = entry' at hrel ⊢
        cases hrel with
        | none => exact .none
        | some halike => exact .some ⟨_, _, _, halike, rfl, rfl⟩
    · exact fun a b t t' hs hrel => twp_pure ⟨hs, hrel⟩

/-- The certificate of a generation is recorded, signed with the key that each world has for it. -/
theorem twp_recordCertificate (hs : s.Alike w w' s') {n : Nat} :
    twp (twin w w') (RekorClientImpl.recordCertificate w (w.cert n) (w.key n))
      (RekorClientImpl.recordCertificate w' (w'.cert n) (w'.key n))
      (Agree w w' fun a b _ => JsonAlike w w' a b) s s' := by
  have halike : HashedRekordRequest.Alike w w' _ _ := .signed n
  unfold RekorClientImpl.recordCertificate
  refine twp_seq (P := fun a b _ => JsonAlike w w' (w.toJson a) (w'.toJson b)) (twp_catch ?_ ?_) ?_
  · exact twp_perform (.putEntry halike) fun ch r s₁ h =>
      attempt_agree h hs (hs.record halike) ⟨_, _, _, halike, rfl, rfl⟩
  · intro e t t' hs
    split
    · exact twp_throw ⟨hs, rfl⟩
    · exact twp_throw ⟨hs, rfl⟩
  · exact fun a b t t' hs hjson => twp_pure ⟨hs, hjson⟩

theorem twp_reconcile (ha : w.Alike w') (hs : s.Alike w w' s') {c : Cert} :
    twp (twin w w') (reconcileTlogArtifacts w c) (reconcileTlogArtifacts w' c)
      (Agree w w' fun _ _ _ => True) s s' := by
  have hdone : ∀ {t t' : Store}, t.Alike w w' t' → twp (twin w w') (pure () : MbsProg Cert Key Unit)
      (pure () : MbsProg Cert Key Unit) (Agree w w' fun _ _ _ => True) t t' :=
    fun h => twp_pure ⟨h, trivial⟩
  unfold reconcileTlogArtifacts s3ObjectExists
  refine twp_seq (P := fun a b _ => a = b) (twp_catch ?_ ?_) ?_
  · exact twp_seq (twp_public ha hs rfl) fun _ _ _ _ hs _ => twp_pure ⟨hs, rfl⟩
  · intro e t t' hs
    split
    · exact twp_pure ⟨hs, rfl⟩
    · exact twp_throw ⟨hs, rfl⟩
  rintro found _ t t' hs rfl
  cases found with
  | true => exact hdone hs
  | false =>
    refine twp_catch (twp_seq (twp_getTlogEntryByCertificate ha hs) ?_) fun _ _ _ hs => hdone hs
    intro a b t t' hs hrel
    cases hrel with
    | none => exact hdone hs
    | some hjson => exact twp_seq (twp_putTlogEntry hs ⟨rfl, hjson⟩) fun _ _ _ _ hs _ => hdone hs

/-! ## Loading -/

theorem twp_ofOption (hs : s.Alike w w' s') {e : Exn} {a : Option α} {b : Option β}
    {P : α → β → Store → Prop} (hsome : a.isSome = b.isSome)
    (hP : ∀ x y, a = some x → b = some y → P x y s) :
    twp (twin w w') (.ofOption e a) (.ofOption e b) (Agree w w' P) s s' := by
  match a, b, hsome with
  | some x, some y, _ => exact twp_pure ⟨hs, hP x y rfl rfl⟩
  | none, none, _ => exact twp_throw ⟨hs, rfl⟩

/-- The roots are the same but for the key. -/
def SameRoot (a b : MeasurementBoundCertificate Cert Key) : Prop :=
  a.certificate = b.certificate ∧ a.attestationToken = b.attestationToken

theorem twp_load (ha : w.Alike w') (hw : w.Lawful) (hw' : w'.Lawful) (hs : s.Alike w w' s')
    (hcons : Consistent w s) :
    twp (twin w w') (loadCertificate w) (loadCertificate w')
      (Agree w w' fun a b _ => SameRoot a b) s s' := by
  unfold loadCertificate
  refine twp_seq (twp_getObject hs (by decide)) ?_
  rintro _ _ s t₁ hs₁ ⟨rfl, o₁, ho₁, rfl, rfl⟩
  refine twp_seq (P := fun a b t => t = s ∧ w.generateCertificate o₁.bytes = some a ∧ a = b) ?_ ?_
  · refine twp_ofOption hs₁ (by rw [ha.generateCertificate]) fun x y hx hy => ⟨rfl, hx, ?_⟩
    rw [ha.generateCertificate] at hx
    exact Option.some.inj (hx.symm.trans hy)
  rintro certificate _ s t₂ hs₂ ⟨rfl, hcert, rfl⟩
  refine twp_seq (twp_getObject hs₂ (by decide)) ?_
  rintro _ _ s t₃ hs₃ ⟨rfl, o₂, ho₂, rfl, rfl⟩
  refine twp_seq (twp_kmsDecrypt ha hs₃) ?_
  rintro key key' s t₄ hs₄ ⟨rfl, hkey, hkey'⟩
  refine twp_seq (twp_getObject hs₄ (by decide)) ?_
  rintro _ _ s t₅ hs₅ ⟨rfl, o₃, ho₃, rfl, rfl⟩
  refine twp_seq (twp_getObject hs₅ (by decide)) ?_
  rintro _ _ s t₆ hs₆ ⟨rfl, o₄, ho₄, rfl, rfl⟩
  -- The attestation document is there, so all that was read is of one generation.
  obtain ⟨g, hc⟩ := hcons.1 (by rw [ho₄]; exact Option.some_ne_none o₄)
  have hpart {p : ObjectPath} {o : Object} (hp : p ≠ .tlogEntry) (ho : s.objects p = some o) :
      o = w.part g p := Option.some.inj (ho.symm.trans (hc.2 p hp))
  obtain rfl := hpart (by decide) ho₁
  obtain rfl := hpart (by decide) ho₂
  obtain rfl := hpart (by decide) ho₃
  simp only [World.part, hw.pem, hw.kms, Option.some.injEq] at hcert hkey
  rw [ha.part g (by decide), World.part, hw'.kms] at hkey'
  obtain rfl := hcert
  obtain rfl := hkey
  obtain rfl := Option.some.inj hkey'
  dsimp only
  refine twp_seq (P := fun a b _ => a = w.getEncoded (w.key g) ∧ b = w'.getEncoded (w'.key g)) ?_ ?_
  · unfold decrypt
    rw [ha.size]
    split
    · exact twp_throw ⟨hs₆, rfl⟩
    · refine twp_ofOption hs₆ ?_ fun x y hx hy => ⟨?_, ?_⟩
      · rw [World.part, hw.aead, ha.sealedKey, hw'.aead]
        rfl
      · rw [World.part, hw.aead] at hx
        exact (Option.some.inj hx).symm
      · rw [World.part, ha.sealedKey, hw'.aead] at hy
        exact (Option.some.inj hy).symm
  rintro _ _ t t' hs ⟨rfl, rfl⟩
  refine twp_seq (P := fun _ _ _ => True) (twp_ofOption hs ?_ fun _ _ _ _ => trivial) ?_
  · rw [hw.key, ha.cert, hw'.key]
    rfl
  rintro k k' t t' hs -
  refine twp_seq (twp_reconcile ha hs) ?_
  rintro _ _ t t' hs -
  refine twp_seq (twp_public ha hs rfl) ?_
  rintro _ _ t t' hs -
  exact twp_pure ⟨hs, rfl, rfl⟩

/-! ## Generating -/

theorem twp_recording (ha : w.Alike w') {p : MbsProg Cert Key α} {p' : MbsProg Cert Key β}
    {isFailure : Exn → Bool} {event : MbsEvent} {P : α → β → Store → Prop}
    (hp : twp (twin w w') p p' (Agree w w' P) s s') :
    twp (twin w w') (recording p isFailure event) (recording p' isFailure event) (Agree w w' P)
      s s' := by
  refine twp_catch hp fun e t t' hs => ?_
  split
  · exact twp_seq (twp_public ha hs rfl) fun _ _ _ _ hs _ => twp_throw ⟨hs, rfl⟩
  · exact twp_throw ⟨hs, rfl⟩

/-- Each world generates a key of its own. -/
theorem twp_generate (hs : s.Alike w w' s') :
    twp (twin w w') (perform .generate) (perform .generate) (Agree w w' fun a b _ =>
      ∃ n, a = ⟨n, w.cert n, w.key n⟩ ∧ b = ⟨n, w'.cert n, w'.key n⟩) s s' := by
  refine twp_perform (.refl _) fun ch r s₁ h => attempt_agree h hs ?_ ?_
  · exact ⟨hs.objects, hs.tlogEntry, hs.log, congrArg (· + 1) hs.generations, hs.events⟩
  · exact ⟨s.generations, rfl, by rw [hs.generations]⟩

theorem twp_generateDataKey (ha : w.Alike w') (hs : s.Alike w w' s') {n : Nat} :
    twp (twin w w') (perform (.generateDataKey n)) (perform (.generateDataKey n))
      (Agree w w' fun a b _ =>
        a = (w.plaintext n, w.ciphertext n) ∧ b = (w'.plaintext n, w.ciphertext n)) s s' := by
  refine twp_perform (.refl _) fun ch r s₁ h => attempt_agree h hs hs ⟨rfl, ?_⟩
  rw [ha.ciphertext]

/-- The encrypted private keys are the same, or the data keys have the same wrong size. -/
theorem twp_encrypt (ha : w.Alike w') (hs : s.Alike w w' s') {n : Nat} :
    twp (twin w w') (encrypt w (w.getEncoded (w.key n)) (w.plaintext n) n)
      (encrypt w' (w'.getEncoded (w'.key n)) (w'.plaintext n) n) (Agree w w' fun a b _ => a = b)
      s s' := by
  unfold encrypt
  rw [ha.size]
  split
  · exact twp_throw ⟨hs, rfl⟩
  · exact twp_pure ⟨hs, ha.sealedKey n⟩

theorem twp_generateAndStore (ha : w.Alike w') (hs : s.Alike w w' s') :
    twp (twin w w') (generateAndStoreCertificate w) (generateAndStoreCertificate w')
      (Agree w w' fun a b _ => SameRoot a b) s s' := by
  unfold generateAndStoreCertificate
  refine twp_seq (twp_generate hs) ?_
  rintro _ _ t t' hs ⟨n, rfl, rfl⟩
  dsimp only
  rw [← ha.cert]
  refine twp_seq (twp_public ha hs rfl) ?_
  rintro token _ t t' hs rfl
  refine twp_seq (twp_recording ha (twp_generateDataKey ha hs)) ?_
  rintro _ _ t t' hs ⟨rfl, rfl⟩
  dsimp only
  refine twp_seq (twp_encrypt ha hs) ?_
  rintro aeadEncryptedPrivateKey _ t t' hs rfl
  refine twp_seq (P := fun _ _ _ => True) (twp_recording ha ?_) ?_
  · rw [ha.convertToPem]
    refine twp_seq (twp_public ha hs rfl) fun _ _ _ _ hs _ => ?_
    refine twp_seq (twp_public ha hs rfl) fun _ _ _ _ hs _ => ?_
    refine twp_seq (twp_public ha hs rfl) fun _ _ _ _ hs _ => ?_
    refine twp_seq (twp_public ha hs rfl) fun _ _ _ _ hs _ => ?_
    exact twp_pure ⟨hs, trivial⟩
  rintro _ _ t t' hs -
  rw [ha.cert]
  refine twp_seq (twp_catch (ha.cert ▸ twp_recordCertificate hs) fun e _ _ hs => twp_throw ⟨hs, rfl⟩) ?_
  rintro json json' t t' hs hjson
  refine twp_seq (P := fun _ _ _ => True) (twp_recording ha ?_) ?_
  · exact twp_seq (twp_putTlogEntry hs ⟨rfl, hjson⟩) fun _ _ _ _ hs _ => twp_pure ⟨hs, trivial⟩
  rintro _ _ t t' hs -
  refine twp_seq (twp_public ha hs rfl) ?_
  rintro _ _ t t' hs -
  exact twp_pure ⟨hs, rfl, rfl⟩

theorem twp_main (ha : w.Alike w') (hw : w.Lawful) (hw' : w'.Lawful) (hs : s.Alike w w' s')
    (hcons : Consistent w s) :
    twp (twin w w') (executeLoadOrGenerateCertificate w) (executeLoadOrGenerateCertificate w')
      (Agree w w' fun a b _ => SameRoot a b) s s' := by
  have hrethrow {event : MbsEvent} {e : Exn} {t t' : Store} (hs : t.Alike w w' t') :
      twp (twin w w')
        (do
          let _ ← perform (.recordEvent event)
          throw e : MbsProg Cert Key (MeasurementBoundCertificate Cert Key))
        (do
          let _ ← perform (.recordEvent event)
          throw e : MbsProg Cert Key (MeasurementBoundCertificate Cert Key))
        (Agree w w' fun a b _ => SameRoot a b) t t' :=
    twp_seq (twp_public ha hs rfl) fun _ _ _ _ hs _ => twp_throw ⟨hs, rfl⟩
  refine twp_catch (twp_load ha hw hw' hs hcons) fun e t t' hs => ?_
  cases e with
  | noSuchKey => exact twp_generateAndStore ha hs
  | kms => exact hrethrow hs
  | sdk => exact hrethrow hs
  | security m => exact twp_throw ⟨hs, rfl⟩
  | io m => exact twp_throw ⟨hs, rfl⟩
  | runtime m => exact twp_throw ⟨hs, rfl⟩

/-! ## Runs -/

/-- Two runs show the same of themselves, but for the signature: the next call, or the end. A returned
root is the same but for the key. -/
inductive Shows (w w' : World Cert Key) :
    MbsProg Cert Key (MeasurementBoundCertificate Cert Key) →
    MbsProg Cert Key (MeasurementBoundCertificate Cert Key) → Prop
  | ret {a b : MeasurementBoundCertificate Cert Key} (h : SameRoot a b) :
    Shows w w' (.ret a) (.ret b)
  | throw (e : Exn) : Shows w w' (.throw e) (.throw e)
  | call {o o' : Op Cert Key}
      {k : Ret o → MbsProg Cert Key (MeasurementBoundCertificate Cert Key)}
      {k' : Ret o' → MbsProg Cert Key (MeasurementBoundCertificate Cert Key)}
      (h : Op.Alike w w' o o') : Shows w w' (.call o k) (.call o' k')

theorem shows_of_twp {p q : MbsProg Cert Key (MeasurementBoundCertificate Cert Key)}
    (h : twp (twin w w') p q (Agree w w' fun a b _ => SameRoot a b) s s') : Shows w w' p q := by
  cases p with
  | ret a =>
    obtain ⟨r, hr, hagree⟩ := h
    cases q with
    | ret b => cases hr; exact .ret hagree.2
    | throw e => cases hr; exact hagree.elim
    | call o k => cases hr
  | throw e =>
    obtain ⟨r, hr, hagree⟩ := h
    cases q with
    | ret b => cases hr; exact hagree.elim
    | throw e' => cases hr; cases hagree.2; exact .throw e
    | call o k => cases hr
  | call o k =>
    obtain ⟨o', k', rfl, ho, -⟩ := h
    exact .call ho

/-- **Secrecy.** Worlds that differ in keys only have the same runs, through contents of the buckets, of
the log and of the metrics that are the same but for the signatures: each call is the same but for the
signature that the log is asked to take and the tlog entry that is stored, and each run ends in the
same exception, or returns the same certificate and token. -/
theorem keys_unobservable (w w' : World Cert Key) (ha : w.Alike w') (hw : w.Lawful)
    (hw' : w'.Lawful) (log : List HashedRekordRequest) (cs : List (Config Cert Key))
    (hr : (firstStart w log :: cs).IsChain (Step w)) :
    ∃ qs : List (Config Cert Key), (firstStart w' log :: qs).IsChain (Step w') ∧
      List.Forall₂ (fun c q => c.1.Alike w w' q.1 ∧ Shows w w' c.2 q.2) cs qs := by
  have hfirst : Stoppable w False (firstStart w log).1 := Fresh.stoppable ⟨rfl, rfl⟩
  have hlog : List.Forall₂ (HashedRekordRequest.Alike w w') log log :=
    List.forall₂_same.mpr fun request _ => .refl request
  have hsame : (firstStart w log).1.Alike w w' (firstStart w' log).1 :=
    ⟨fun _ _ => rfl, .none, hlog, rfl, rfl⟩
  have hr' : (firstStart w log :: cs).IsChain (RunStep (device w (faults False)) (mayStop False)
      (executeLoadOrGenerateCertificate w)) := by
    refine hr.imp fun a b hs => ?_
    exact RunStep.mono (fun _ _ _ _ ⟨ch, _, h⟩ => ⟨ch, False.elim, h⟩) (fun _ _ => False.elim) hs
  obtain ⟨qs, hqs, hall⟩ := RunStep.twp_chain (T := twin w w') (restarts hw) rfl
    (fun _ _ _ _ => False.elim) (fun s s' hs hsame => twp_main ha hw hw' hsame hs.1)
    (wp_firstStart False hw log) ⟨hsame, twp_main ha hw hw' hsame hfirst.1⟩ hr'
  refine ⟨qs, hqs.imp fun a b hs => ?_, hall.imp fun c q h => ⟨h.1, shows_of_twp h.2⟩⟩
  exact hs.mono (fun _ _ _ _ ⟨ch, _, h⟩ => ⟨ch, trivial, h⟩) fun _ _ => trivial

/-- The counting world with other keys, in other ciphers that encrypt them to the same bytes. -/
def maskedWorld : World Nat Nat :=
  { countingWorld with
    key := fun g => g + 1
    plaintext := fun _ => List.replicate 32 1
    kmsDecrypt := fun _ => some (List.replicate 32 1)
    getEncoded := fun k => List.replicate (k - 1) 1
    generatePrivate := fun _ b => some (b.length + 1)
    aeadEncrypt := fun _ _ m => m.map (· ^^^ 1)
    aeadDecrypt := fun _ m => some (m.map (· ^^^ 1)) }

theorem maskedWorld_lawful : maskedWorld.Lawful where
  pem g := by simp [maskedWorld, countingWorld]
  kms _ := rfl
  aead _ m := by
    have hmask (b : UInt8) : b ^^^ 1 ^^^ 1 = b := by rw [UInt8.xor_assoc]; simp
    simp [maskedWorld, Function.comp_def, hmask]
  key g := by simp [maskedWorld, countingWorld]

theorem countingWorld_alike_maskedWorld : countingWorld.Alike maskedWorld where
  cert := rfl
  token := rfl
  ciphertext := rfl
  convertToPem := rfl
  generateCertificate := rfl
  certDer := rfl
  sha256 := rfl
  publicKeyPem := rfl
  toJson := rfl
  sealedKey g := by simp [maskedWorld, countingWorld]
  size _ := rfl
  kms _ := rfl

/-- The next call, without faults, or the start of the next run. -/
def advance (w : World Cert Key) : Config Cert Key → Config Cert Key
  | (s, .call o k) => ((serve w {} s o).2, k (serve w {} s o).1)
  | (s, _) => (s, executeLoadOrGenerateCertificate w)

theorem step_advance (c : Config Cert Key) : Step w c (advance w c) := by
  obtain ⟨s, p⟩ := c
  cases p with
  | ret root => exact .start fun _ _ h => by cases h
  | throw e => exact .start fun _ _ h => by cases h
  | call o k => exact .call ⟨{}, trivial, rfl⟩

theorem isChain_advance (c : Config Cert Key) (n : Nat) :
    (c :: List.iterate (advance w) (advance w c) n).IsChain (Step w) := by
  induction n generalizing c with
  | zero => exact .singleton c
  | succ n ih => exact List.isChain_cons_cons.mpr ⟨step_advance c, ih (advance w c)⟩

/-- The run that generates and records a root, and the run that loads it, with another signature in
the masked world. -/
theorem keys_unobservable_masked :
    RekorClientImpl.hashedRekordRequest countingWorld (countingWorld.cert 0) (countingWorld.key 0) ≠
        RekorClientImpl.hashedRekordRequest maskedWorld (maskedWorld.cert 0) (maskedWorld.key 0) ∧
      ∃ qs : List (Config Nat Nat),
        (firstStart maskedWorld [] :: qs).IsChain (Step maskedWorld) ∧
        List.Forall₂ (fun c q => c.1.Alike countingWorld maskedWorld q.1 ∧
            Shows countingWorld maskedWorld c.2 q.2)
          (List.iterate (advance countingWorld) (advance countingWorld (firstStart countingWorld [])) 20)
          qs :=
  ⟨by decide, keys_unobservable countingWorld maskedWorld countingWorld_alike_maskedWorld
    countingWorld_lawful maskedWorld_lawful [] _ (isChain_advance _ 20)⟩

end Mbs
end TrustedCa
