import TrustedCa.Mbs.NitroSecurityModule
import TrustedCa.Spec.Except

/-!
# The attested flow of the KMS client

What the clients of the security module do in any session, whatever the device, the KMS and the
decryption answer.

* `Safe`: the discipline of the calls. A descriptor is used and closed only while it is open, and a
  request to the KMS carries the document for a key pair that was made for this request.
* `Leaves`: the descriptors that are open before and after. The constructor accepts the descriptor 0
  and `close` does not close it, so it is the one exception.
* `session_safe`: every session keeps to the discipline and leaves no descriptor behind but 0.
* `collected_document`: a document that was collected is what the device has answered for the key.
* `Honest`: the KMS encrypts for the key in the document. `client_refines_kms`: the client is then the
  KMS that the provider of the root certificate takes for granted.
-/

namespace TrustedCa
namespace Mbs
namespace Nitro

open Spec NitroSecurityModule

/-! ## The discipline -/

/-- `init` opens a descriptor unless its answer is negative, and `exit` closes one. -/
def descriptors : Handles Op Ret Int where
  opens
    | ⟨.init, fd⟩ => if fd < 0 then none else some fd
    | _ => none
  closes
    | .exit fd => some fd
    | _ => none

/-- The last two calls made a key pair and the document for it. -/
def Attested (doc : Bytes) (log : Log) : Prop :=
  ∃ before fd keyPair, log = before ++ [⟨.generateKeyPair, .ok keyPair⟩,
    ⟨.getAttestationDoc fd none none (some keyPair.getPublic), .ok doc⟩]

/-- What must hold before a call. -/
def Safe : Op → Log → Prop
  | .getAttestationDoc fd .., log | .exit fd, log => descriptors.held log fd = true
  | .generateDataKey _ doc, log | .decrypt _ _ doc, log => Attested doc log
  | .init, _ | .generateKeyPair, _ => True

/-- A descriptor that is given out is not open. -/
def Fresh (answer : Log → (o : Op) → Ret o) : Prop :=
  ∀ log, 0 ≤ answer log .init → descriptors.held log (answer log .init) = false

/-- The same descriptors are open, and perhaps 0. -/
def Leaves (log log' : Log) : Prop :=
  ∀ fd, fd ≠ 0 → descriptors.held log' fd = descriptors.held log fd

theorem Leaves.refl (log : Log) : Leaves log log := fun _ _ => rfl

theorem Leaves.trans {log log' log'' : Log} (h : Leaves log log') (h' : Leaves log' log'') :
    Leaves log log'' :=
  fun fd hfd => (h' fd hfd).trans (h fd hfd)

/-- A block that uses an open descriptor, ends in `R` and opens and closes none. -/
def Uses {α : Type} (answer : Log → (o : Op) → Ret o) (fd : Int) (p : NitroProg α)
    (R : Except Exn α → Log → Prop) : Prop :=
  ∀ log, descriptors.held log fd = true → wp (recorded answer Safe) p (fun r log' =>
    ∃ more, log' = log ++ more ∧ (∀ ev ∈ more, descriptors.Neutral ev) ∧ R r more) log

section Session

variable {answer : Log → (o : Op) → Ret o} {α : Type}

/-- How a `try` with a security module ends: it was not opened, or the block has ended. -/
def Ends (R : Except Exn α → Log → Prop) (log : Log) (r : Except Exn α) (log' : Log) : Prop :=
  Leaves log log' ∧ ((∃ e, r = .error e) ∨
    ∃ fd more tail, log' = log ++ ⟨.init, fd⟩ :: more ++ tail ∧ R r more)

theorem use_wp (hfresh : Fresh answer) {body : Int → NitroProg α}
    {R : Except Exn α → Log → Prop} (hbody : ∀ fd, Uses answer fd (body fd) R) (log : Log) :
    wp (recorded answer Safe) (use body) (Ends R log) log := by
  refine (wp_bind _ _).mpr (wp_recorded_call trivial fun fd hfd => ?_)
  split
  · next hneg =>
    refine ⟨fun fd' hfd' => ?_, .inl ⟨_, rfl⟩⟩
    rw [Handles.held_neutral ⟨if_pos hneg, rfl⟩]
  · next hpos =>
    have hopens : descriptors.opens ⟨.init, fd⟩ = some fd := if_neg hpos
    have hheld : ∀ fd', descriptors.held (log ++ [⟨.init, fd⟩]) fd' =
        (fd' = fd || descriptors.held log fd') := Handles.held_opened hopens
    have hfree : descriptors.held log fd = false := hfd ▸ hfresh log (hfd ▸ Int.not_lt.mp hpos)
    refine wp_ensuring (wp_mono ?_ _ (hbody fd _ (by rw [hheld]; simp)))
    rintro r _ ⟨more, rfl, hneutral, hR⟩
    have hmore : descriptors.held (log ++ [⟨.init, fd⟩] ++ more) =
        descriptors.held (log ++ [⟨.init, fd⟩]) := Handles.held_append_neutral hneutral
    unfold close
    split
    · next hpositive =>
      refine wp_recorded_call (by rw [Safe, hmore, hheld]; simp) fun _ _ => ?_
      have hclosed : ∀ fd', descriptors.held
          (log ++ [⟨.init, fd⟩] ++ more ++ [⟨.exit fd, ()⟩]) fd' =
          (fd' ≠ fd && descriptors.held (log ++ [⟨.init, fd⟩]) fd') := by
        intro fd'
        rw [Handles.held_closed rfl rfl, hmore]
      have hsame := Handles.held_opened_closed hfree hheld hclosed
      refine ⟨fun fd' _ => congrFun hsame fd', ?_⟩
      cases r with
      | error e => exact .inl ⟨e, rfl⟩
      | ok a => exact .inr ⟨fd, more, [⟨.exit fd, ()⟩], by simp, hR⟩
    · next hzero =>
      have hfd0 : fd = 0 := Int.le_antisymm (Int.not_lt.mp hzero) (Int.not_lt.mp hpos)
      refine ⟨fun fd' hfd' => ?_, ?_⟩
      · rw [hmore, hheld]
        simp [hfd0, hfd']
      · cases r with
        | error e => exact .inl ⟨e, rfl⟩
        | ok a => exact .inr ⟨fd, more, [], by simp, hR⟩

/-- The `catch` clause of the KMS client only throws. -/
theorem wrapping_wp {p : NitroProg α} {R : Except Exn α → Log → Prop} {log : Log}
    (h : wp (recorded answer Safe) p (Ends R log) log) :
    wp (recorded answer Safe) (wrapping p)
      (fun r log' => Ends R log r log' ∧ ∀ e, r = .error e → e = .kms) log := by
  refine (wp_tryCatch _ _).mpr (wp_mono ?_ p h)
  rintro (e | a) log' ⟨hleaves, hends⟩
  · exact ⟨⟨hleaves, .inl ⟨_, rfl⟩⟩, fun e h => by cases h; rfl⟩
  · exact ⟨⟨hleaves, hends⟩, fun e h => by cases h⟩

/-- A document that was collected. -/
def Collected (userData : Option Bytes) (publicKey : Bytes) :
    Except Exn AttestationToken → Log → Prop
  | .ok token, more => ∃ fd,
      more = [⟨.getAttestationDoc fd userData none (some publicKey), .ok token.getBytes⟩]
  | .error _, _ => True

theorem collect_uses {userData : Option Bytes} {publicKey : Bytes} (fd : Int) :
    Uses answer fd (do
      let doc ← getAttestationDocument fd userData none (some publicKey)
      return ⟨doc⟩) (Collected userData publicKey) := by
  intro log hopen
  refine (wp_bind _ _).mpr (wp_recorded_call hopen fun r _ => ?_)
  have hneutral : ∀ ev ∈ ([⟨.getAttestationDoc fd userData none (some publicKey), r⟩] : Log),
      descriptors.Neutral ev := List.forall_mem_singleton.mpr ⟨rfl, rfl⟩
  cases r with
  | error status => exact ⟨_, rfl, hneutral, trivial⟩
  | ok doc => exact ⟨_, rfl, hneutral, fd, rfl⟩

section KmsClient

variable {cms : Bytes → Bytes → Except Exn Bytes}

/-- A key pair and the document for it, before the rest of a block. -/
theorem attested_uses {fd : Int} {f : KeyPair → Bytes → NitroProg α} {R : Except Exn α → Log → Prop}
    (herr : ∀ e more, R (.error e) more)
    (hf : ∀ (keyPair : KeyPair) (doc : Bytes) (log : Log), Attested doc log →
      wp (recorded answer Safe) (f keyPair doc) (fun r log' =>
        ∃ more, log' = log ++ more ∧ (∀ ev ∈ more, descriptors.Neutral ev) ∧
          R r (⟨.generateKeyPair, .ok keyPair⟩ ::
            ⟨.getAttestationDoc fd none none (some keyPair.getPublic), .ok doc⟩ :: more)) log) :
    Uses answer fd (do
      let keyPair ← generateEphemeralKeyPair
      let attestationDoc ← getAttestationDocument fd none none (some keyPair.getPublic)
      f keyPair attestationDoc) R := by
  intro log hopen
  have hkeyPair : ∀ r, descriptors.Neutral ⟨.generateKeyPair, r⟩ := fun _ => ⟨rfl, rfl⟩
  refine (wp_bind _ _).mpr (wp_recorded_call trivial fun r _ => ?_)
  cases r with
  | error e =>
    exact ⟨[⟨.generateKeyPair, .error e⟩], rfl, List.forall_mem_singleton.mpr (hkeyPair _),
      herr _ _⟩
  | ok keyPair =>
    have hopen' : descriptors.held (log ++ [⟨.generateKeyPair, .ok keyPair⟩]) fd = true := by
      rw [Handles.held_neutral (hkeyPair _)]
      exact hopen
    refine (wp_bind _ _).mpr (wp_recorded_call hopen' fun r _ => ?_)
    cases r with
    | error status =>
      refine ⟨[⟨.generateKeyPair, .ok keyPair⟩,
        ⟨.getAttestationDoc fd none none (some keyPair.getPublic), .error status⟩], by simp, ?_,
        herr _ _⟩
      exact List.forall_mem_cons.mpr ⟨hkeyPair _, List.forall_mem_singleton.mpr ⟨rfl, rfl⟩⟩
    | ok doc =>
      change wp (recorded answer Safe) (f keyPair doc) _ _
      refine wp_mono ?_ _ (hf keyPair doc _ ⟨log, fd, keyPair, List.append_assoc ..⟩)
      rintro r _ ⟨more, rfl, hneutral, hR⟩
      refine ⟨⟨.generateKeyPair, .ok keyPair⟩ ::
        ⟨.getAttestationDoc fd none none (some keyPair.getPublic), .ok doc⟩ :: more, by simp, ?_, hR⟩
      exact List.forall_mem_cons.mpr
        ⟨hkeyPair _, List.forall_mem_cons.mpr ⟨⟨rfl, rfl⟩, hneutral⟩⟩

theorem decryptCiphertextForRecipient_cases (cms : Bytes → Bytes → Except Exn Bytes)
    (ciphertextForRecipient : Option Bytes) (keyPair : KeyPair) :
    (∃ e, decryptCiphertextForRecipient cms ciphertextForRecipient keyPair = .throw e) ∨
      ∃ ciphertext plaintext, ciphertextForRecipient = some ciphertext ∧
        cms keyPair.getPrivate ciphertext = .ok plaintext ∧
        decryptCiphertextForRecipient cms ciphertextForRecipient keyPair = .ret plaintext := by
  unfold decryptCiphertextForRecipient
  split
  · exact .inl ⟨_, rfl⟩
  · exact .inl ⟨_, rfl⟩
  · next ciphertext _ =>
    cases hcms : cms keyPair.getPrivate ciphertext with
    | error e => exact .inl ⟨e, rfl⟩
    | ok plaintext => exact .inr ⟨ciphertext, plaintext, rfl, hcms, rfl⟩

/-- The calls behind a data key that was generated. -/
def Generated (cms : Bytes → Bytes → Except Exn Bytes) (keyId : String) :
    Except Exn (Bytes × Bytes) → Log → Prop
  | .ok (plaintext, ciphertext), more => ∃ fd keyPair doc forRecipient,
      more = [⟨.generateKeyPair, .ok keyPair⟩,
        ⟨.getAttestationDoc fd none none (some keyPair.getPublic), .ok doc⟩,
        ⟨.generateDataKey keyId doc, .ok ⟨some forRecipient, some ciphertext⟩⟩] ∧
      cms keyPair.getPrivate forRecipient = .ok plaintext
  | .error _, _ => True

/-- The calls behind a ciphertext that was decrypted. -/
def Decrypted (cms : Bytes → Bytes → Except Exn Bytes) (ciphertext : Bytes) (keyId : String) :
    Except Exn Bytes → Log → Prop
  | .ok plaintext, more => ∃ fd keyPair doc forRecipient,
      more = [⟨.generateKeyPair, .ok keyPair⟩,
        ⟨.getAttestationDoc fd none none (some keyPair.getPublic), .ok doc⟩,
        ⟨.decrypt ciphertext keyId doc, .ok ⟨some forRecipient⟩⟩] ∧
      cms keyPair.getPrivate forRecipient = .ok plaintext
  | .error _, _ => True

theorem generateDataKey_wp (cms : Bytes → Bytes → Except Exn Bytes) (hfresh : Fresh answer)
    (keyId : String) (log : Log) :
    wp (recorded answer Safe) (generateDataKey cms keyId) (fun r log' =>
      Ends (Generated cms keyId) log r log' ∧ ∀ e, r = .error e → e = .kms) log := by
  refine wrapping_wp (use_wp hfresh (fun fd => attested_uses (fun _ _ => trivial) ?_) log)
  intro keyPair doc log hattested
  refine (wp_bind _ _).mpr (wp_recorded_call hattested fun r _ => ?_)
  have hneutral : ∀ ev ∈ ([⟨.generateDataKey keyId doc, r⟩] : Log), descriptors.Neutral ev :=
    List.forall_mem_singleton.mpr ⟨rfl, rfl⟩
  cases r with
  | error e => exact ⟨_, rfl, hneutral, trivial⟩
  | ok response =>
    obtain ⟨forRecipient, ciphertextBlob⟩ := response
    refine (wp_bind _ _).mpr ?_
    rcases decryptCiphertextForRecipient_cases cms forRecipient keyPair with ⟨e, hthrow⟩ |
      ⟨ciphertext, plaintext, rfl, hcms, hret⟩
    · rw [hthrow]
      exact ⟨_, rfl, hneutral, trivial⟩
    · rw [hret]
      cases ciphertextBlob with
      | none => exact ⟨_, rfl, hneutral, trivial⟩
      | some blob => exact ⟨_, rfl, hneutral, fd, keyPair, doc, ciphertext, rfl, hcms⟩

theorem decrypt_wp (cms : Bytes → Bytes → Except Exn Bytes) (hfresh : Fresh answer)
    (ciphertext : Bytes) (keyId : String) (log : Log) :
    wp (recorded answer Safe) (decrypt cms ciphertext keyId) (fun r log' =>
      Ends (Decrypted cms ciphertext keyId) log r log' ∧ ∀ e, r = .error e → e = .kms) log := by
  refine wrapping_wp (use_wp hfresh (fun fd => attested_uses (fun _ _ => trivial) ?_) log)
  intro keyPair doc log hattested
  refine (wp_bind _ _).mpr (wp_recorded_call hattested fun r _ => ?_)
  have hneutral : ∀ ev ∈ ([⟨.decrypt ciphertext keyId doc, r⟩] : Log), descriptors.Neutral ev :=
    List.forall_mem_singleton.mpr ⟨rfl, rfl⟩
  cases r with
  | error e => exact ⟨_, rfl, hneutral, trivial⟩
  | ok response =>
    obtain ⟨forRecipient⟩ := response
    rcases decryptCiphertextForRecipient_cases cms forRecipient keyPair with ⟨e, hthrow⟩ |
      ⟨ciphertext, plaintext, rfl, hcms, hret⟩
    · rw [wp_ofExcept, andThen_ok, hthrow]
      exact ⟨_, rfl, hneutral, trivial⟩
    · rw [wp_ofExcept, andThen_ok, hret]
      exact ⟨_, rfl, hneutral, fd, keyPair, doc, ciphertext, rfl, hcms⟩

end KmsClient

/-! ## Sessions -/

theorem validateSize_wp {data : Bytes} {description : String} {Q : Except Exn Unit → Log → Prop}
    {log : Log} (hok : data.length ≤ 1024 → Q (.ok ()) log) (herr : ∀ e, Q (.error e) log) :
    wp (recorded answer Safe) (validateSize data description) Q log := by
  unfold validateSize
  split
  · exact herr _
  · next h => exact hok (Nat.not_lt.mp h)

theorem collectBoundToPubkey_wp (hfresh : Fresh answer) (publicKey : Bytes) (log : Log) :
    wp (recorded answer Safe) (collectBoundToPubkey publicKey)
      (Ends (Collected none publicKey) log) log := by
  refine (wp_bind _ _).mpr (validateSize_wp (fun _ => ?_) fun e => ⟨.refl log, .inl ⟨e, rfl⟩⟩)
  exact use_wp hfresh collect_uses log

theorem collectBoundToPubkeyAndUserData_wp (hfresh : Fresh answer) (publicKey userData : Bytes)
    (log : Log) : wp (recorded answer Safe) (collectBoundToPubkeyAndUserData publicKey userData)
      (Ends (Collected (some userData) publicKey) log) log := by
  refine (wp_bind _ _).mpr (validateSize_wp (fun _ => ?_) fun e => ⟨.refl log, .inl ⟨e, rfl⟩⟩)
  refine (wp_bind _ _).mpr (validateSize_wp (fun _ => ?_) fun e => ⟨.refl log, .inl ⟨e, rfl⟩⟩)
  exact use_wp hfresh collect_uses log

theorem collect_wp (hfresh : Fresh answer) (publicKey : Bytes) (userData : Option Bytes) (log : Log) :
    wp (recorded answer Safe) (collect publicKey userData)
      (Ends (Collected userData publicKey) log) log := by
  cases userData with
  | none => exact collectBoundToPubkey_wp hfresh publicKey log
  | some userData => exact collectBoundToPubkeyAndUserData_wp hfresh publicKey userData log

/-- A call whose value is dropped. -/
theorem drop_wp {p : NitroProg α} {log : Log}
    (h : wp (recorded answer Safe) p (fun _ log' => Leaves log log') log) :
    wp (recorded answer Safe) (do
      let _ ← p
      return ()) (fun _ log' => Leaves log log') log := by
  refine (wp_bind _ _).mpr (wp_mono ?_ p h)
  rintro (e | a) log' hleaves
  · exact hleaves
  · exact hleaves

theorem perform_wp (cms : Bytes → Bytes → Except Exn Bytes) (hfresh : Fresh answer) (call : Call)
    (log : Log) : wp (recorded answer Safe) (call.perform cms) (fun _ log' => Leaves log log') log := by
  cases call with
  | collectBoundToPubkey publicKey =>
    exact drop_wp (wp_mono (fun _ _ h => h.1) _ (collectBoundToPubkey_wp hfresh publicKey log))
  | collectBoundToPubkeyAndUserData publicKey userData =>
    exact drop_wp (wp_mono (fun _ _ h => h.1) _
      (collectBoundToPubkeyAndUserData_wp hfresh publicKey userData log))
  | generateDataKey keyId =>
    exact drop_wp (wp_mono (fun _ _ h => h.1.1) _ (generateDataKey_wp cms hfresh keyId log))
  | decrypt ciphertext keyId =>
    exact drop_wp (wp_mono (fun _ _ h => h.1.1) _ (decrypt_wp cms hfresh ciphertext keyId log))

theorem session_wp (cms : Bytes → Bytes → Except Exn Bytes) (hfresh : Fresh answer)
    (calls : List Call) (log : Log) :
    wp (recorded answer Safe) (session cms calls) (fun _ log' => Leaves log log') log := by
  induction calls generalizing log with
  | nil => exact .refl log
  | cons call calls ih =>
    refine (wp_bind _ _).mpr ((wp_tryCatch _ _).mpr (wp_mono ?_ _ (perform_wp cms hfresh call log)))
    -- the session goes on in both cases
    rintro (e | ⟨⟩) log₁ hleaves
    · exact wp_mono (fun _ _ h => hleaves.trans h) _ (ih log₁)
    · exact wp_mono (fun _ _ h => hleaves.trans h) _ (ih log₁)

/-- **Sessions keep to the discipline.** In every session of the two clients, however its calls end:
a descriptor is used or closed only while it is open, a request to the KMS comes right after a new
key pair was made and its public key attested, with the document of this key, and no descriptor but
0 is open afterwards. -/
theorem session_safe (cms : Bytes → Bytes → Except Exn Bytes) (hfresh : Fresh answer)
    (calls : List Call) {log : Log} {r : Except Exn Unit}
    (hrun : (session cms calls).run answer [] = (log, r)) :
    (∀ before ev after, log = before ++ ev :: after → Safe ev.1 before) ∧
      ∀ fd, fd ≠ 0 → descriptors.held log fd = false := by
  have hwp := session_wp cms hfresh calls []
  refine ⟨fun before ev after hlog => ?_, fun fd hfd => ?_⟩
  · exact wp_run_pending hwp (by rw [hrun, hlog]; rfl)
  · have hleaves := wp_run hwp fd hfd
    rw [hrun] at hleaves
    exact hleaves

end Session

/-! ## The KMS behind the client -/

/-- What the KMS computes: the key in an attestation document, what a ciphertext is decrypted to, and
when data is enveloped for a public key. -/
structure Kms where
  publicKeyOf : Bytes → Option Bytes
  plaintext : String → Bytes → Option Bytes
  Enveloped (publicKey plaintext ciphertextForRecipient : Bytes) : Prop

/-- The device and the KMS do what their documentation says, where they answer. -/
structure Honest (kms : Kms) (cms : Bytes → Bytes → Except Exn Bytes)
    (answer : Log → (o : Op) → Ret o) : Prop where
  document : ∀ log fd userData nonce publicKey doc,
    answer log (.getAttestationDoc fd userData nonce (some publicKey)) = .ok doc →
      kms.publicKeyOf doc = some publicKey
  generated : ∀ log keyId doc forRecipient ciphertext,
    answer log (.generateDataKey keyId doc) = .ok ⟨some forRecipient, some ciphertext⟩ →
      ∃ publicKey plaintext, kms.publicKeyOf doc = some publicKey ∧
        kms.Enveloped publicKey plaintext forRecipient ∧ kms.plaintext keyId ciphertext = some plaintext
  decrypted : ∀ log ciphertext keyId doc forRecipient,
    answer log (.decrypt ciphertext keyId doc) = .ok ⟨some forRecipient⟩ →
      ∃ publicKey plaintext, kms.publicKeyOf doc = some publicKey ∧
        kms.Enveloped publicKey plaintext forRecipient ∧ kms.plaintext keyId ciphertext = some plaintext
  /-- Only what was enveloped for a key can be decrypted with its private key. -/
  recipient : ∀ log keyPair plaintext forRecipient,
    answer log .generateKeyPair = .ok keyPair →
      kms.Enveloped keyPair.getPublic plaintext forRecipient →
      ∀ p, cms keyPair.getPrivate forRecipient = .ok p → p = plaintext

section Refinement

variable {kms : Kms} {cms : Bytes → Bytes → Except Exn Bytes} {answer : Log → (o : Op) → Ret o}

/-- The answers in the part of a log that a block with a security module has added. -/
theorem answered_of_ends {log log' more tail : Log} {fd : Int}
    (hlog' : log' = log ++ ⟨.init, fd⟩ :: more ++ tail) (h : Answered answer log') :
    ∀ before ev after, more = before ++ ev :: after →
      ev.2 = answer (log ++ ⟨.init, fd⟩ :: before) ev.1 := by
  rintro before ev after rfl
  exact h _ ev (after ++ tail) (by simp [hlog'])

/-- A document that was collected is an answer of the device for this key. -/
theorem collected_document (hfresh : Fresh answer) {publicKey : Bytes} {userData : Option Bytes}
    {log log' : Log} (hlog : Answered answer log) {token : AttestationToken}
    (hrun : (collect publicKey userData).run answer log = (log', .ok token)) :
    ∃ log₁ fd, answer log₁ (.getAttestationDoc fd userData none (some publicKey)) =
      .ok token.getBytes := by
  have hends := wp_run (collect_wp hfresh publicKey userData log)
  have hanswered := hlog.run (collect publicKey userData)
  rw [hrun] at hends hanswered
  obtain ⟨-, ⟨e, he⟩ | ⟨fd, more, tail, hlog', fd', hmore⟩⟩ := hends
  · cases he
  · have hadded := answered_of_ends hlog' hanswered
    rw [hmore] at hadded
    exact ⟨_, fd', (hadded [] ⟨.getAttestationDoc fd' userData none (some publicKey), _⟩ [] rfl).symm⟩

/-- A recipient decrypts what the KMS enveloped for the key pair in its document. -/
theorem Honest.recipient_eq (h : Honest kms cms answer) {log₁ log₂ : Log} {fd : Int}
    {keyPair : KeyPair} {doc forRecipient plaintext p publicKey : Bytes}
    (hkeyPair : Except.ok keyPair = answer log₁ .generateKeyPair)
    (hdoc : Except.ok doc = answer log₂ (.getAttestationDoc fd none none (some keyPair.getPublic)))
    (hkey : kms.publicKeyOf doc = some publicKey)
    (henveloped : kms.Enveloped publicKey plaintext forRecipient)
    (hcms : cms keyPair.getPrivate forRecipient = .ok p) : p = plaintext := by
  have hpublic := h.document _ _ _ _ _ _ hdoc.symm
  obtain rfl : keyPair.getPublic = publicKey := Option.some.inj (hpublic.symm.trans hkey)
  exact h.recipient _ _ _ _ hkeyPair.symm henveloped p hcms

/-- The three answers behind a request with a document. -/
theorem attested_answers {log log' more tail : Log} {fd fd' : Int} {keyPair : KeyPair} {doc : Bytes}
    {request : Event Op Ret} (hlog' : log' = log ++ ⟨.init, fd⟩ :: more ++ tail)
    (hmore : more = [⟨.generateKeyPair, .ok keyPair⟩,
      ⟨.getAttestationDoc fd' none none (some keyPair.getPublic), .ok doc⟩, request])
    (h : Answered answer log') :
    (∃ log₁, Except.ok keyPair = answer log₁ .generateKeyPair) ∧
      (∃ log₂, Except.ok doc =
        answer log₂ (.getAttestationDoc fd' none none (some keyPair.getPublic))) ∧
      ∃ log₃, request.2 = answer log₃ request.1 := by
  have hadded := answered_of_ends hlog' h
  rw [hmore] at hadded
  exact ⟨⟨_, hadded [] ⟨.generateKeyPair, _⟩ [_, _] rfl⟩,
    ⟨_, hadded [_] ⟨.getAttestationDoc fd' none none (some keyPair.getPublic), _⟩ [_] rfl⟩,
    _, hadded [_, _] request [] rfl⟩

theorem generateDataKey_honest (hfresh : Fresh answer) (h : Honest kms cms answer) {keyId : String}
    {log log' : Log} (hlog : Answered answer log) {plaintext ciphertext : Bytes}
    (hrun : (generateDataKey cms keyId).run answer log = (log', .ok (plaintext, ciphertext))) :
    kms.plaintext keyId ciphertext = some plaintext := by
  have hends := wp_run (generateDataKey_wp cms hfresh keyId log)
  have hanswered := hlog.run (generateDataKey cms keyId)
  rw [hrun] at hends hanswered
  obtain ⟨⟨-, ⟨e, he⟩ | ⟨fd, more, tail, hlog', fd', keyPair, doc, forRecipient, hmore, hcms⟩⟩, -⟩ :=
    hends
  · cases he
  · obtain ⟨⟨_, hkeyPair⟩, ⟨_, hdoc⟩, _, hrequest⟩ := attested_answers hlog' hmore hanswered
    obtain ⟨publicKey, plaintext', hkey, henveloped, hplaintext⟩ :=
      h.generated _ _ _ _ _ hrequest.symm
    rw [hplaintext, h.recipient_eq hkeyPair hdoc hkey henveloped hcms]

theorem decrypt_honest (hfresh : Fresh answer) (h : Honest kms cms answer) {keyId : String}
    {log log' : Log} (hlog : Answered answer log) {plaintext ciphertext : Bytes}
    (hrun : (decrypt cms ciphertext keyId).run answer log = (log', .ok plaintext)) :
    kms.plaintext keyId ciphertext = some plaintext := by
  have hends := wp_run (decrypt_wp cms hfresh ciphertext keyId log)
  have hanswered := hlog.run (decrypt cms ciphertext keyId)
  rw [hrun] at hends hanswered
  obtain ⟨⟨-, ⟨e, he⟩ | ⟨fd, more, tail, hlog', fd', keyPair, doc, forRecipient, hmore, hcms⟩⟩, -⟩ :=
    hends
  · cases he
  · obtain ⟨⟨_, hkeyPair⟩, ⟨_, hdoc⟩, _, hrequest⟩ := attested_answers hlog' hmore hanswered
    obtain ⟨publicKey, plaintext', hkey, henveloped, hplaintext⟩ :=
      h.decrypted _ _ _ _ _ hrequest.symm
    rw [hplaintext, h.recipient_eq hkeyPair hdoc hkey henveloped hcms]

/-- **The client refines the KMS of the provider.** In every state that a session of the clients has
led to: what `decrypt` returns or throws is an answer of the KMS that the root provider is modelled
over, and `generateDataKey` throws a `KmsException` or returns a data key and a ciphertext that this
KMS decrypts to it. -/
theorem client_refines_kms {Cert Key : Type} (w : World Cert Key)
    (hfresh : Fresh answer) (h : Honest kms cms answer) {keyId : String}
    (hw : w.kmsDecrypt = kms.plaintext keyId) (calls : List Call) {log : Log} {r₀ : Except Exn Unit}
    (hsession : (session cms calls).run answer [] = (log, r₀)) :
    (∀ ciphertext log' r, (decrypt cms ciphertext keyId).run answer log = (log', r) →
      ∃ ch : Choice, ∀ s : Store, (serve w ch s (.kmsDecrypt ciphertext)).1 = r) ∧
    ∀ log' r, (generateDataKey cms keyId).run answer log = (log', r) →
      r = .error .kms ∨
        ∃ plaintext ciphertext, r = .ok (plaintext, ciphertext) ∧
          w.kmsDecrypt ciphertext = some plaintext := by
  have hlog : Answered answer log := by
    have hanswered := (Answered.nil : Answered answer []).run (session cms calls)
    rw [hsession] at hanswered
    exact hanswered
  refine ⟨fun ciphertext log' r hrun => ?_, fun log' r hrun => ?_⟩
  · cases r with
    | error e =>
      have hkms := (wp_run (decrypt_wp cms hfresh ciphertext keyId log)).2
      rw [hrun] at hkms
      obtain rfl := hkms e rfl
      exact ⟨{ fault := .lost }, fun s => rfl⟩
    | ok plaintext =>
      refine ⟨{ fault := .none }, fun s => ?_⟩
      simp only [serve, hw, decrypt_honest hfresh h hlog hrun, getAnswer]
  · cases r with
    | error e =>
      have hkms := (wp_run (generateDataKey_wp cms hfresh keyId log)).2
      rw [hrun] at hkms
      obtain rfl := hkms e rfl
      exact .inl rfl
    | ok dataKey =>
      refine .inr ⟨dataKey.1, dataKey.2, rfl, ?_⟩
      rw [hw]
      exact generateDataKey_honest hfresh h hlog hrun

end Refinement

/-! ### A session that makes a data key and decrypts it again -/

namespace Sample

def dataKey : Bytes := List.replicate 32 0x5a

/-- A KMS with one data key. A document is a tag and the key in it, and data is enveloped by putting
the public key in front of it. -/
def kms : Kms where
  publicKeyOf doc := some (doc.drop 1)
  plaintext keyId ciphertext := if keyId = "root" ∧ ciphertext = [0xc1] then some dataKey else none
  Enveloped publicKey plaintext forRecipient := forRecipient = publicKey ++ plaintext

def cms (privateKey forRecipient : Bytes) : Except Exn Bytes :=
  if privateKey <+: forRecipient then .ok (forRecipient.drop privateKey.length)
  else .error (.security "exception unwrapping key")

def answer (log : Log) : (o : Op) → Ret o
  | .init => if descriptors.held log 3 then -1 else 3
  | .exit _ => ()
  | .getAttestationDoc _ _ _ publicKey => .ok (0xd2 :: publicKey.getD [])
  | .generateKeyPair => .ok ⟨[UInt8.ofNat log.length], [UInt8.ofNat log.length]⟩
  | .generateDataKey keyId doc =>
    if keyId = "root" then .ok ⟨some (doc.drop 1 ++ dataKey), some [0xc1]⟩ else .error .sdk
  | .decrypt ciphertext keyId doc =>
    if keyId = "root" ∧ ciphertext = [0xc1] then .ok ⟨some (doc.drop 1 ++ dataKey)⟩
    else .error .sdk

theorem fresh : Fresh answer := by
  intro log h
  simp only [answer] at h ⊢
  split at h
  · next hheld => exact absurd h (by decide)
  · next hheld =>
    rw [if_neg hheld]
    exact Bool.eq_false_iff.mpr hheld

theorem honest : Honest kms cms answer where
  document _ _ _ _ _ _ h := by cases h; rfl
  generated _ keyId doc forRecipient ciphertext h := by
    simp only [answer] at h
    split at h
    · next hkey =>
      cases h
      exact ⟨_, dataKey, rfl, rfl, if_pos ⟨hkey, rfl⟩⟩
    · cases h
  decrypted _ ciphertext keyId doc forRecipient h := by
    simp only [answer] at h
    split at h
    · next hkey =>
      cases h
      exact ⟨_, dataKey, rfl, rfl, if_pos hkey⟩
    · cases h
  recipient _ keyPair plaintext forRecipient hkeyPair henveloped p hp := by
    cases hkeyPair
    obtain rfl : forRecipient = _ := henveloped
    simp only [cms, List.prefix_append, if_true, List.drop_left, Except.ok.injEq] at hp
    exact hp.symm

/-- The world of the provider with this KMS. -/
def world : World Unit Unit where
  cert _ := ()
  key _ := ()
  token _ := ⟨[]⟩
  plaintext _ := dataKey
  ciphertext _ := [0xc1]
  kmsDecrypt := kms.plaintext "root"
  convertToPem _ := []
  generateCertificate _ := none
  getEncoded _ := []
  generatePrivate _ _ := none
  aeadEncrypt _ _ plaintext := plaintext
  aeadDecrypt _ ciphertext := some ciphertext
  certDer _ := []
  sha256 der := der
  sign _ _ := []
  publicKeyPem _ := []
  toJson _ := []

/-- The data key is made and decrypted, a key is too long for a document, another one is not. -/
def calls : List Call :=
  [.generateDataKey "root", .decrypt [0xc1] "root", .decrypt [0xc2] "root",
    .collectBoundToPubkey (List.replicate 1025 0), .collectBoundToPubkey [0x30]]

end Sample

/-- The theorem for this session: its three requests to the KMS and its document leave no descriptor
open. -/
theorem session_safe_sample :
    ((session Sample.cms Sample.calls).run Sample.answer []).1.length = 18 ∧
      ∀ fd, fd ≠ 0 →
        descriptors.held ((session Sample.cms Sample.calls).run Sample.answer []).1 fd = false :=
  ⟨by decide +kernel, (session_safe Sample.cms Sample.fresh Sample.calls (Prod.eta _).symm).2⟩

/-- After the session, the client still decrypts the ciphertext as the provider's KMS does. -/
theorem client_refines_kms_sample :
    ((decrypt Sample.cms [0xc1] "root").run Sample.answer
        ((session Sample.cms Sample.calls).run Sample.answer []).1).2 = .ok Sample.dataKey ∧
      ∃ ch : Choice, ∀ s : Store,
        (serve Sample.world ch s (.kmsDecrypt [0xc1])).1 = .ok Sample.dataKey := by
  have hok : ((decrypt Sample.cms [0xc1] "root").run Sample.answer
      ((session Sample.cms Sample.calls).run Sample.answer []).1).2 = .ok Sample.dataKey :=
    Spec.toOption_eq_some.mp (by decide +kernel)
  obtain ⟨ch, hch⟩ := (client_refines_kms Sample.world Sample.fresh Sample.honest rfl Sample.calls
    (Prod.eta _).symm).1 [0xc1] _ _ (Prod.eta _).symm
  exact ⟨hok, ch, fun s => (hch s).trans hok⟩

end Nitro
end Mbs
end TrustedCa
