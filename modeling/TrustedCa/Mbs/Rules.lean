import TrustedCa.Mbs.Provider

/-!
# What one call of the provider does

The device as a step relation (`device`), with the faults that a result allows, and the rules of
the sequential logic: runs of the provider one after the other, each of which may be stopped before
any call.

* `Complete w s g`: the four root objects are those of generation `g`.
* `Consistent`: an attestation document is only there with the three other objects of its
  generation, and a tlog entry only with the root that it is for. It holds before every call.
* `Recorded`: the stored root is in the transparency log. It holds before every call but `putEntry`
  if the runs are `strict`: no call fails between the put of the attestation document and the record,
  and no run stops there.
-/

namespace TrustedCa
namespace Mbs

open Spec

variable {Cert Key : Type} {w : World Cert Key}

/-- The calls of the device, with the faults that `allow` lets happen. -/
def device (w : World Cert Key) (allow : Op Cert Key → Fault → Prop)
    (o : Op Cert Key) (s : Store) (r : Ret o) (s' : Store) : Prop :=
  ∃ ch : Choice, allow o ch.fault ∧ serve w ch s o = (r, s')

theorem wp_perform {L : Logic (Op Cert Key) Ret Store} {o : Op Cert Key}
    {Q : Ret o → Store → Prop} {s : Store} :
    wp L (perform o) Q s ↔ ∀ s₁, L.rely s s₁ → L.pending o s₁ ∧
      ∀ r s₂, L.step o s₁ r s₂ → L.guar s₁ s₂ ∧ Q r s₂ := by
  simp only [perform, wp_call, wp_ofExcept]

theorem attempt_cases {α : Type} {f : Fault} {s s' s₂ : Store} {v : α} {e : Exn}
    {r : Except Exn α} (h : attempt f s s' v e = (r, s₂)) :
    (f = .none ∧ r = .ok v ∧ s₂ = s') ∨ (f = .lost ∧ r = .error e ∧ s₂ = s) ∨
      (f = .unacknowledged ∧ r = .error e ∧ s₂ = s') := by
  cases f <;> simp only [attempt, Prod.mk.injEq] at h <;> simp [h.1, h.2]

/-- The answer of a call that does not fail. -/
theorem attempt_ok {α : Type} {f : Fault} {s s' s₂ : Store} {v : α} {e : Exn}
    {r : Except Exn α} (hf : f = .none) (h : attempt f s s' v e = (r, s₂)) :
    r = .ok v ∧ s₂ = s' := by
  rcases attempt_cases h with ⟨-, hr, hs⟩ | ⟨hl, -⟩ | ⟨hu, -⟩
  · exact ⟨hr, hs⟩
  · rw [hf] at hl; cases hl
  · rw [hf] at hu; cases hu

theorem getAnswer_cases {α : Type} {f : Fault} {v : Option α} {absent e : Exn} {r : Except Exn α}
    (h : getAnswer f v absent e = r) :
    (f = .none ∧ ∃ a, v = some a ∧ r = .ok a) ∨ (f = .none ∧ v = none ∧ r = .error absent) ∨
      (f ≠ .none ∧ r = .error e) := by
  subst h
  cases f <;> cases v <;> simp [getAnswer]

/-! ## The root objects -/

/-- The objects that generation `g` stores. -/
def World.part (w : World Cert Key) (g : Nat) : ObjectPath → Object
  | .aesEncryptedPrivateKey =>
    ⟨w.aeadEncrypt (w.plaintext g) g (w.getEncoded (w.key g)), some g⟩
  | .kmsEncryptedDataKey => ⟨w.ciphertext g, some g⟩
  | .cert => ⟨w.convertToPem (w.cert g), some g⟩
  | .attestationDoc => ⟨(w.token g).getBytes, some g⟩
  | .tlogEntry =>
    ⟨w.toJson ⟨RekorClientImpl.hashedRekordRequest w (w.cert g) (w.key g), 0⟩, some g⟩

/-- The root of generation `g`. -/
def World.root (w : World Cert Key) (g : Nat) : MeasurementBoundCertificate Cert Key :=
  ⟨w.cert g, w.key g, w.token g⟩

/-- The four root objects are those of one call of `generateAndStoreCertificate`, the `g`-th. -/
def Complete (w : World Cert Key) (s : Store) (g : Nat) : Prop :=
  g < s.generations ∧ ∀ p, p ≠ .tlogEntry → s.objects p = some (w.part g p)

/-- What the libraries and the KMS promise: PEM, keys and tokens are read back, and decryption
inverts the encryption of the same generation. -/
structure World.Lawful (w : World Cert Key) : Prop where
  pem : ∀ g, w.generateCertificate (w.convertToPem (w.cert g)) = some (w.cert g)
  kms : ∀ g, w.kmsDecrypt (w.ciphertext g) = some (w.plaintext g)
  aead : ∀ g m, w.aeadDecrypt (w.plaintext g) (w.aeadEncrypt (w.plaintext g) g m) = some m
  key : ∀ g, w.generatePrivate (w.cert g) (w.getEncoded (w.key g)) = some (w.key g)

/-- The text is an entry for the certificate that the log has. -/
def IsTlogEntry (w : World Cert Key) (s : Store) (certificate : Cert) (entryJson : Bytes) : Prop :=
  ∃ request ∈ s.log, ∃ logIndex, request.artifactDigest = RekorClientImpl.artifactDigest w certificate ∧
    entryJson = w.toJson ⟨request, logIndex⟩

/-- An attestation document comes with the other root objects of its generation, and a tlog entry
with the root that it is for. -/
def Consistent (w : World Cert Key) (s : Store) : Prop :=
  (s.objects .attestationDoc ≠ none → ∃ g, Complete w s g) ∧
    ∀ o, s.objects .tlogEntry = some o → ∃ g, Complete w s g ∧ IsTlogEntry w s (w.cert g) o.bytes

/-- The stored root is in the transparency log, signed with its own key. -/
def Recorded (w : World Cert Key) (s : Store) : Prop :=
  ∀ g, Complete w s g → RekorClientImpl.hashedRekordRequest w (w.cert g) (w.key g) ∈ s.log

variable {s s' : Store} {g : Nat}

theorem Complete.congr (h : Complete w s g) (ho : s'.objects = s.objects)
    (hg : s.generations ≤ s'.generations) : Complete w s' g :=
  ⟨Nat.lt_of_lt_of_le h.1 hg, by rw [ho]; exact h.2⟩

/-- A store holds the root of one generation at most. -/
theorem Complete.unique {g' : Nat} (h : Complete w s g) (h' : Complete w s g') : g = g' := by
  have hp := (h.2 .cert (by decide)).symm.trans (h'.2 .cert (by decide))
  simp only [World.part, Option.some.injEq, Object.mk.injEq] at hp
  exact hp.2

theorem not_complete (h : s.objects .attestationDoc = none) : ¬ Complete w s g := by
  intro hc
  rw [hc.2 .attestationDoc (by decide)] at h
  cases h

@[simp] theorem put_same (p : ObjectPath) (o : Object) : (s.put p o).objects p = some o := by
  simp [Store.put]

theorem put_other {p q : ObjectPath} (o : Object) (h : q ≠ p) :
    (s.put p o).objects q = s.objects q := by
  simp [Store.put, h]

/-- The tlog entry is not one of the root objects. -/
theorem Complete.put_tlogEntry (h : Complete w s g) (o : Object) :
    Complete w (s.put .tlogEntry o) g :=
  ⟨h.1, fun p hp => (put_other o hp).trans (h.2 p hp)⟩

/-! ## The sequential logic -/

def Op.isRecord : Op Cert Key → Bool
  | .putEntry _ => true
  | _ => false

/-- The faults of strict runs: the put of the attestation document is acknowledged if it took
effect, and a record that fails took effect. -/
def faults (strict : Prop) (o : Op Cert Key) (f : Fault) : Prop :=
  strict → match o, f with
    | .putObject .attestationDoc _, .unacknowledged => False
    | .putEntry _, .lost => False
    | _, _ => True

/-- Where runs may stop: strict runs do not stop before the record. -/
def mayStop (strict : Prop) (o : Op Cert Key) : Prop := strict → o.isRecord = false

/-- What holds before a run and wherever it may stop. -/
def Stoppable (w : World Cert Key) (strict : Prop) (s : Store) : Prop :=
  Consistent w s ∧ (strict → Recorded w s)

theorem IsTlogEntry.mono {certificate : Cert} {entryJson : Bytes}
    (h : IsTlogEntry w s certificate entryJson) (hl : s.log ⊆ s'.log) :
    IsTlogEntry w s' certificate entryJson := by
  obtain ⟨request, hrequest, h⟩ := h
  exact ⟨request, hl hrequest, h⟩

/-- The log may have grown. -/
theorem Consistent.congr (h : Consistent w s) (ho : s'.objects = s.objects)
    (hg : s'.generations = s.generations) (hl : s.log ⊆ s'.log) : Consistent w s' := by
  refine ⟨fun ha => ?_, fun o hto => ?_⟩
  · obtain ⟨g, hc⟩ := h.1 (ho ▸ ha)
    exact ⟨g, hc.congr ho (Nat.le_of_eq hg.symm)⟩
  · obtain ⟨g, hc, hentry⟩ := h.2 o (ho ▸ hto)
    exact ⟨g, hc.congr ho (Nat.le_of_eq hg.symm), hentry.mono hl⟩

theorem Stoppable.congr {strict : Prop} (h : Stoppable w strict s) (ho : s'.objects = s.objects)
    (hg : s'.generations = s.generations) (hl : s.log ⊆ s'.log) : Stoppable w strict s' := by
  refine ⟨h.1.congr ho hg hl, fun hst g hc => hl (h.2 hst g ?_)⟩
  exact hc.congr ho.symm (Nat.le_of_eq hg)

/-- An entry for the stored root may be stored. -/
theorem Stoppable.put_tlogEntry {strict : Prop} (h : Stoppable w strict s) (hc : Complete w s g)
    {o : Object} (ho : IsTlogEntry w s (w.cert g) o.bytes) :
    Stoppable w strict (s.put .tlogEntry o) := by
  refine ⟨⟨fun _ => ⟨g, hc.put_tlogEntry o⟩, fun o' ho' => ?_⟩, fun hst g' hc' => ?_⟩
  · rw [put_same] at ho'
    cases ho'
    exact ⟨g, hc.put_tlogEntry o, ho⟩
  · rw [hc'.unique (hc.put_tlogEntry o)]
    exact h.2 hst g hc

/-- No root is complete: the attestation document, which is stored last, is missing. -/
def Fresh (s : Store) : Prop :=
  s.objects .attestationDoc = none ∧ s.objects .tlogEntry = none

theorem Consistent.fresh (h : Consistent w s) (ha : s.objects .attestationDoc = none) : Fresh s := by
  refine ⟨ha, Option.eq_none_iff_forall_not_mem.mpr fun o ho => ?_⟩
  obtain ⟨g, hc, -⟩ := h.2 o ho
  exact not_complete ha hc

theorem Fresh.stoppable {strict : Prop} (h : Fresh s) : Stoppable w strict s := by
  refine ⟨⟨fun ha => absurd h.1 ha, fun o ho => ?_⟩, fun _ g hc => absurd hc (not_complete h.1)⟩
  rw [h.2] at ho; cases ho

theorem Fresh.put {p : ObjectPath} (h : Fresh s) (o : Object) (ha : p ≠ .attestationDoc)
    (ht : p ≠ .tlogEntry) : Fresh (s.put p o) :=
  ⟨(put_other o ha.symm).trans h.1, (put_other o ht.symm).trans h.2⟩

/-- The four root objects of generation `n` are put, the attestation document last. -/
theorem complete_puts {n : Nat} (hn : n < s.generations) :
    Complete w ((((s.put .aesEncryptedPrivateKey (w.part n .aesEncryptedPrivateKey)).put
      .kmsEncryptedDataKey (w.part n .kmsEncryptedDataKey)).put .cert (w.part n .cert)).put
      .attestationDoc (w.part n .attestationDoc)) n := by
  refine ⟨hn, fun p hp => ?_⟩
  cases p with
  | tlogEntry => exact absurd rfl hp
  | _ => simp [Store.put]

theorem Complete.consistent (hc : Complete w s g) (ht : s.objects .tlogEntry = none) :
    Consistent w s :=
  ⟨fun _ => ⟨g, hc⟩, fun o ho => by rw [ht] at ho; cases ho⟩

/-- Runs one after the other. A complete root stays. -/
def sequential (w : World Cert Key) (strict : Prop) :
    Logic (Op Cert Key) Ret Store where
  step := device w (faults strict)
  rely s s' := s' = s
  guar s s' := ∀ g, Complete w s g → Complete w s' g
  pending o s := Consistent w s ∧ (strict → o.isRecord = false → Recorded w s)

section Sequential

variable {strict : Prop}

theorem wp_alone {o : Op Cert Key} {Q : Ret o → Store → Prop}
    (hp : (sequential w strict).pending o s)
    (h : ∀ ch r s₂, faults strict o ch.fault → serve w ch s o = (r, s₂) →
      (∀ g, Complete w s g → Complete w s₂ g) ∧ Q r s₂) :
    wp (sequential w strict) (perform o) Q s := by
  rw [wp_perform]
  rintro s₁ rfl
  exact ⟨hp, fun r s₂ ⟨ch, hf, hs⟩ => h ch r s₂ hf hs⟩

theorem Stoppable.pending (h : Stoppable w strict s) (o : Op Cert Key) :
    (sequential w strict).pending o s := ⟨h.1, fun hs _ => h.2 hs⟩

theorem wp_getObject {p : ObjectPath} {Q : Except Exn Bytes → Store → Prop}
    (h : Stoppable w strict s) (hok : ∀ o, s.objects p = some o → Q (.ok o.bytes) s)
    (habsent : s.objects p = none → Q (.error .noSuchKey) s) (herr : Q (.error .sdk) s) :
    wp (sequential w strict) (perform (.getObject p)) Q s := by
  refine wp_alone (h.pending _) fun ch r s₂ _ hs => ?_
  obtain ⟨ha, rfl⟩ := Prod.mk.inj hs
  refine ⟨fun g hg => hg, ?_⟩
  rcases getAnswer_cases ha with ⟨-, b, hb, rfl⟩ | ⟨-, hn, rfl⟩ | ⟨-, rfl⟩
  · obtain ⟨o, ho, rfl⟩ := Option.map_eq_some_iff.mp hb
    exact hok o ho
  · exact habsent (Option.map_eq_none_iff.mp hn)
  · exact herr

theorem wp_headObject {p : ObjectPath} {Q : Except Exn Unit → Store → Prop}
    (h : Stoppable w strict s) (hQ : ∀ r, Q r s) :
    wp (sequential w strict) (perform (.headObject p)) Q s := by
  refine wp_alone (h.pending _) fun ch r s₂ _ hs => ?_
  obtain ⟨-, rfl⟩ := Prod.mk.inj hs
  exact ⟨fun g hg => hg, hQ r⟩

theorem wp_kmsDecrypt {c : Bytes} {Q : Except Exn Bytes → Store → Prop}
    (h : Stoppable w strict s) (hok : ∀ b, w.kmsDecrypt c = some b → Q (.ok b) s)
    (herr : Q (.error .kms) s) : wp (sequential w strict) (perform (.kmsDecrypt c)) Q s := by
  refine wp_alone (h.pending _) fun ch r s₂ _ hs => ?_
  obtain ⟨ha, rfl⟩ := Prod.mk.inj hs
  refine ⟨fun g hg => hg, ?_⟩
  rcases getAnswer_cases ha with ⟨-, b, hb, rfl⟩ | ⟨-, -, rfl⟩ | ⟨-, rfl⟩
  · exact hok b hb
  · exact herr
  · exact herr

theorem wp_putObject {p : ObjectPath} {o : Object} {Q : Except Exn Unit → Store → Prop}
    (h : Stoppable w strict s) (hg : ∀ g, Complete w s g → Complete w (s.put p o) g)
    (hok : Q (.ok ()) (s.put p o)) (hlost : Q (.error .sdk) s)
    (hput : ¬ (strict ∧ p = .attestationDoc) → Q (.error .sdk) (s.put p o)) :
    wp (sequential w strict) (perform (.putObject p o)) Q s := by
  refine wp_alone (h.pending _) fun ch r s₂ hf hs => ?_
  rcases attempt_cases hs with ⟨-, rfl, rfl⟩ | ⟨-, rfl, rfl⟩ | ⟨hu, rfl, rfl⟩
  · exact ⟨hg, hok⟩
  · exact ⟨fun g hg => hg, hlost⟩
  · refine ⟨hg, hput ?_⟩
    rintro ⟨hst, rfl⟩
    rw [hu] at hf
    exact hf hst

theorem wp_recordEvent {e : MbsEvent} {Q : Except Exn Unit → Store → Prop}
    (h : Stoppable w strict s) (hQ : Q (.ok ()) { s with events := s.events ++ [e] }) :
    wp (sequential w strict) (perform (.recordEvent e)) Q s := by
  refine wp_alone (h.pending _) fun ch r s₂ _ hs => ?_
  obtain ⟨rfl, rfl⟩ := Prod.mk.inj hs
  exact ⟨fun g hc => hc.congr rfl (Nat.le_refl _), hQ⟩

/-- The search finds the entries for a certificate, and the log has what it finds. -/
theorem mem_entryUUIDs {artifactDigest : Bytes} {i : Nat} :
    i ∈ s.entryUUIDs artifactDigest ↔
      ∃ request, s.log[i]? = some request ∧ request.artifactDigest = artifactDigest := by
  simp only [Store.entryUUIDs, List.mem_reverse, List.mem_filter, List.mem_range]
  constructor
  · rintro ⟨hi, hany⟩
    rw [List.getElem?_eq_getElem hi] at hany ⊢
    exact ⟨_, rfl, of_decide_eq_true hany⟩
  · rintro ⟨request, hi, hdigest⟩
    rw [hi]
    exact ⟨(List.getElem?_eq_some_iff.mp hi).1, decide_eq_true hdigest⟩

/-- `getTlogEntryByCertificate` returns an entry for the certificate, if any. -/
theorem wp_getTlogEntryByCertificate {c : Cert} {Q : Except Exn (Option Bytes) → Store → Prop}
    (h : Stoppable w strict s) (hsome : ∀ json, IsTlogEntry w s c json → Q (.ok (some json)) s)
    (hnone : Q (.ok none) s) (herr : ∀ e, Q (.error e) s) :
    wp (sequential w strict) (RekorClientImpl.getTlogEntryByCertificate w c) Q s := by
  unfold RekorClientImpl.getTlogEntryByCertificate
  rw [wp_bind]
  refine wp_alone (h.pending _) fun ch r s₂ _ hs => ?_
  rcases attempt_cases hs with ⟨-, rfl, rfl⟩ | ⟨-, rfl, rfl⟩ | ⟨-, rfl, rfl⟩
  · refine ⟨fun g hg => hg, ?_⟩
    rw [andThen_ok]
    split
    · next entryUUID rest hfound =>
      rw [wp_bind]
      refine wp_alone (h.pending _) fun ch' r s₃ _ hs => ?_
      rcases attempt_cases hs with ⟨-, rfl, rfl⟩ | ⟨-, rfl, rfl⟩ | ⟨-, rfl, rfl⟩
      · refine ⟨fun g hg => hg, ?_⟩
        rw [andThen_ok]
        have hin : entryUUID ∈ s₃.entryUUIDs (RekorClientImpl.artifactDigest w c) := by
          split at hfound
          · rw [hfound]
            exact List.mem_cons_self
          · cases hfound
        obtain ⟨request, hrequest, hdigest⟩ := mem_entryUUIDs.mp hin
        split
        · rw [hrequest]
          exact hsome _ ⟨request, List.mem_of_getElem? hrequest, _, hdigest, rfl⟩
        · exact hnone
      · exact ⟨fun g hg => hg, herr _⟩
      · exact ⟨fun g hg => hg, herr _⟩
    · exact hnone
  · exact ⟨fun g hg => hg, herr _⟩
  · exact ⟨fun g hg => hg, herr _⟩

/-- A call that changes no state and fails with an exception that is not told apart. -/
theorem wp_collectBoundToPubkey {n : Nat} {c : Cert}
    {Q : Except Exn AttestationToken → Store → Prop} (h : Stoppable w strict s)
    (hok : Q (.ok (w.token n)) s) (herr : ∀ m, Q (.error (.runtime m)) s) :
    wp (sequential w strict) (perform (.collectBoundToPubkey n c)) Q s := by
  refine wp_alone (h.pending _) fun ch r s₂ _ hs => ?_
  rcases attempt_cases hs with ⟨-, rfl, rfl⟩ | ⟨-, rfl, rfl⟩ | ⟨-, rfl, rfl⟩
  · exact ⟨fun g hg => hg, hok⟩
  · exact ⟨fun g hg => hg, herr _⟩
  · exact ⟨fun g hg => hg, herr _⟩

theorem wp_generateDataKey {n : Nat} {Q : Except Exn (Bytes × Bytes) → Store → Prop}
    (h : Stoppable w strict s) (hok : Q (.ok (w.plaintext n, w.ciphertext n)) s)
    (herr : Q (.error .kms) s) :
    wp (sequential w strict) (perform (.generateDataKey n)) Q s := by
  refine wp_alone (h.pending _) fun ch r s₂ _ hs => ?_
  rcases attempt_cases hs with ⟨-, rfl, rfl⟩ | ⟨-, rfl, rfl⟩ | ⟨-, rfl, rfl⟩
  · exact ⟨fun g hg => hg, hok⟩
  · exact ⟨fun g hg => hg, herr⟩
  · exact ⟨fun g hg => hg, herr⟩

theorem wp_generate {Q : Except Exn (Generated Cert Key) → Store → Prop}
    (h : Stoppable w strict s)
    (hok : Q (.ok ⟨s.generations, w.cert s.generations, w.key s.generations⟩)
      { s with generations := s.generations + 1 })
    (herr : ∀ e s', s'.objects = s.objects → s'.log = s.log → s.generations ≤ s'.generations →
      Q (.error e) s') :
    wp (sequential w strict) (perform .generate) Q s := by
  refine wp_alone (h.pending _) fun ch r s₂ _ hs => ?_
  have hg : ∀ g, Complete w s g → Complete w { s with generations := s.generations + 1 } g :=
    fun g hc => hc.congr rfl (Nat.le_succ _)
  rcases attempt_cases hs with ⟨-, rfl, rfl⟩ | ⟨-, rfl, rfl⟩ | ⟨-, rfl, rfl⟩
  · exact ⟨hg, hok⟩
  · exact ⟨fun g hg => hg, herr _ _ rfl rfl (Nat.le_refl _)⟩
  · exact ⟨hg, herr _ _ rfl rfl (Nat.le_succ _)⟩

/-- `recordCertificate`, the one call before which the stored root need not be in the log. -/
theorem wp_recordCertificate {c : Cert} {k : Key} {Q : Except Exn Bytes → Store → Prop}
    (h : Consistent w s)
    (hok : ∀ i, Q (.ok (w.toJson ⟨RekorClientImpl.hashedRekordRequest w c k, i⟩))
      { s with log := s.log ++ [RekorClientImpl.hashedRekordRequest w c k] })
    (herr : ∀ e, Q (.error e)
      { s with log := s.log ++ [RekorClientImpl.hashedRekordRequest w c k] })
    (hlost : ¬ strict → ∀ e, Q (.error e) s) :
    wp (sequential w strict) (RekorClientImpl.recordCertificate w c k) Q s := by
  unfold RekorClientImpl.recordCertificate
  rw [wp_bind, wp_tryCatch]
  refine wp_alone ⟨h, fun _ hr => by cases hr⟩ fun ch r s₂ hf hs => ?_
  have hg : ∀ g, Complete w s g → Complete w
      { s with log := s.log ++ [RekorClientImpl.hashedRekordRequest w c k] } g :=
    fun g hc => hc.congr rfl (Nat.le_refl _)
  rcases attempt_cases hs with ⟨-, rfl, rfl⟩ | ⟨hl, rfl, rfl⟩ | ⟨-, rfl, rfl⟩
  · exact ⟨hg, hok _⟩
  · refine ⟨fun g hg => hg, ?_⟩
    rw [hl] at hf
    rw [orElse_error]
    split
    · exact hlost (fun hst => hf hst) _
    · exact hlost (fun hst => hf hst) _
  · refine ⟨hg, ?_⟩
    rw [orElse_error]
    split
    · exact herr _
    · exact herr _

end Sequential

end Mbs
end TrustedCa
