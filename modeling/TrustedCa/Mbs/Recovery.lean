import TrustedCa.Mbs.CrashConsistency
import TrustedCa.Spec.Exec
import TrustedCa.Spec.Recorded

/-!
# Recovery

Whatever earlier runs left behind, the next run of which no call fails returns a root
(`restart_recovers`): the stored one if the attestation document is there, and a new one otherwise.

* `Stocked`: what is stored under the path of a root object was put there as that object of some
  generation. It holds in every state (`stocked_of_reach`), so a load that finds a certificate and
  a data key can read them, and goes on to the first object that is missing.
* `faultless`: the logic of the runs of which no call fails.
-/

namespace TrustedCa
namespace Mbs

open Spec

variable {Cert Key : Type} {w : World Cert Key} {α β : Type}

/-- Root objects are stored as some generation made them. The generations may differ. -/
def Stocked (w : World Cert Key) (s : Store) : Prop :=
  ∀ p o, p ≠ .tlogEntry → s.objects p = some o → ∃ g, o = w.part g p

/-- The calls that keep it so. -/
def Op.stocks (w : World Cert Key) : Op Cert Key → Prop
  | .putObject p o => p = .tlogEntry ∨ ∃ g, o = w.part g p
  | _ => True

variable {s s' : Store}

theorem Stocked.congr (h : Stocked w s) (ho : s'.objects = s.objects) : Stocked w s' := by
  intro p o hp hs
  exact h p o hp (ho ▸ hs)

theorem Stocked.put {p : ObjectPath} {o : Object} (h : Stocked w s)
    (ho : p = .tlogEntry ∨ ∃ g, o = w.part g p) : Stocked w (s.put p o) := by
  intro q o' hq hs
  by_cases hqp : q = p
  · subst hqp
    rw [put_same] at hs
    cases hs
    exact ho.resolve_left hq
  · rw [put_other o hqp] at hs
    exact h q o' hq hs

/-! ## The calls of the parts -/

theorem calls_perform {P : Op Cert Key → Prop} {o : Op Cert Key} (ho : P o) :
    (perform o).Calls P := .call ho fun r => .ofExcept r

theorem calls_ofOption {P : Op Cert Key → Prop} (e : Exn) (v : Option α) :
    (.ofOption e v : MbsProg Cert Key α).Calls P := by
  cases v with
  | none => exact .throw e
  | some a => exact .ret a

/-- The calls that bring the tlog entry up to date. -/
theorem calls_reconcile {P : Op Cert Key → Prop} (hhead : P (.headObject .tlogEntry))
    (hsearch : ∀ digest, P (.searchEntry digest)) (hget : ∀ i, P (.getEntry i))
    (hput : ∀ json, P (.putObject .tlogEntry ⟨json, none⟩)) (w : World Cert Key) (c : Cert) :
    (reconcileTlogArtifacts w c).Calls P := by
  have hexists : (s3ObjectExists .tlogEntry : MbsProg Cert Key Bool).Calls P :=
    .tryCatch (.bind (calls_perform hhead) fun _ => .ret true) fun e => by
      cases e with
      | noSuchKey => exact .ret false
      | _ => exact .throw _
  refine .bind hexists fun found => ?_
  cases found with
  | true => exact .ret ()
  | false =>
    refine .tryCatch (.bind ?_ fun entry => ?_) fun _ => .ret ()
    · refine .bind (calls_perform (hsearch _)) fun entryUUIDs => ?_
      cases entryUUIDs with
      | nil => exact .ret none
      | cons entryUUID => exact .bind (calls_perform (hget entryUUID)) fun _ => .ret _
    · cases entry with
      | none => exact .ret ()
      | some json => exact .bind (calls_perform (hput json)) fun _ => .ret ()

theorem calls_load (w : World Cert Key) : (loadCertificate w).Calls (Op.stocks w) := by
  unfold loadCertificate
  refine .bind (calls_perform trivial) fun certBytes => ?_
  refine .bind (calls_ofOption _ _) fun certificate => ?_
  refine .bind (calls_perform trivial) fun kmsEncryptedDataKey => ?_
  refine .bind (calls_perform trivial) fun dataKey => ?_
  refine .bind (calls_perform trivial) fun aeadEncryptedPrivateKey => ?_
  refine .bind (calls_perform trivial) fun attestationDocBytes => ?_
  refine .bind ?_ fun decryptedPrivateKey => ?_
  · unfold decrypt
    split
    · exact .throw _
    · exact calls_ofOption _ _
  refine .bind (calls_ofOption _ _) fun privateKey => ?_
  refine .bind (calls_reconcile trivial (fun _ => trivial) (fun _ => trivial) (fun _ => .inl rfl) _ _)
    fun _ => ?_
  exact .bind (calls_perform trivial) fun _ => .ret _

/-- The value of a call that may fail. -/
theorem attempt_value {f : Fault} {s₀ s₁ s₂ : Store} {v a : α} {e : Exn}
    (h : attempt f s₀ s₁ v e = (.ok a, s₂)) : a = v := by
  rcases attempt_cases h with ⟨-, ha, -⟩ | ⟨-, ha, -⟩ | ⟨-, ha, -⟩ <;> cases ha
  rfl

/-! ## What is stored -/

section Stocked

/-- Only a put changes what is stored. -/
theorem serve_stocked {o : Op Cert Key} (ho : o.stocks w) {ch : Choice} {r : Ret o}
    (h : serve w ch s o = (r, s')) (hs : Stocked w s) : Stocked w s' := by
  cases o with
  | putObject p o =>
    rcases attempt_cases h with ⟨-, -, rfl⟩ | ⟨-, -, rfl⟩ | ⟨-, -, rfl⟩
    · exact hs.put ho
    · exact hs
    · exact hs.put ho
  | generate | putEntry =>
    rcases attempt_cases h with ⟨-, -, rfl⟩ | ⟨-, -, rfl⟩ | ⟨-, -, rfl⟩
    · exact hs.congr rfl
    · exact hs
    · exact hs.congr rfl
  | generateDataKey | collectBoundToPubkey | searchEntry | getEntry =>
    rcases attempt_cases h with ⟨-, -, rfl⟩ | ⟨-, -, rfl⟩ | ⟨-, -, rfl⟩ <;> exact hs
  | getObject | headObject | kmsDecrypt | recordEvent =>
    obtain ⟨-, rfl⟩ := Prod.mk.inj h
    exact hs.congr rfl

/-- Runs one after the other. What is stored stays as some generation made it. -/
def stocking (w : World Cert Key) : Logic (Op Cert Key) Ret Store where
  step := device w fun _ _ => True
  rely s s' := s' = s
  guar s s' := Stocked w s → Stocked w s'
  pending _ _ := True

/-- The program keeps to `stocking`, and a value that it returns has `P`. -/
def Stocks (w : World Cert Key) (p : MbsProg Cert Key α) (P : α → Prop) : Prop :=
  ∀ s, wp (stocking w) p (fun r _ => ∀ a, r = .ok a → P a) s

namespace Stocks

theorem seq {p : MbsProg Cert Key α} {f : α → MbsProg Cert Key β} {P : α → Prop} {P' : β → Prop}
    (hp : Stocks w p P) (hf : ∀ a, P a → Stocks w (f a) P') : Stocks w (p >>= f) P' := by
  intro s
  rw [wp_bind]
  refine wp_mono (fun r s' h => ?_) p (hp s)
  cases r with
  | ok a => exact hf a (h a rfl) s'
  | error e => exact fun _ hr => by cases hr

theorem catching {p : MbsProg Cert Key α} {h : Exn → MbsProg Cert Key α} {P : α → Prop}
    (hp : Stocks w p P) (hh : ∀ e, Stocks w (h e) P) : Stocks w (tryCatch p h) P := by
  intro s
  rw [wp_tryCatch]
  refine wp_mono (fun r s' hr => ?_) p (hp s)
  cases r with
  | ok a => exact hr
  | error e => exact hh e s'

/-- One call, with what it returns. -/
theorem op {o : Op Cert Key} {P : Val o → Prop} (ho : o.stocks w)
    (h : ∀ ch s a s', serve w ch s o = (.ok a, s') → P a) : Stocks w (perform o) P := by
  intro s
  rw [wp_perform]
  rintro _ rfl
  refine ⟨trivial, fun r s₂ ⟨ch, _, hs⟩ => ⟨serve_stocked ho hs, fun a hr => ?_⟩⟩
  exact h ch _ a s₂ (hr ▸ hs)

theorem calls {p : MbsProg Cert Key α} (hp : p.Calls (Op.stocks w)) :
    Stocks w p fun _ => True := by
  intro s
  induction hp generalizing s with
  | ret a => exact fun _ _ => trivial
  | throw e => exact fun _ _ => trivial
  | call ho _ ih =>
    rintro _ rfl
    exact ⟨trivial, fun r s₂ ⟨ch, _, hs⟩ => ⟨serve_stocked ho hs, ih r s₂⟩⟩

end Stocks

namespace Stocks

theorem throw {e : Exn} {P : α → Prop} : Stocks w (throw e) P := fun _ _ h => by cases h

theorem pure {a : α} {P : α → Prop} (h : P a) : Stocks w (pure a) P := by
  intro s b hb
  cases hb
  exact h

/-- A call of which the value does not matter. -/
theorem perform {o : Op Cert Key} (ho : o.stocks w) : Stocks w (perform o) fun _ => True :=
  .op ho fun _ _ _ _ _ => trivial

theorem recording {p : MbsProg Cert Key α} {isFailure : Exn → Bool} {event : MbsEvent}
    {P : α → Prop} (hp : Stocks w p P) : Stocks w (recording p isFailure event) P := by
  refine .catching hp fun e => ?_
  split
  · exact .seq (.perform trivial) fun _ _ => .throw
  · exact .throw

end Stocks

theorem stocks_generateAndStore : Stocks w (generateAndStoreCertificate w) fun _ => True := by
  unfold generateAndStoreCertificate
  refine .seq (P := fun a => ∃ n, a = ⟨n, w.cert n, w.key n⟩) (.op trivial ?_) ?_
  · exact fun ch s a s' h => ⟨s.generations, attempt_value h⟩
  rintro _ ⟨n, rfl⟩
  refine .seq (P := fun a => a = w.token n) (.op trivial fun ch s a s' h => attempt_value h) ?_
  rintro _ rfl
  refine .seq (P := fun a => a = (w.plaintext n, w.ciphertext n))
    (.recording (.op trivial fun ch s a s' h => attempt_value h)) ?_
  rintro _ rfl
  refine .seq (P := fun a => a = (w.part n .aesEncryptedPrivateKey).bytes) ?_ ?_
  · unfold encrypt
    split
    · exact .throw
    · exact .pure rfl
  rintro _ rfl
  refine .seq (P := fun _ => True) (.recording ?_) fun _ _ => ?_
  · refine .seq (.perform (.inr ⟨n, rfl⟩)) fun _ _ => ?_
    refine .seq (.perform (.inr ⟨n, rfl⟩)) fun _ _ => ?_
    refine .seq (.perform (.inr ⟨n, rfl⟩)) fun _ _ => ?_
    refine .seq (.perform (.inr ⟨n, rfl⟩)) fun _ _ => ?_
    exact .pure trivial
  refine .seq (P := fun _ => True) (.catching ?_ fun _ => .throw) fun _ _ => ?_
  · refine .seq (P := fun _ => True) (.catching (.perform trivial) fun e => ?_) fun _ _ => .pure trivial
    split
    · exact .throw
    · exact .throw
  refine .seq (P := fun _ => True) (.recording ?_) fun _ _ => ?_
  · exact .seq (.perform (.inl rfl)) fun _ _ => .pure trivial
  exact .seq (.perform trivial) fun _ _ => .pure trivial

theorem stocks_main : Stocks w (executeLoadOrGenerateCertificate w) fun _ => True := by
  refine .catching (.calls (calls_load w)) fun e => ?_
  cases e with
  | noSuchKey => exact stocks_generateAndStore
  | kms | sdk => exact .seq (.perform trivial) fun _ _ => .throw
  | security | io | runtime => exact .throw

/-- However the runs fail or stop, what is stored is what some generation made. -/
theorem stocked_of_reach {log : List HashedRekordRequest} {c : Config Cert Key}
    (hr : Relation.ReflTransGen (Step w) (firstStart w log) c) : Stocked w c.1 := by
  have hrestarts : RunStep.Restarts (stocking w) (fun _ => True)
      (executeLoadOrGenerateCertificate w) (fun _ => True) fun r _ => ∀ a, r = .ok a → True :=
    ⟨fun _ => rfl, fun s _ => stocks_main s, fun _ _ _ => trivial, fun _ _ _ _ => trivial⟩
  refine (RunStep.wp_reach hrestarts (fun _ h => h) (fun h₁ h₂ h => h₂ (h₁ h)) (stocks_main _) hr).2 ?_
  intro p o _ ho
  cases ho

/-! ## Runs without faults -/

/-- What the device chooses if no call fails, and if the log finds every entry that it has where
`indexed`. -/
def Choice.Faultless (indexed : Prop) (ch : Choice) : Prop :=
  ch.fault = .none ∧ (indexed → ch.indexed = true)

def faultless (w : World Cert Key) (indexed : Prop) : Logic (Op Cert Key) Ret Store :=
  served (serve w) (Choice.Faultless indexed)

variable {indexed : Prop} {g : Nat}

theorem wp_faultless {o : Op Cert Key} {Q : Ret o → Store → Prop}
    (h : ∀ ch : Choice, ch.Faultless indexed → Q (serve w ch s o).1 (serve w ch s o).2) :
    wp (faultless w indexed) (perform o) Q s :=
  wp_served fun ch hch => (wp_ofExcept _).mpr (h ch hch)

theorem wp_stored {p : ObjectPath} {o : Object} {Q : Except Exn Bytes → Store → Prop}
    (ho : s.objects p = some o) (hQ : Q (.ok o.bytes) s) :
    wp (faultless w indexed) (perform (.getObject p)) Q s := by
  refine wp_faultless fun ch hch => ?_
  simpa [serve, getAnswer, hch.1, ho] using hQ

theorem wp_absent {p : ObjectPath} {Q : Except Exn Bytes → Store → Prop}
    (ho : s.objects p = none) (hQ : Q (.error .noSuchKey) s) :
    wp (faultless w indexed) (perform (.getObject p)) Q s := by
  refine wp_faultless fun ch hch => ?_
  simpa [serve, getAnswer, hch.1, ho] using hQ

theorem wp_decrypted {c k : Bytes} {Q : Except Exn Bytes → Store → Prop}
    (hk : w.kmsDecrypt c = some k) (hQ : Q (.ok k) s) :
    wp (faultless w indexed) (perform (.kmsDecrypt c)) Q s := by
  refine wp_faultless fun ch hch => ?_
  simpa [serve, getAnswer, hch.1, hk] using hQ

theorem wp_put {p : ObjectPath} {o : Object} {Q : Except Exn Unit → Store → Prop}
    (hQ : Q (.ok ()) (s.put p o)) : wp (faultless w indexed) (perform (.putObject p o)) Q s := by
  refine wp_faultless fun ch hch => ?_
  simpa [serve, attempt, hch.1] using hQ

theorem wp_event {e : MbsEvent} {Q : Except Exn Unit → Store → Prop}
    (hQ : Q (.ok ()) { s with events := s.events ++ [e] }) :
    wp (faultless w indexed) (perform (.recordEvent e)) Q s :=
  wp_faultless fun _ _ => hQ

/-- The state after a load of the root of generation `g`. Its tlog entry is stored then if the log
has it and can find it. -/
structure Restored (w : World Cert Key) (indexed : Prop) (g : Nat) (s s' : Store) : Prop where
  stored : Complete w s g
  complete : Complete w s' g
  generations : s'.generations = s.generations
  log : s'.log = s.log
  entry : indexed → (∃ request ∈ s.log, request.artifactDigest =
    RekorClientImpl.artifactDigest w (w.cert g)) → s'.objects .tlogEntry ≠ none

/-- The log has an entry for the certificate and finds it, or it finds none. -/
theorem wp_getTlogEntry_faultless {c : Cert} {Q : Except Exn (Option Bytes) → Store → Prop}
    (hsome : ∀ json, Q (.ok (some json)) s)
    (hnone : (indexed → ¬ ∃ request ∈ s.log, request.artifactDigest =
      RekorClientImpl.artifactDigest w c) → Q (.ok none) s) :
    wp (faultless w indexed) (RekorClientImpl.getTlogEntryByCertificate w c) Q s := by
  unfold RekorClientImpl.getTlogEntryByCertificate
  rw [wp_bind]
  refine wp_faultless fun ch hch => ?_
  simp only [serve, attempt, hch.1]
  rw [andThen_ok]
  split
  · next entryUUID rest hfound =>
    rw [wp_bind]
    refine wp_faultless fun ch' hch' => ?_
    simp only [serve, attempt, hch'.1]
    have hin : entryUUID ∈ s.entryUUIDs (RekorClientImpl.artifactDigest w c) := by
      split at hfound
      · rw [hfound]
        exact List.mem_cons_self
      · cases hfound
    obtain ⟨request, hrequest, -⟩ := mem_entryUUIDs.mp hin
    rw [andThen_ok]
    split
    · rw [hrequest]
      exact hsome _
    · next hindexed => exact hnone fun hi => absurd (hch'.2 hi) hindexed
  · next hfound =>
    refine hnone fun hindexed => ?_
    rintro ⟨request, hrequest, hdigest⟩
    rw [if_pos (hch.2 hindexed)] at hfound
    obtain ⟨i, hi⟩ := List.mem_iff_getElem?.mp hrequest
    exact List.ne_nil_of_mem (mem_entryUUIDs.mpr ⟨request, hi, hdigest⟩) hfound

theorem wp_reconcile_faultless (hc : Complete w s g) {Q : Except Exn Unit → Store → Prop}
    (hQ : ∀ s', Restored w indexed g s s' → Q (.ok ()) s') :
    wp (faultless w indexed) (reconcileTlogArtifacts w (w.cert g)) Q s := by
  unfold reconcileTlogArtifacts s3ObjectExists
  rw [wp_bind, wp_tryCatch, wp_bind]
  refine wp_faultless fun ch hch => ?_
  cases ho : s.objects .tlogEntry with
  | some o =>
    have hhead : serve w ch s (.headObject .tlogEntry) = (.ok (), s) := by
      simp [serve, getAnswer, hch.1, ho]
    rw [hhead]
    exact hQ s ⟨hc, hc, rfl, rfl, fun _ _ => by rw [ho]; exact Option.some_ne_none o⟩
  | none =>
    have hhead : serve w ch s (.headObject .tlogEntry) = (.error .noSuchKey, s) := by
      simp [serve, getAnswer, hch.1, ho]
    rw [hhead]
    show wp _ (tryCatch _ _) _ _
    rw [wp_tryCatch, wp_bind]
    refine wp_getTlogEntry_faultless (fun json => ?_) fun hnone => ?_
    · rw [andThen_ok, wp_bind]
      refine wp_put (hQ _ ⟨hc, hc.put_tlogEntry _, rfl, rfl, fun _ _ => ?_⟩)
      rw [put_same]
      exact Option.some_ne_none _
    · rw [andThen_ok]
      exact hQ s ⟨hc, hc, rfl, rfl, fun hi hl => absurd hl (hnone hi)⟩

/-- A stored root is loaded. -/
theorem wp_load_stored (hw : w.Lawful) (hkey : ∀ g, (w.plaintext g).length = 32)
    (hc : Complete w s g) :
    wp (faultless w indexed) (loadCertificate w)
      (fun r s' => r = .ok (w.root g) ∧ Restored w indexed g s s') s := by
  have hpart (p : ObjectPath) (hp : p ≠ .tlogEntry := by decide) : s.objects p = some (w.part g p) :=
    hc.2 p hp
  unfold loadCertificate
  rw [wp_bind]
  refine wp_stored (hpart .cert) ?_
  rw [andThen_ok, wp_bind]
  simp only [World.part, hw.pem]
  refine wp_ofOption (fun certificate hcert => ?_) (fun hn => by cases hn)
  cases hcert
  rw [andThen_ok, wp_bind]
  refine wp_stored (hpart .kmsEncryptedDataKey) ?_
  rw [andThen_ok, wp_bind]
  refine wp_decrypted (hw.kms g) ?_
  rw [andThen_ok, wp_bind]
  refine wp_stored (hpart .aesEncryptedPrivateKey) ?_
  rw [andThen_ok, wp_bind]
  refine wp_stored (hpart .attestationDoc) ?_
  rw [andThen_ok, wp_bind]
  unfold decrypt
  rw [if_neg (not_not_intro (hkey g))]
  simp only [World.part, hw.aead]
  refine wp_ofOption (fun m hm => ?_) (fun hn => by cases hn)
  cases hm
  rw [andThen_ok, wp_bind, hw.key]
  refine wp_ofOption (fun k hk => ?_) (fun hn => by cases hn)
  cases hk
  rw [andThen_ok, wp_bind]
  refine wp_reconcile_faultless hc fun s' hs' => ?_
  rw [andThen_ok, wp_bind]
  exact wp_event ⟨rfl, hs'.stored, hs'.complete.congr rfl (Nat.le_refl _), hs'.generations, hs'.log,
    hs'.entry⟩

/-- A load of what an unfinished generation left, or several of them, comes to an object that is
missing. -/
theorem wp_load_unfinished (hw : w.Lawful) (hs : Stocked w s)
    (ha : s.objects .attestationDoc = none) :
    wp (faultless w indexed) (loadCertificate w) (fun r s' => r = .error .noSuchKey ∧ s' = s) s := by
  have hget {p : ObjectPath} {Q : Except Exn Bytes → Store → Prop} (hp : p ≠ .tlogEntry)
      (habsent : Q (.error .noSuchKey) s) (hok : ∀ g, Q (.ok (w.part g p).bytes) s) :
      wp (faultless w indexed) (perform (.getObject p)) Q s := by
    cases ho : s.objects p with
    | none => exact wp_absent ho habsent
    | some o =>
      obtain ⟨g, rfl⟩ := hs p o hp ho
      exact wp_stored ho (hok g)
  have hmissing : (.error .noSuchKey : Except Exn (MeasurementBoundCertificate Cert Key)) =
      .error .noSuchKey ∧ s = s := ⟨rfl, rfl⟩
  unfold loadCertificate
  rw [wp_bind]
  refine hget (by decide) hmissing fun g₁ => ?_
  rw [andThen_ok, wp_bind]
  simp only [World.part, hw.pem]
  refine wp_ofOption (fun certificate _ => ?_) (fun hn => by cases hn)
  rw [andThen_ok, wp_bind]
  refine hget (by decide) hmissing fun g₂ => ?_
  rw [andThen_ok, wp_bind]
  refine wp_decrypted (hw.kms g₂) ?_
  rw [andThen_ok, wp_bind]
  refine hget (by decide) hmissing fun g₃ => ?_
  rw [andThen_ok, wp_bind]
  exact wp_absent ha hmissing

/-- The state after a new root of generation `g` is stored and recorded. -/
structure Renewed (w : World Cert Key) (g : Nat) (s s' : Store) : Prop where
  latest : g = s.generations
  complete : Complete w s' g
  generations : s'.generations = g + 1
  log : s'.log = s.log ++ [RekorClientImpl.hashedRekordRequest w (w.cert g) (w.key g)]
  entry : s'.objects .tlogEntry ≠ none

theorem wp_answered {o : Op Cert Key} {Q : Ret o → Store → Prop}
    (h : ∀ ch : Choice, ch.Faultless indexed → ∃ v s', serve w ch s o = (.ok v, s') ∧ Q (.ok v) s') :
    wp (faultless w indexed) (perform o) Q s := by
  refine wp_faultless fun ch hch => ?_
  obtain ⟨v, s', hs, hQ⟩ := h ch hch
  rw [hs]
  exact hQ

/-- A `catch` around what does not throw. -/
theorem wp_recording_ok {p : MbsProg Cert Key α} {isFailure : Exn → Bool} {event : MbsEvent}
    {Q : Except Exn α → Store → Prop}
    (hp : wp (faultless w indexed) p (fun r s' => (∃ a, r = .ok a) ∧ Q r s') s) :
    wp (faultless w indexed) (recording p isFailure event) Q s := by
  unfold recording
  rw [wp_tryCatch]
  refine wp_mono (fun r s' h => ?_) p hp
  obtain ⟨⟨a, rfl⟩, hQ⟩ := h
  exact hQ

theorem wp_generateAndStore_faultless (hkey : ∀ g, (w.plaintext g).length = 32) :
    wp (faultless w indexed) (generateAndStoreCertificate w)
      (fun r s' => r = .ok (w.root s.generations) ∧ Renewed w s.generations s s') s := by
  unfold generateAndStoreCertificate
  rw [wp_bind]
  refine wp_answered fun ch hch => ⟨_, _, by rw [serve, hch.1]; rfl, ?_⟩
  rw [andThen_ok, wp_bind]
  refine wp_answered fun ch hch => ⟨_, _, by rw [serve, hch.1]; rfl, ?_⟩
  rw [andThen_ok, wp_bind]
  refine wp_recording_ok (wp_answered fun ch hch => ⟨_, _, by rw [serve, hch.1]; rfl, ⟨_, rfl⟩, ?_⟩)
  rw [andThen_ok, wp_bind]
  unfold encrypt
  rw [if_neg (not_not_intro (hkey _)), wp_pure, andThen_ok, wp_bind]
  refine wp_recording_ok ?_
  rw [wp_bind]
  refine wp_put ?_
  rw [andThen_ok, wp_bind]
  refine wp_put ?_
  rw [andThen_ok, wp_bind]
  refine wp_put ?_
  rw [andThen_ok, wp_bind]
  refine wp_put ⟨⟨(), rfl⟩, ?_⟩
  have hc := complete_puts (w := w)
    (s := { s with generations := s.generations + 1 }) (Nat.lt_succ_self s.generations)
  unfold RekorClientImpl.recordCertificate
  rw [andThen_ok, wp_bind, wp_tryCatch, wp_bind, wp_tryCatch]
  refine wp_answered fun ch hch => ⟨_, _, by rw [serve, hch.1]; rfl, ?_⟩
  rw [orElse_ok, andThen_ok, wp_pure, orElse_ok, andThen_ok, wp_bind]
  refine wp_recording_ok ?_
  rw [wp_bind]
  refine wp_put ⟨⟨(), rfl⟩, ?_⟩
  rw [andThen_ok, wp_bind]
  refine wp_event ⟨rfl, rfl, ?_, rfl, rfl, ?_⟩
  · exact ((hc.congr rfl (Nat.le_refl _)).put_tlogEntry _).congr rfl (Nat.le_refl _)
  · simp [Store.put]

/-- A run without faults on a stored root. -/
theorem wp_main_stored (hw : w.Lawful) (hkey : ∀ g, (w.plaintext g).length = 32)
    (hc : Complete w s g) :
    wp (faultless w indexed) (executeLoadOrGenerateCertificate w)
      (fun r s' => r = .ok (w.root g) ∧ Restored w indexed g s s') s := by
  unfold executeLoadOrGenerateCertificate
  rw [wp_tryCatch]
  refine wp_mono (fun r s' h => ?_) _ (wp_load_stored hw hkey hc)
  obtain ⟨rfl, hrestored⟩ := h
  exact ⟨rfl, hrestored⟩

/-- A run without faults, from whatever runs may leave. -/
theorem wp_recover (hw : w.Lawful) (hkey : ∀ g, (w.plaintext g).length = 32)
    (hcons : Consistent w s) (hs : Stocked w s) :
    wp (faultless w indexed) (executeLoadOrGenerateCertificate w)
      (fun r s' => ∃ g, r = .ok (w.root g) ∧
        (s.objects .attestationDoc ≠ none ∧ Restored w indexed g s s' ∨
          s.objects .attestationDoc = none ∧ Renewed w g s s')) s := by
  by_cases ha : s.objects .attestationDoc = none
  · unfold executeLoadOrGenerateCertificate
    rw [wp_tryCatch]
    refine wp_mono (fun r s' h => ?_) _ (wp_load_unfinished hw hs ha)
    obtain ⟨rfl, rfl⟩ := h
    rw [orElse_error]
    refine wp_mono (fun r s₂ h => ?_) _ (wp_generateAndStore_faultless hkey)
    exact ⟨_, h.1, .inr ⟨ha, h.2⟩⟩
  · obtain ⟨g, hc⟩ := hcons.1 ha
    refine wp_mono (fun r s' h => ?_) _ (wp_main_stored hw hkey hc)
    exact ⟨g, h.1, .inl ⟨ha, h.2⟩⟩

/-- **Recovery.** Whatever earlier runs left, a run of which no call fails returns a root. If there is
an attestation document it is the stored root, and neither the log nor the root objects change. If
there is none it is a new root, which is stored and recorded. Every later run of which no call fails
returns the same. -/
theorem restart_recovers (w : World Cert Key) (hw : w.Lawful)
    (hkey : ∀ g, (w.plaintext g).length = 32) (log : List HashedRekordRequest) (c : Config Cert Key)
    (hr : Relation.ReflTransGen (Step w) (firstStart w log) c) (indexed : Prop)
    (chs : Nat → Choice) (hchs : ∀ n, (chs n).Faultless indexed) :
    ∃ g s', (executeLoadOrGenerateCertificate w).exec (serve w) chs c.1 = (s', .ok (w.root g)) ∧
      (c.1.objects .attestationDoc ≠ none ∧ Restored w indexed g c.1 s' ∨
        c.1.objects .attestationDoc = none ∧ Renewed w g c.1 s') ∧
      ∀ chs' : Nat → Choice, (∀ n, (chs' n).Faultless False) →
        ((executeLoadOrGenerateCertificate w).exec (serve w) chs' s').2 = .ok (w.root g) := by
  obtain ⟨hwp, -⟩ := wp_runs False hw (wp_firstStart False hw log) (reach_of_step hr)
  obtain ⟨g, hroot, hend⟩ :=
    wp_exec hchs (wp_recover hw hkey (consistent_of_wp hwp) (stocked_of_reach hr))
  refine ⟨g, _, Prod.ext rfl hroot, hend, fun chs' hchs' => ?_⟩
  have hc : Complete w ((executeLoadOrGenerateCertificate w).exec (serve w) chs c.1).1 g := by
    rcases hend with ⟨-, h⟩ | ⟨-, h⟩
    · exact h.complete
    · exact h.complete
  exact (wp_exec hchs' (wp_main_stored hw hkey hc)).1

end Stocked

/-- The first run stops before the record. -/
theorem restart_recovers_unrecorded :
    ∃ g s', (executeLoadOrGenerateCertificate countingWorld).exec (serve countingWorld) (fun _ => {})
        (calls countingWorld 8 (firstStart countingWorld [])).1 = (s', .ok (countingWorld.root g)) ∧
      ((calls countingWorld 8 (firstStart countingWorld [])).1.objects .attestationDoc ≠ none ∧
          Restored countingWorld True g (calls countingWorld 8 (firstStart countingWorld [])).1 s' ∨
        (calls countingWorld 8 (firstStart countingWorld [])).1.objects .attestationDoc = none ∧
          Renewed countingWorld g (calls countingWorld 8 (firstStart countingWorld [])).1 s') ∧
      ∀ chs' : Nat → Choice, (∀ n, (chs' n).Faultless False) →
        ((executeLoadOrGenerateCertificate countingWorld).exec (serve countingWorld) chs' s').2 =
          .ok (countingWorld.root g) :=
  restart_recovers countingWorld countingWorld_lawful (fun _ => List.length_replicate) [] _
    (reach_calls_step 8 _) True _ fun _ => ⟨rfl, fun _ => rfl⟩

end Mbs
end TrustedCa
