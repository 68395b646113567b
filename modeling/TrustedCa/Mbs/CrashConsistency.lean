import TrustedCa.Mbs.Rules

/-!
# Crashes and failed calls

The runs of the provider one after the other, each stopped or failing anywhere.

* `wp_main`: the specification of `executeLoadOrGenerateCertificate`, from the specifications of its
  parts.
* `stored_root_one_generation`: the stored root is never a mix of generations.
* `returned_root_recorded`: in strict runs a returned root is in the transparency log.
  `unrecorded_root_returned` is a run that is not strict: it stops between the put of the
  attestation document and the record, and the next run returns a root that was never recorded.
-/

namespace TrustedCa
namespace Mbs

open Spec

variable {Cert Key : Type} {w : World Cert Key} {strict : Prop}
  {s : Store} {g : Nat} {α β : Type}

/-- The end of a part of the provider: `P` if it returns, and a state to stop in if it throws. -/
def Ends (w : World Cert Key) (strict : Prop) (P : α → Store → Prop) :
    Except Exn α → Store → Prop
  | .ok a, s => P a s
  | .error _, s => Stoppable w strict s

/-- The end of a run: a returned root is the one that is stored then. -/
def RootEnds (w : World Cert Key) (strict : Prop) :
    Except Exn (MeasurementBoundCertificate Cert Key) → Store → Prop :=
  Ends w strict fun root s => Stoppable w strict s ∧ ∃ g, Complete w s g ∧ root = w.root g

theorem wp_seq {p : MbsProg Cert Key α} {f : α → MbsProg Cert Key β}
    {P : α → Store → Prop} {P' : β → Store → Prop}
    (hp : wp (sequential w strict) p (Ends w strict P) s)
    (hf : ∀ a s', P a s' → wp (sequential w strict) (f a) (Ends w strict P') s') :
    wp (sequential w strict) (p >>= f) (Ends w strict P') s := by
  rw [wp_bind]
  refine wp_mono (fun r s' h => ?_) p hp
  cases r with
  | ok a => exact hf a s' h
  | error e => exact h

/-- An event is recorded, and an exception is thrown. -/
theorem wp_rethrow {event : MbsEvent} {e : Exn} {P : α → Store → Prop}
    (h : Stoppable w strict s) :
    wp (sequential w strict) (do
      let _ ← perform (.recordEvent event)
      throw e) (Ends w strict P) s := by
  rw [wp_bind]
  exact wp_recordEvent h (h.congr rfl rfl (List.Subset.refl _))

/-- A `catch` that records an event and throws again. -/
theorem wp_recording {p : MbsProg Cert Key α} {isFailure : Exn → Bool} {event : MbsEvent}
    {P : α → Store → Prop} (hp : wp (sequential w strict) p (Ends w strict P) s) :
    wp (sequential w strict) (recording p isFailure event) (Ends w strict P) s := by
  unfold recording
  rw [wp_tryCatch]
  refine wp_mono (fun r s' h => ?_) p hp
  cases r with
  | ok a => exact h
  | error e =>
    rw [orElse_error]
    split
    · exact wp_rethrow h
    · exact h

/-! ## Loading -/

/-- The end of a load from the complete root of generation `g`. -/
def Loaded (w : World Cert Key) (strict : Prop) (g : Nat) (P : α → Prop) :
    Except Exn α → Store → Prop
  | .ok a, s => P a ∧ Stoppable w strict s ∧ Complete w s g
  | .error e, s => e ≠ .noSuchKey ∧ Stoppable w strict s

theorem wp_reconcile (h : Stoppable w strict s) (hc : Complete w s g) :
    wp (sequential w strict) (reconcileTlogArtifacts w (w.cert g))
      (Loaded w strict g fun _ => True) s := by
  have hdone : Loaded w strict g (fun _ : Unit => True) (.ok ()) s := ⟨trivial, h, hc⟩
  unfold reconcileTlogArtifacts s3ObjectExists
  rw [wp_bind, wp_tryCatch, wp_bind]
  refine wp_headObject h fun r => ?_
  match r with
  | .ok _ => exact hdone
  | .error .sdk => exact ⟨Exn.noConfusion, h⟩
  | .error .kms => exact ⟨Exn.noConfusion, h⟩
  | .error (.security _) => exact ⟨Exn.noConfusion, h⟩
  | .error (.io _) => exact ⟨Exn.noConfusion, h⟩
  | .error (.runtime _) => exact ⟨Exn.noConfusion, h⟩
  | .error .noSuchKey =>
    -- The entry is missing: whatever goes wrong from here on is only logged.
    show wp _ (tryCatch _ _) _ _
    rw [wp_tryCatch, wp_bind]
    refine wp_getTlogEntryByCertificate h (fun json hjson => ?_) hdone (fun e => hdone)
    have hput : Loaded w strict g (fun _ : Unit => True) (.ok ())
        (s.put .tlogEntry ⟨json, none⟩) :=
      ⟨trivial, h.put_tlogEntry hc hjson, hc.put_tlogEntry _⟩
    rw [andThen_ok, wp_bind]
    exact wp_putObject h (fun g' hg' => hg'.put_tlogEntry _) hput hdone fun _ => hput

/-- A load with the four objects of one generation returns its root, or fails without a missing
object. -/
theorem wp_load_complete (hw : w.Lawful) (h : Stoppable w strict s) (hc : Complete w s g) :
    wp (sequential w strict) (loadCertificate w) (Loaded w strict g (· = w.root g)) s := by
  have hget {p : ObjectPath} (hp : p ≠ .tlogEntry)
      {Q : Except Exn Bytes → Store → Prop} (hok : Q (.ok (w.part g p).bytes) s)
      (herr : Q (.error .sdk) s) : wp (sequential w strict) (perform (.getObject p)) Q s := by
    refine wp_getObject h (fun o ho => ?_) (fun hn => ?_) herr
    · rw [hc.2 p hp] at ho
      cases ho
      exact hok
    · rw [hc.2 p hp] at hn; cases hn
  have hsdk : Loaded w strict g (· = w.root g) (.error .sdk) s := ⟨Exn.noConfusion, h⟩
  unfold loadCertificate
  rw [wp_bind]
  refine hget (by decide) ?_ hsdk
  rw [andThen_ok, wp_bind]
  simp only [World.part, hw.pem]
  refine wp_ofOption (fun certificate hcert => ?_) (fun hn => by cases hn)
  cases hcert
  rw [andThen_ok, wp_bind]
  refine hget (by decide) ?_ hsdk
  rw [andThen_ok, wp_bind]
  refine wp_kmsDecrypt h (fun dataKey hkey => ?_) ⟨Exn.noConfusion, h⟩
  simp only [World.part, hw.kms, Option.some.injEq] at hkey
  subst hkey
  rw [andThen_ok, wp_bind]
  refine hget (by decide) ?_ hsdk
  rw [andThen_ok, wp_bind]
  refine hget (by decide) ?_ hsdk
  rw [andThen_ok]
  simp only [World.part]
  rw [wp_bind]
  unfold decrypt
  split
  · exact ⟨Exn.noConfusion, h⟩
  · rw [hw.aead]
    refine wp_ofOption (fun m hm => ?_) (fun hn => by cases hn)
    cases hm
    rw [andThen_ok, wp_bind, hw.key]
    refine wp_ofOption (fun k hk => ?_) (fun hn => by cases hn)
    cases hk
    rw [andThen_ok, wp_bind]
    refine wp_mono (fun r s' hr => ?_) _ (wp_reconcile h hc)
    cases r with
    | error e => exact hr
    | ok _ =>
      obtain ⟨-, h', hc'⟩ := hr
      rw [andThen_ok, wp_bind]
      exact wp_recordEvent h'
        ⟨rfl, h'.congr rfl rfl (List.Subset.refl _), hc'.congr rfl (Nat.le_refl _)⟩

/-- A load without an attestation document fails and changes nothing. -/
theorem wp_load_incomplete (h : Stoppable w strict s) (ha : s.objects .attestationDoc = none) :
    wp (sequential w strict) (loadCertificate w) (fun r s' => s' = s ∧ ∀ a, r ≠ .ok a) s := by
  have hfail {e : Exn} : s = s ∧ ∀ a : MeasurementBoundCertificate Cert Key,
      (.error e : Except Exn _) ≠ .ok a := ⟨rfl, fun a h => by cases h⟩
  unfold loadCertificate
  rw [wp_bind]
  refine wp_getObject h (fun o₁ _ => ?_) (fun _ => hfail) hfail
  rw [andThen_ok, wp_bind]
  refine wp_ofOption (fun certificate _ => ?_) (fun _ => hfail)
  rw [andThen_ok, wp_bind]
  refine wp_getObject h (fun o₂ _ => ?_) (fun _ => hfail) hfail
  rw [andThen_ok, wp_bind]
  refine wp_kmsDecrypt h (fun dataKey _ => ?_) hfail
  rw [andThen_ok, wp_bind]
  refine wp_getObject h (fun o₃ _ => ?_) (fun _ => hfail) hfail
  rw [andThen_ok, wp_bind]
  refine wp_getObject h (fun o₄ ho₄ => ?_) (fun _ => hfail) hfail
  rw [ha] at ho₄; cases ho₄

/-! ## Generating -/

/-- A put of a root object before the attestation document. -/
theorem wp_put_fresh {p : ObjectPath} {o : Object} (h : Fresh s) (ha : p ≠ .attestationDoc)
    (ht : p ≠ .tlogEntry) :
    wp (sequential w strict) (perform (.putObject p o))
      (Ends w strict fun _ s' => s' = s.put p o) s :=
  wp_putObject h.stoppable (fun _ hc => absurd hc (not_complete h.1)) rfl h.stoppable
    fun _ => (h.put o ha ht).stoppable

/-- The puts of the root objects: the attestation document completes the root. -/
theorem wp_storeRoot {n : Nat} (h : Fresh s) (hn : n < s.generations) :
    wp (sequential w strict) (do
      let _ ← perform (.putObject .aesEncryptedPrivateKey (w.part n .aesEncryptedPrivateKey))
      let _ ← perform (.putObject .kmsEncryptedDataKey (w.part n .kmsEncryptedDataKey))
      let _ ← perform (.putObject .cert (w.part n .cert))
      let _ ← perform (.putObject .attestationDoc (w.part n .attestationDoc))
      return ())
      (Ends w strict fun _ s' => Consistent w s' ∧ Complete w s' n) s := by
  refine wp_seq (wp_put_fresh h (by decide) (by decide)) ?_
  rintro _ _ rfl
  have h₁ := h.put (p := .aesEncryptedPrivateKey) (w.part n .aesEncryptedPrivateKey) (by decide)
    (by decide)
  refine wp_seq (wp_put_fresh h₁ (by decide) (by decide)) ?_
  rintro _ _ rfl
  have h₂ := h₁.put (p := .kmsEncryptedDataKey) (w.part n .kmsEncryptedDataKey) (by decide) (by decide)
  refine wp_seq (wp_put_fresh h₂ (by decide) (by decide)) ?_
  rintro _ _ rfl
  have h₃ := h₂.put (p := .cert) (w.part n .cert) (by decide) (by decide)
  have hc := complete_puts (w := w) hn
  have hcons := hc.consistent ((put_other _ (by decide)).trans h₃.2)
  refine wp_seq (P := fun _ s' => Consistent w s' ∧ Complete w s' n) ?_ fun _ _ hP => hP
  refine wp_putObject h₃.stoppable (fun _ hg => absurd hg (not_complete h₃.1)) ⟨hcons, hc⟩
    h₃.stoppable fun hst => ⟨hcons, fun hs => absurd ⟨hs, rfl⟩ hst⟩

/-- `recordCertificate` of the stored root. An exception that it throws is thrown as another one. -/
theorem wp_register {n : Nat} (h : Consistent w s) (hc : Complete w s n) {f : Exn → Exn} :
    wp (sequential w strict) (tryCatch
      (RekorClientImpl.recordCertificate w (w.cert n) (w.key n)) fun e => throw (f e))
      (Ends w strict fun json s' => IsTlogEntry w s' (w.cert n) json ∧
        Stoppable w strict s' ∧ Complete w s' n) s := by
  generalize hs' : { s with log := s.log ++
    [RekorClientImpl.hashedRekordRequest w (w.cert n) (w.key n)] } = s'
  have hin : RekorClientImpl.hashedRekordRequest w (w.cert n) (w.key n) ∈ s'.log := by
    rw [← hs']
    exact List.mem_append_right _ (List.mem_singleton_self _)
  have hc' : Complete w s' n := by
    rw [← hs']
    exact hc.congr rfl (Nat.le_refl _)
  have hstop : Stoppable w strict s' := by
    refine ⟨?_, fun _ g hg => ?_⟩
    · rw [← hs']
      exact h.congr rfl rfl (List.subset_append_left _ _)
    · rw [hg.unique hc']
      exact hin
  rw [wp_tryCatch]
  refine wp_recordCertificate h ?_ ?_ fun hst e => ⟨h, fun hs => absurd hs hst⟩
  · rw [hs']
    exact fun i => ⟨⟨_, hin, i, rfl, rfl⟩, hstop, hc'⟩
  · rw [hs']
    exact fun e => hstop

/-- `generateAndStoreCertificate` without a stored root: it returns the root that it stored, or it
throws in a state to stop in. -/
theorem wp_generateAndStore (h : Fresh s) :
    wp (sequential w strict) (generateAndStoreCertificate w)
      (RootEnds w strict) s := by
  unfold generateAndStoreCertificate
  refine wp_seq (P := fun a s' => a = ⟨s.generations, w.cert s.generations, w.key s.generations⟩ ∧
    Fresh s' ∧ s.generations < s'.generations) ?_ ?_
  · refine wp_generate h.stoppable ⟨rfl, h, Nat.lt_succ_self _⟩ fun e s' ho _ _ => ?_
    exact Fresh.stoppable (by unfold Fresh; rw [ho]; exact h)
  generalize s.generations = n
  rintro _ s ⟨rfl, h, hn⟩
  dsimp only
  refine wp_seq (P := fun a s' => a = w.token n ∧ s = s') ?_ ?_
  · exact wp_collectBoundToPubkey h.stoppable ⟨rfl, rfl⟩ fun m => h.stoppable
  rintro _ _ ⟨rfl, rfl⟩
  refine wp_seq (P := fun a s' => a = (w.plaintext n, w.ciphertext n) ∧ s = s') ?_ ?_
  · exact wp_recording (wp_generateDataKey h.stoppable ⟨rfl, rfl⟩ h.stoppable)
  rintro _ _ ⟨rfl, rfl⟩
  refine wp_seq (P := fun a s' => a = (w.part n .aesEncryptedPrivateKey).bytes ∧ s = s') ?_ ?_
  · unfold encrypt
    split
    · exact h.stoppable
    · exact ⟨rfl, rfl⟩
  rintro _ _ ⟨rfl, rfl⟩
  refine wp_seq (wp_recording (wp_storeRoot h hn)) ?_
  rintro _ s₁ ⟨hcons, hc⟩
  refine wp_seq (wp_register hcons hc) ?_
  rintro json s₂ ⟨hjson, h₂, hc₂⟩
  have hput := h₂.put_tlogEntry hc₂ (o := ⟨json, some n⟩) hjson
  refine wp_seq (P := fun _ s' => Stoppable w strict s' ∧ Complete w s' n) (wp_recording ?_) ?_
  · refine wp_seq (P := fun _ s' => Stoppable w strict s' ∧ Complete w s' n) ?_ fun _ _ hP => hP
    exact wp_putObject h₂ (fun g hg => hg.put_tlogEntry _) ⟨hput, hc₂.put_tlogEntry _⟩ h₂
      fun _ => hput
  rintro _ s₃ ⟨h₃, hc₃⟩
  rw [wp_bind]
  exact wp_recordEvent h₃
    ⟨h₃.congr rfl rfl (List.Subset.refl _), n, hc₃.congr rfl (Nat.le_refl _), rfl⟩

/-- **`executeLoadOrGenerateCertificate`**, from a state to stop in: it returns the root that is
stored then, or it throws in a state to stop in. -/
theorem wp_main (hw : w.Lawful) (h : Stoppable w strict s) :
    wp (sequential w strict) (executeLoadOrGenerateCertificate w)
      (RootEnds w strict) s := by
  unfold executeLoadOrGenerateCertificate
  rw [wp_tryCatch]
  by_cases ha : s.objects .attestationDoc = none
  · refine wp_mono (fun r s' hr => ?_) _ (wp_load_incomplete h ha)
    obtain ⟨rfl, hr⟩ := hr
    match r with
    | .ok a => exact absurd rfl (hr a)
    | .error .noSuchKey => exact wp_generateAndStore (h.1.fresh ha)
    | .error .kms => exact wp_rethrow h
    | .error .sdk => exact wp_rethrow h
    | .error (.security m) => exact h
    | .error (.io m) => exact h
    | .error (.runtime m) => exact h
  · obtain ⟨g, hc⟩ := h.1.1 ha
    refine wp_mono (fun r s' hr => ?_) _ (wp_load_complete hw h hc)
    match r with
    | .ok root => exact ⟨hr.2.1, g, hr.2.2, hr.1⟩
    | .error .noSuchKey => exact absurd rfl hr.1
    | .error .kms => exact wp_rethrow hr.2
    | .error .sdk => exact wp_rethrow hr.2
    | .error (.security m) => exact hr.2
    | .error (.io m) => exact hr.2
    | .error (.runtime m) => exact hr.2

/-! ## Runs one after the other -/

/-- A device state and what is left of the present run. -/
abbrev Config (Cert Key : Type) :=
  Store × MbsProg Cert Key (MeasurementBoundCertificate Cert Key)

/-- The runs of the provider: any call may fail, and a run may be stopped before any call. -/
def Step (w : World Cert Key) : Config Cert Key → Config Cert Key → Prop :=
  RunStep (device w fun _ _ => True) (fun _ => True) (executeLoadOrGenerateCertificate w)

/-- The runs that do not end between the put of the attestation document and the record of the
root: such a put fails only without effect, `putEntry` only with effect, and no run is stopped before
`putEntry`. -/
def StrictStep (w : World Cert Key) : Config Cert Key → Config Cert Key → Prop :=
  RunStep (device w (faults True)) (mayStop True) (executeLoadOrGenerateCertificate w)

theorem StrictStep.step {c c' : Config Cert Key} (h : StrictStep w c c') : Step w c c' :=
  h.mono (fun _ _ _ _ ⟨ch, _, hs⟩ => ⟨ch, trivial, hs⟩) fun _ _ => trivial

/-- The first start: empty buckets, and a transparency log with any entries. -/
def firstStart (w : World Cert Key) (log : List HashedRekordRequest) : Config Cert Key :=
  ({ log := log }, executeLoadOrGenerateCertificate w)

theorem restarts (hw : w.Lawful) :
    RunStep.Restarts (sequential w strict) (mayStop strict) (executeLoadOrGenerateCertificate w)
      (Stoppable w strict) (RootEnds w strict) where
  alone _ := rfl
  main _ h := wp_main hw h
  ended r s h := by
    cases r with
    | ok root => exact h.1
    | error e => exact h
  stopped o s hm hp := ⟨hp.1, fun hs => hp.2 hs (hm hs)⟩

/-- What holds in every configuration, and what stays from one to a later one. -/
theorem wp_runs (strict : Prop) (hw : w.Lawful) {c c' : Config Cert Key}
    (h : wp (sequential w strict) c.2 (RootEnds w strict) c.1)
    (hr : Relation.ReflTransGen (RunStep (device w (faults strict)) (mayStop strict)
      (executeLoadOrGenerateCertificate w)) c c') :
    wp (sequential w strict) c'.2 (RootEnds w strict) c'.1 ∧
      ∀ g, Complete w c.1 g → Complete w c'.1 g :=
  RunStep.wp_reach (restarts hw) (fun _ _ hc => hc) (fun h₁ h₂ g hc => h₂ g (h₁ g hc)) h hr

theorem wp_firstStart (strict : Prop) (hw : w.Lawful) (log : List HashedRekordRequest) :
    wp (sequential w strict) (firstStart w log).2 (RootEnds w strict) (firstStart w log).1 :=
  wp_main hw (Fresh.stoppable ⟨rfl, rfl⟩)

/-- Before every call and at every end the buckets are consistent. -/
theorem consistent_of_wp {c : Config Cert Key}
    (h : wp (sequential w strict) c.2 (RootEnds w strict) c.1) :
    Consistent w c.1 := by
  obtain ⟨s, p⟩ := c
  cases p with
  | ret root => exact h.1.1
  | throw e => exact h.1
  | call o k => exact (h s rfl).1.1

theorem reach_of_step {c c' : Config Cert Key} (h : Relation.ReflTransGen (Step w) c c') :
    Relation.ReflTransGen (RunStep (device w (faults False)) (mayStop False)
      (executeLoadOrGenerateCertificate w)) c c' := by
  refine Relation.ReflTransGen.mono (r := Step w) (fun a b hs => ?_) c c' h
  exact RunStep.mono (fun _ _ _ _ ⟨ch, _, hs⟩ => ⟨ch, False.elim, hs⟩) (fun _ _ => False.elim) hs

/-- **Crash consistency.** However the runs fail or stop: an attestation document comes with the
three other root objects of its generation; a returned root is that of one generation; once an
attestation document exists, every returned root is that of its generation; and a stored tlog entry
is an entry of the log for the stored certificate. -/
theorem stored_root_one_generation (w : World Cert Key) (hw : w.Lawful) (log : List HashedRekordRequest)
    (c : Config Cert Key) (hr : Relation.ReflTransGen (Step w) (firstStart w log) c) :
    (∀ o, c.1.objects .attestationDoc = some o → ∃ g, o.origin = some g ∧ Complete w c.1 g) ∧
      (∀ root, c.2 = .ret root → ∃ g, g < c.1.generations ∧ root = w.root g) ∧
      (∀ o g, c.1.objects .attestationDoc = some o → o.origin = some g →
        ∀ c' root, Relation.ReflTransGen (Step w) c c' → c'.2 = .ret root → root = w.root g) ∧
      ∀ o, c.1.objects .tlogEntry = some o →
        ∃ g, Complete w c.1 g ∧ IsTlogEntry w c.1 (w.cert g) o.bytes := by
  obtain ⟨hwp, -⟩ := wp_runs False hw (wp_firstStart False hw log) (reach_of_step hr)
  have hcons := consistent_of_wp hwp
  have horigin {o : Object} (ho : c.1.objects .attestationDoc = some o) :
      ∃ g, o.origin = some g ∧ Complete w c.1 g := by
    obtain ⟨g, hc⟩ := hcons.1 (by rw [ho]; exact Option.some_ne_none o)
    rw [hc.2 .attestationDoc (by decide)] at ho
    cases ho
    exact ⟨g, rfl, hc⟩
  refine ⟨fun o ho => horigin ho, fun root hp => ?_, fun o g ho hg c' root hr' hp => ?_, hcons.2⟩
  · rw [hp] at hwp
    obtain ⟨-, g, hc, rfl⟩ := hwp
    exact ⟨g, hc.1, rfl⟩
  · obtain ⟨g', hg', hc⟩ := horigin ho
    obtain rfl : g' = g := by rw [hg] at hg'; exact (Option.some.inj hg').symm
    obtain ⟨hwp', hstay⟩ := wp_runs False hw hwp (reach_of_step hr')
    rw [hp] at hwp'
    obtain ⟨-, g'', hc'', rfl⟩ := hwp'
    rw [hc''.unique (hstay _ hc)]

/-- **Root transparency.** In every run whose steps are all strict, a returned root is in the
transparency log, in an entry that is signed with its key. -/
theorem returned_root_recorded (w : World Cert Key) (hw : w.Lawful) (log : List HashedRekordRequest)
    (c : Config Cert Key) (hr : Relation.ReflTransGen (StrictStep w) (firstStart w log) c)
    (root : MeasurementBoundCertificate Cert Key) (hp : c.2 = .ret root) :
    RekorClientImpl.hashedRekordRequest w root.certificate root.privateKey ∈ c.1.log := by
  obtain ⟨hwp, -⟩ := wp_runs True hw (wp_firstStart True hw log) hr
  rw [hp] at hwp
  obtain ⟨hst, g, hc, rfl⟩ := hwp
  exact hst.2 trivial g hc

/-! ## Runs of a small world -/

/-- The next `n` calls of the present run, without faults. -/
def calls (w : World Cert Key) : Nat → Config Cert Key → Config Cert Key
  | 0, c => c
  | n + 1, (s, .call o k) => calls w n ((serve w {} s o).2, k (serve w {} s o).1)
  | _ + 1, c => c

theorem reach_calls (n : Nat) (c : Config Cert Key) :
    Relation.ReflTransGen (StrictStep w) c (calls w n c) := by
  induction n generalizing c with
  | zero => exact .refl
  | succ n ih =>
    obtain ⟨s, p⟩ := c
    cases p with
    | ret root => exact .refl
    | throw e => exact .refl
    | call o k =>
      have hf : faults True o Fault.none := by
        intro _
        split <;> trivial
      exact .head (.call ⟨{}, hf, rfl⟩) (ih _)

theorem reach_calls_step (n : Nat) (c : Config Cert Key) :
    Relation.ReflTransGen (Step w) c (calls w n c) :=
  Relation.ReflTransGen.mono (r := StrictStep w) (fun _ _ hs => hs.step) c _ (reach_calls n c)

/-- A world in which certificates and keys are numbers, written as that many zero bytes. -/
def countingWorld : World Nat Nat where
  cert g := g
  key g := g
  token g := ⟨List.replicate g 0⟩
  plaintext _ := List.replicate 32 0
  ciphertext g := List.replicate g 0
  kmsDecrypt _ := some (List.replicate 32 0)
  convertToPem c := List.replicate c 0
  generateCertificate b := some b.length
  getEncoded k := List.replicate k 0
  generatePrivate _ b := some b.length
  aeadEncrypt _ _ m := m
  aeadDecrypt _ m := some m
  certDer c := List.replicate c 0
  sha256 der := der
  sign k der := List.replicate k 1 ++ der
  publicKeyPem c := List.replicate c 2
  toJson entry := entry.body.artifactDigest ++ entry.body.publicKeyPem ++ entry.body.signature

theorem countingWorld_lawful : countingWorld.Lawful where
  pem g := by simp [countingWorld]
  kms _ := rfl
  aead _ _ := rfl
  key g := by simp [countingWorld]

theorem stored_root_one_generation_first :
    ∃ o g, (calls countingWorld 8 (firstStart countingWorld [])).1.objects .attestationDoc = some o ∧
      o.origin = some g ∧
      Complete countingWorld (calls countingWorld 8 (firstStart countingWorld [])).1 g := by
  have hstored := (stored_root_one_generation countingWorld countingWorld_lawful [] _
    (reach_calls_step 8 _)).1
  cases ho : (calls countingWorld 8 (firstStart countingWorld [])).1.objects .attestationDoc with
  | none => exact absurd ho (by decide)
  | some o =>
    obtain ⟨g, hg, hc⟩ := hstored o ho
    exact ⟨o, g, rfl, hg, hc⟩

/-- The first run stops before it puts anything. The second one generates a root, and the third one
loads it. -/
theorem returned_root_recorded_first :
    RekorClientImpl.hashedRekordRequest countingWorld 1 1 ∈
      (calls countingWorld 8 ((calls countingWorld 11
        ((calls countingWorld 4 (firstStart countingWorld [])).1,
          executeLoadOrGenerateCertificate countingWorld)).1,
        executeLoadOrGenerateCertificate countingWorld)).1.log := by
  have hstop := reach_calls (w := countingWorld) 4 (firstStart countingWorld [])
  have hsecond := (hstop.tail (.start fun o k h hst => by cases h; rfl)).trans (reach_calls 11 _)
  have hthird := (hsecond.tail (.start fun o k h => by cases h)).trans (reach_calls 8 _)
  exact returned_root_recorded countingWorld countingWorld_lawful [] _ hthird
    (countingWorld.root 1) rfl

/-- The first run stops before the record. The second one finds the root in the buckets and no entry
for it in the log, and returns the root. -/
theorem unrecorded_root_returned :
    ∃ (c : Config Nat Nat) (root : MeasurementBoundCertificate Nat Nat),
      Relation.ReflTransGen (Step countingWorld) (firstStart countingWorld []) c ∧
      c.2 = .ret root ∧ ∀ request ∈ c.1.log,
        request.artifactDigest ≠ RekorClientImpl.artifactDigest countingWorld root.certificate := by
  refine ⟨calls countingWorld 8 ((calls countingWorld 8 (firstStart countingWorld [])).1,
    executeLoadOrGenerateCertificate countingWorld), countingWorld.root 0, ?_, rfl, by decide⟩
  have hstop := reach_calls_step (w := countingWorld) 8 (firstStart countingWorld [])
  exact (hstop.tail (.start fun _ _ _ => trivial)).trans (reach_calls_step 8 _)

end Mbs
end TrustedCa
