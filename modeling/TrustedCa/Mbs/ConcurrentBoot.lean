import TrustedCa.Mbs.CrashConsistency

/-!
# Two instances that boot at the same time

Two instances of the provider over the same empty buckets, with their calls interleaved in any way
and none failing. Nothing orders the instances, so both may generate a root.

* `two_roots`: they do, the buckets end up with objects of both, and each instance holds its own
  root.
* `one_generation`: if only one of them generated a root, the other one loaded it: both hold the
  root that is stored. The proof is by rely and guarantee: each instance only adds objects of
  the one generation.
-/

namespace TrustedCa
namespace Mbs

open Spec

variable {Cert Key : Type} {w : World Cert Key} {s s' : Store}

/-- At most one root was generated, and every root object comes from it. -/
structure OneGeneration (w : World Cert Key) (s : Store) : Prop where
  atMostOne : s.generations ≤ 1
  part : ∀ p, p ≠ .tlogEntry → ∀ o, s.objects p = some o → o = w.part 0 p ∧ 0 < s.generations

/-- What an instance does to the buckets, and may rely on of the other one: root objects are only
added, and only by the one generation. -/
structure Grows (w : World Cert Key) (s s' : Store) : Prop where
  generations : s.generations ≤ s'.generations
  objects : ∀ p, p ≠ .tlogEntry → s.objects p ≠ none → s'.objects p ≠ none
  one : OneGeneration w s → OneGeneration w s'

namespace Grows

theorem refl (s : Store) : Grows w s s := ⟨Nat.le_refl _, fun _ _ h => h, id⟩

theorem trans {s₁ s₂ s₃ : Store} (h : Grows w s₁ s₂) (h' : Grows w s₂ s₃) : Grows w s₁ s₃ :=
  ⟨Nat.le_trans h.generations h'.generations,
    fun p hp ho => h'.objects p hp (h.objects p hp ho), fun ho => h'.one (h.one ho)⟩

/-- A call that leaves the root objects and the generations alone. -/
theorem of_eq (ho : ∀ p, p ≠ .tlogEntry → s'.objects p = s.objects p)
    (hg : s'.generations = s.generations) : Grows w s s' := by
  refine ⟨Nat.le_of_eq hg.symm, fun p hp h => by rw [ho p hp]; exact h, fun h => ⟨?_, ?_⟩⟩
  · rw [hg]; exact h.atMostOne
  · intro p hp o hpo
    rw [hg]
    exact h.part p hp o (ho p hp ▸ hpo)

theorem put {p : ObjectPath} (hg : 0 < s.generations) : Grows w s (s.put p (w.part 0 p)) := by
  refine ⟨Nat.le_refl _, fun q hq h => ?_, fun h => ⟨h.atMostOne, fun q hq o ho => ?_⟩⟩
  · by_cases hqp : q = p
    · rw [hqp, put_same]; exact Option.some_ne_none _
    · rw [put_other _ hqp]; exact h
  · by_cases hqp : q = p
    · rw [hqp, put_same] at ho
      cases ho
      exact ⟨hqp ▸ rfl, hg⟩
    · rw [put_other _ hqp] at ho
      exact h.part q hq o ho

end Grows

/-- The root objects of the one generation that an instance knows to be there. -/
structure Holds (w : World Cert Key) (ps : List ObjectPath) (s : Store) : Prop where
  one : OneGeneration w s
  generated : 0 < s.generations
  there : ∀ p ∈ ps, s.objects p ≠ none

theorem Holds.grow {ps : List ObjectPath} (h : Holds w ps s) (hps : .tlogEntry ∉ ps)
    (hg : Grows w s s') : Holds w ps s' :=
  ⟨hg.one h.one, Nat.lt_of_lt_of_le h.generated hg.generations,
    fun p hp => hg.objects p (fun he => hps (he ▸ hp)) (h.there p hp)⟩

theorem Holds.cons {p : ObjectPath} {ps : List ObjectPath} (h : Holds w [p] s) (h' : Holds w ps s) :
    Holds w (p :: ps) s :=
  ⟨h.one, h.generated, fun q hq => by
    rcases List.mem_cons.mp hq with rfl | hq
    · exact h.there q (List.mem_singleton_self q)
    · exact h'.there q hq⟩

/-- The four root objects, in the order in which they are read back. -/
def rootPaths : List ObjectPath :=
  [.attestationDoc, .aesEncryptedPrivateKey, .kmsEncryptedDataKey, .cert]

theorem Holds.complete (h : Holds w rootPaths s) : Complete w s 0 := by
  refine ⟨h.generated, fun p hp => ?_⟩
  have hin : p ∈ rootPaths := by cases p <;> first | decide | exact absurd rfl hp
  obtain ⟨o, ho⟩ := Option.ne_none_iff_exists'.mp (h.there p hin)
  rw [ho, (h.one.part p hp o ho).1]

section Concurrent

/-- Instances that run at the same time, without faults, as long as only one root is generated. -/
def concurrent (w : World Cert Key) : Logic (Op Cert Key) Ret Store where
  step o s r s' := device w (fun _ f => f = .none) o s r s' ∧ s'.generations ≤ 1
  rely := Grows w
  guar := Grows w
  pending _ _ := True

theorem wp_shared {o : Op Cert Key} {Q : Ret o → Store → Prop}
    (h : ∀ s₁, Grows w s s₁ → ∀ ch r s₂, ch.fault = .none → serve w ch s₁ o = (r, s₂) →
      s₂.generations ≤ 1 → Grows w s₁ s₂ ∧ Q r s₂) :
    wp (concurrent w) (perform o) Q s := by
  rw [wp_perform]
  exact fun s₁ hg => ⟨trivial, fun r s₂ ⟨⟨ch, hf, hs⟩, h1⟩ => h s₁ hg ch r s₂ hf hs h1⟩

/-- A get finds the object of the one generation, or nothing. -/
theorem wp_get_shared {p : ObjectPath} (hp : p ≠ .tlogEntry)
    {Q : Except Exn Bytes → Store → Prop} (h : OneGeneration w s)
    (hok : ∀ s₁, Grows w s s₁ → Holds w [p] s₁ → Q (.ok (w.part 0 p).bytes) s₁)
    (habsent : ∀ s₁, OneGeneration w s₁ → Q (.error .noSuchKey) s₁) :
    wp (concurrent w) (perform (.getObject p)) Q s := by
  refine wp_shared fun s₁ hg ch r s₂ hf hs _ => ?_
  obtain ⟨ha, rfl⟩ := Prod.mk.inj hs
  refine ⟨.refl _, ?_⟩
  have h₁ := hg.one h
  rcases getAnswer_cases ha with ⟨-, b, hb, rfl⟩ | ⟨-, -, rfl⟩ | ⟨hn, -⟩
  · obtain ⟨o, ho, rfl⟩ := Option.map_eq_some_iff.mp hb
    obtain ⟨rfl, hpos⟩ := h₁.part p hp o ho
    refine hok s₁ hg ⟨h₁, hpos, fun q hq => ?_⟩
    rw [List.mem_singleton.mp hq, ho]
    exact Option.some_ne_none _
  · exact habsent s₁ h₁
  · exact absurd hf hn

/-- A call that answers `v` and leaves the root objects and the generations alone. -/
theorem wp_quiet {o : Op Cert Key} {Q : Ret o → Store → Prop}
    (h : ∀ s₁, Grows w s s₁ → ∀ ch r s₂, ch.fault = .none → serve w ch s₁ o = (r, s₂) →
      (∀ p, p ≠ .tlogEntry → s₂.objects p = s₁.objects p) ∧ s₂.generations = s₁.generations ∧
        (Grows w s s₂ → Q r s₂)) :
    wp (concurrent w) (perform o) Q s := by
  refine wp_shared fun s₁ hg ch r s₂ hf hs _ => ?_
  obtain ⟨ho, hgen, hQ⟩ := h s₁ hg ch r s₂ hf hs
  have hq : Grows w s₁ s₂ := .of_eq ho hgen
  exact ⟨hq, hQ (hg.trans hq)⟩

/-- The end of a part that cannot fail. -/
def Succeeds {α : Type} (P : α → Store → Prop) : Except Exn α → Store → Prop
  | .ok a, s => P a s
  | .error _, _ => False

theorem wp_then {α β : Type} {p : MbsProg Cert Key α} {f : α → MbsProg Cert Key β}
    {P : α → Store → Prop} {Q : Except Exn β → Store → Prop}
    (hp : wp (concurrent w) p (Succeeds P) s)
    (hf : ∀ a s', P a s' → wp (concurrent w) (f a) Q s') : wp (concurrent w) (p >>= f) Q s := by
  rw [wp_bind]
  refine wp_mono (fun r s' h => ?_) p hp
  cases r with
  | ok a => exact hf a s' h
  | error e => exact h.elim

/-- The handler of a part that cannot fail. -/
theorem wp_try {α : Type} {p : MbsProg Cert Key α} {handler : Exn → MbsProg Cert Key α}
    {P : α → Store → Prop} (hp : wp (concurrent w) p (Succeeds P) s) :
    wp (concurrent w) (tryCatch p handler) (Succeeds P) s := by
  rw [wp_tryCatch]
  refine wp_mono (fun r s' h => ?_) p hp
  cases r with
  | ok a => exact h
  | error e => exact h.elim

section Instance

variable {ps : List ObjectPath}

theorem wp_event_shared {e : MbsEvent} (h : Holds w ps s) (hps : .tlogEntry ∉ ps) :
    wp (concurrent w) (perform (.recordEvent e)) (Succeeds fun _ s' => Holds w ps s') s := by
  refine wp_quiet fun s₁ _ ch r s₂ _ hs => ?_
  obtain ⟨rfl, rfl⟩ := Prod.mk.inj hs
  exact ⟨fun _ _ => rfl, rfl, fun hg => h.grow hps hg⟩

theorem wp_put_shared {p : ObjectPath} (h : Holds w ps s) (hps : .tlogEntry ∉ ps) :
    wp (concurrent w) (perform (.putObject p (w.part 0 p)))
      (Succeeds fun _ s' => Holds w (p :: ps) s') s := by
  refine wp_shared fun s₁ hg ch r s₂ hf hs _ => ?_
  obtain ⟨rfl, rfl⟩ := attempt_ok hf hs
  have h₁ := h.grow hps hg
  have hput : Grows w s₁ (s₁.put p (w.part 0 p)) := .put h₁.generated
  have h₂ := h₁.grow hps hput
  refine ⟨hput, Holds.cons ⟨h₂.one, h₂.generated, fun q hq => ?_⟩ h₂⟩
  rw [List.mem_singleton.mp hq, put_same]
  exact Option.some_ne_none _

/-- A put of the tlog entry. -/
theorem wp_put_tlogEntry {o : Object} (h : Holds w ps s) (hps : .tlogEntry ∉ ps) :
    wp (concurrent w) (perform (.putObject .tlogEntry o)) (Succeeds fun _ s' => Holds w ps s') s := by
  refine wp_quiet fun s₁ _ ch r s₂ hf hs => ?_
  obtain ⟨rfl, rfl⟩ := attempt_ok hf hs
  exact ⟨fun p hp => put_other o hp, rfl, fun hg => h.grow hps hg⟩

/-- A call that has no effect. -/
theorem wp_read_shared {o : Op Cert Key} {v : Store → Choice → Val o} {e : Choice → Exn}
    (hserve : ∀ ch s, serve w ch s o = attempt ch.fault s s (v s ch) (e ch)) (h : Holds w ps s)
    (hps : .tlogEntry ∉ ps) :
    wp (concurrent w) (perform o) (Succeeds fun _ s' => Holds w ps s') s := by
  refine wp_quiet fun s₁ _ ch r s₂ hf hs => ?_
  obtain ⟨rfl, rfl⟩ := attempt_ok hf ((hserve ch s₁).symm.trans hs)
  exact ⟨fun _ _ => rfl, rfl, fun hg => h.grow hps hg⟩

theorem wp_getTlogEntry_shared {c : Cert} (h : Holds w ps s) (hps : .tlogEntry ∉ ps) :
    wp (concurrent w) (RekorClientImpl.getTlogEntryByCertificate w c)
      (Succeeds fun _ s' => Holds w ps s') s := by
  refine wp_then (wp_read_shared (fun _ _ => rfl) h hps) fun entryUUIDs s₁ h₁ => ?_
  split
  · exact wp_then (wp_read_shared (fun _ _ => rfl) h₁ hps) fun _ _ h₂ => h₂
  · exact h₁

theorem wp_recordCertificate_shared {c : Cert} {k : Key} (h : Holds w ps s)
    (hps : .tlogEntry ∉ ps) :
    wp (concurrent w) (RekorClientImpl.recordCertificate w c k)
      (Succeeds fun _ s' => Holds w ps s') s := by
  refine wp_then (wp_try (wp_quiet fun s₁ _ ch r s₂ hf hs => ?_)) fun _ _ h₁ => h₁
  obtain ⟨rfl, rfl⟩ := attempt_ok hf hs
  exact ⟨fun _ _ => rfl, rfl, fun hg => h.grow hps hg⟩

/-- The reconciliation changes the tlog entry at most. -/
theorem wp_reconcile_shared {c : Cert} (h : Holds w ps s) (hps : .tlogEntry ∉ ps) :
    wp (concurrent w) (reconcileTlogArtifacts w c) (Succeeds fun _ s' => Holds w ps s') s := by
  unfold reconcileTlogArtifacts s3ObjectExists
  refine wp_then (P := fun _ s' => Holds w ps s') ?_ fun found s₁ h₁ => ?_
  · rw [wp_tryCatch, wp_bind]
    refine wp_quiet fun s₁ _ ch r s₂ hf hs => ?_
    obtain ⟨ha, rfl⟩ := Prod.mk.inj hs
    refine ⟨fun _ _ => rfl, rfl, fun hg => ?_⟩
    rcases getAnswer_cases ha with ⟨-, _, -, rfl⟩ | ⟨-, -, rfl⟩ | ⟨hn, -⟩
    · exact h.grow hps hg
    · exact h.grow hps hg
    · exact absurd hf hn
  · split
    · exact h₁
    · refine wp_try (wp_then (wp_getTlogEntry_shared h₁ hps) fun entry s₂ h₂ => ?_)
      cases entry with
      | none => exact h₂
      | some json => exact wp_then (wp_put_tlogEntry h₂ hps) fun _ _ h₃ => h₃

end Instance

/-- What the KMS promises in addition: data keys of 256 bits. -/
def World.KeySize (w : World Cert Key) : Prop := ∀ g, (w.plaintext g).length = 32

/-- The end of a load: the root of the one generation, or a missing object. -/
def LoadEnds (w : World Cert Key) :
    Except Exn (MeasurementBoundCertificate Cert Key) → Store → Prop
  | .ok root, s => root = w.root 0 ∧ Holds w rootPaths s
  | .error e, s => e = .noSuchKey ∧ OneGeneration w s

theorem wp_load_shared (hw : w.Lawful) (hk : w.KeySize) (h : OneGeneration w s) :
    wp (concurrent w) (loadCertificate w) (LoadEnds w) s := by
  have habsent (s₁ : Store) (h₁ : OneGeneration w s₁) : LoadEnds w (.error .noSuchKey) s₁ :=
    ⟨rfl, h₁⟩
  unfold loadCertificate
  rw [wp_bind]
  refine wp_get_shared (by decide) h (fun s₁ _ h₁ => ?_) habsent
  rw [andThen_ok, wp_bind]
  simp only [World.part, hw.pem]
  refine wp_ofOption (fun certificate hcert => ?_) (fun hn => by cases hn)
  cases hcert
  rw [andThen_ok, wp_bind]
  refine wp_get_shared (by decide) h₁.one (fun s₂ hg₂ h₂ => ?_) habsent
  replace h₂ := h₂.cons (h₁.grow (by decide) hg₂)
  rw [andThen_ok, wp_bind]
  refine wp_quiet fun s₃ hg ch r s₃' hf hs => ?_
  obtain ⟨ha, rfl⟩ := Prod.mk.inj hs
  refine ⟨fun _ _ => rfl, rfl, fun hg₃ => ?_⟩
  rw [hf] at ha
  simp only [World.part, getAnswer, hw.kms] at ha
  subst ha
  have h₃ := h₂.grow (by decide) hg₃
  rw [andThen_ok, wp_bind]
  refine wp_get_shared (by decide) h₃.one (fun s₄ hg₄ h₄ => ?_) habsent
  replace h₄ := h₄.cons (h₃.grow (by decide) hg₄)
  rw [andThen_ok, wp_bind]
  refine wp_get_shared (by decide) h₄.one (fun s₅ hg₅ h₅ => ?_) habsent
  replace h₅ := h₅.cons (h₄.grow (by decide) hg₅)
  rw [andThen_ok]
  simp only [World.part]
  rw [wp_bind]
  unfold decrypt
  rw [if_neg (by simp [hk 0]), hw.aead]
  refine wp_ofOption (fun m hm => ?_) (fun hn => by cases hn)
  cases hm
  rw [andThen_ok, wp_bind, hw.key]
  refine wp_ofOption (fun k hkey => ?_) (fun hn => by cases hn)
  cases hkey
  rw [andThen_ok]
  refine wp_then (wp_reconcile_shared h₅ (by decide)) fun _ s₆ h₆ => ?_
  exact wp_then (wp_event_shared h₆ (by decide)) fun _ s₇ h₇ => ⟨rfl, h₇⟩

/-- The end of an instance: it holds the root of the one generation, which is stored. -/
def HoldsRoot (w : World Cert Key) : Except Exn (MeasurementBoundCertificate Cert Key) →
    Store → Prop :=
  Succeeds fun root s => root = w.root 0 ∧ Holds w rootPaths s

/-- The only generation has number 0. -/
theorem wp_generate_shared (h : OneGeneration w s) :
    wp (concurrent w) (perform .generate)
      (Succeeds fun a s' => a = ⟨0, w.cert 0, w.key 0⟩ ∧ Holds w [] s') s := by
  refine wp_shared fun s₁ hg ch r s₂ hf hs hle => ?_
  obtain ⟨rfl, rfl⟩ := attempt_ok hf hs
  have h₁ := hg.one h
  have h0 : s₁.generations = 0 := by simpa using hle
  have hone : OneGeneration w { s₁ with generations := s₁.generations + 1 } :=
    ⟨hle, fun p hp o ho => ⟨(h₁.part p hp o ho).1, Nat.succ_pos _⟩⟩
  refine ⟨⟨Nat.le_succ _, fun _ _ ho => ho, fun _ => hone⟩, ?_, hone, Nat.succ_pos _, ?_⟩
  · rw [h0]
  · exact fun p hp => by cases hp

theorem wp_generateAndStore_shared (hk : w.KeySize) (h : OneGeneration w s) :
    wp (concurrent w) (generateAndStoreCertificate w) (HoldsRoot w) s := by
  unfold generateAndStoreCertificate recording
  refine wp_then (wp_generate_shared h) ?_
  rintro _ s₁ ⟨rfl, h₁⟩
  dsimp only
  refine wp_then (P := fun a s' => a = w.token 0 ∧ Holds w [] s') ?_ ?_
  · refine wp_quiet fun s₁ _ ch r s₂ hf hs => ?_
    obtain ⟨rfl, rfl⟩ := attempt_ok hf hs
    exact ⟨fun _ _ => rfl, rfl, fun hg => ⟨rfl, h₁.grow (by decide) hg⟩⟩
  rintro _ s₂ ⟨rfl, h₂⟩
  refine wp_then (P := fun a s' => a = (w.plaintext 0, w.ciphertext 0) ∧ Holds w [] s')
    (wp_try ?_) ?_
  · refine wp_quiet fun s₁ _ ch r s₂ hf hs => ?_
    obtain ⟨rfl, rfl⟩ := attempt_ok hf hs
    exact ⟨fun _ _ => rfl, rfl, fun hg => ⟨rfl, h₂.grow (by decide) hg⟩⟩
  rintro _ s₃ ⟨rfl, h₃⟩
  unfold encrypt
  rw [if_neg (by simp [hk 0]), wp_bind, wp_pure, andThen_ok]
  refine wp_then (P := fun _ s' => Holds w rootPaths s') (wp_try ?_) fun _ s₄ h₄ => ?_
  · refine wp_then (wp_put_shared h₃ (by decide)) fun _ s₄ h₄ => ?_
    refine wp_then (wp_put_shared h₄ (by decide)) fun _ s₅ h₅ => ?_
    refine wp_then (wp_put_shared h₅ (by decide)) fun _ s₆ h₆ => ?_
    refine wp_then (wp_put_shared h₆ (by decide)) fun _ s₇ h₇ => ?_
    exact ⟨h₇.one, h₇.generated, fun p hp => h₇.there p (by revert hp; cases p <;> decide)⟩
  refine wp_then (wp_try (wp_recordCertificate_shared h₄ (by decide))) fun _ s₅ h₅ => ?_
  refine wp_then (P := fun _ s' => Holds w rootPaths s') (wp_try ?_) fun _ s₆ h₆ => ?_
  · exact wp_then (wp_put_tlogEntry h₅ (by decide)) fun _ _ h => h
  exact wp_then (wp_event_shared h₆ (by decide)) fun _ s₇ h₇ => ⟨rfl, h₇⟩

theorem wp_main_shared (hw : w.Lawful) (hk : w.KeySize) (h : OneGeneration w s) :
    wp (concurrent w) (executeLoadOrGenerateCertificate w) (HoldsRoot w) s := by
  unfold executeLoadOrGenerateCertificate
  rw [wp_tryCatch]
  refine wp_mono (fun r s' hr => ?_) _ (wp_load_shared hw hk h)
  cases r with
  | ok root => exact hr
  | error e =>
    obtain ⟨rfl, h'⟩ := hr
    exact wp_generateAndStore_shared hk h'

theorem compatible : ParStep.Compatible (concurrent w) (HoldsRoot w) where
  refl s := .refl s
  trans h h' := h.trans h'
  guar h := h
  stable r s s' hg h := by
    cases r with
    | ok root => exact ⟨h.1, h.2.grow (by decide) hg⟩
    | error e => exact h

/-! ## Two instances -/

/-- The buckets and what is left of the two instances. -/
abbrev Boot (Cert Key : Type) :=
  Store × (Bool → MbsProg Cert Key (MeasurementBoundCertificate Cert Key))

/-- One call of one of the instances. No call fails. -/
def BootStep (w : World Cert Key) : Boot Cert Key → Boot Cert Key → Prop :=
  ParStep (device w fun _ f => f = .none)

/-- Both instances start on empty buckets. -/
def firstBoot (w : World Cert Key) (log : List HashedRekordRequest) : Boot Cert Key :=
  ({ log := log }, fun _ => executeLoadOrGenerateCertificate w)

theorem serve_generations {ch : Choice} {o : Op Cert Key} {r : Ret o}
    (h : serve w ch s o = (r, s')) : s.generations ≤ s'.generations := by
  have hs : s' = (serve w ch s o).2 := by rw [h]
  rw [hs]
  cases o <;> simp only [serve, attempt] <;> (try split) <;> simp [Store.put]

/-- As the number of generations only grows, a run that ends with one had never more. -/
theorem reach_concurrent {b b' : Boot Cert Key} (h : Relation.ReflTransGen (BootStep w) b b')
    (hg : b'.1.generations ≤ 1) :
    Relation.ReflTransGen (ParStep (concurrent w).step) b b' := by
  induction h with
  | refl => exact .refl
  | tail _ hs ih =>
    cases hs with
    | call hi hstep =>
      obtain ⟨ch, hf, hserve⟩ := hstep
      have hle := Nat.le_trans (serve_generations hserve) hg
      exact .tail (ih hle) (.call hi ⟨⟨ch, hf, hserve⟩, hg⟩)

/-- **Concurrent first boots.** If both instances have finished and only one root was generated,
the four root objects are those of that generation, and both instances hold that root. -/
theorem one_generation (w : World Cert Key) (hw : w.Lawful) (hk : w.KeySize) (log : List HashedRekordRequest)
    (b : Boot Cert Key) (hr : Relation.ReflTransGen (BootStep w) (firstBoot w log) b)
    (hdone : ∀ i, (b.2 i).result.isSome) (hgen : b.1.generations ≤ 1) :
    Complete w b.1 0 ∧ ∀ i, b.2 i = .ret (w.root 0) := by
  have hinit : OneGeneration w ({ log := log } : Store) :=
    ⟨Nat.zero_le _, fun p hp o ho => by cases ho⟩
  obtain ⟨hwp, -⟩ := ParStep.wp_reach compatible (c := firstBoot w log)
    (fun _ => wp_main_shared hw hk hinit) (reach_concurrent hr hgen)
  have hend (i : Bool) : b.2 i = .ret (w.root 0) ∧ Complete w b.1 0 := by
    have hi := hwp i
    have hd := hdone i
    cases hp : b.2 i with
    | ret root =>
      rw [hp] at hi
      exact ⟨congrArg Prog.ret hi.1, hi.2.complete⟩
    | throw e => rw [hp] at hi; exact hi.elim
    | call o k => rw [hp] at hd; cases hd
  exact ⟨(hend true).2, fun i => (hend i).1⟩

/-- The next call of instance `i`. -/
def bootCall (w : World Cert Key) (b : Boot Cert Key) (i : Bool) : Boot Cert Key :=
  match b.2 i with
  | .call o k => ((serve w {} b.1 o).2, Function.update b.2 i (k (serve w {} b.1 o).1))
  | _ => b

theorem reach_schedule (b : Boot Cert Key) (is : List Bool) :
    Relation.ReflTransGen (BootStep w) b (is.foldl (bootCall w) b) := by
  induction is generalizing b with
  | nil => exact .refl
  | cons i is ih =>
    refine .trans ?_ (ih _)
    unfold bootCall
    split
    · rename_i o k hi
      exact .single (.call hi ⟨{}, rfl, rfl⟩)
    · exact .refl

end Concurrent

theorem countingWorld_keySize : countingWorld.KeySize := fun _ => rfl

/-- The second instance starts when the first one has finished. -/
def sequentialBoot : Boot Nat Nat :=
  (List.replicate 11 false ++ List.replicate 8 true).foldl (bootCall countingWorld)
    (firstBoot countingWorld [])

theorem one_generation_load :
    sequentialBoot.2 false = .ret (countingWorld.root 0) ∧
      sequentialBoot.2 true = .ret (countingWorld.root 0) := by
  have hroot : ∀ i, sequentialBoot.2 i = .ret (countingWorld.root 0) :=
    (one_generation countingWorld countingWorld_lawful countingWorld_keySize [] _
      (reach_schedule _ _) (by decide) (by decide)).2
  exact ⟨hroot false, hroot true⟩

/-- Both instances find the buckets empty. Their puts are interleaved: the private key is of the
second generation, the data key of the first, and each instance holds a root of its own. -/
theorem two_roots :
    ∃ b : Boot Nat Nat, Relation.ReflTransGen (BootStep countingWorld) (firstBoot countingWorld []) b ∧
      b.2 false = .ret (countingWorld.root 0) ∧ b.2 true = .ret (countingWorld.root 1) ∧
      (countingWorld.root 0).certificate ≠ (countingWorld.root 1).certificate ∧
      (b.1.objects .aesEncryptedPrivateKey).map Object.origin = some (some 1) ∧
      (b.1.objects .kmsEncryptedDataKey).map Object.origin = some (some 0) := by
  refine ⟨(List.replicate 4 false ++ List.replicate 4 true ++ [false, true, true, false] ++
    List.replicate 5 false ++ List.replicate 5 true).foldl (bootCall countingWorld)
      (firstBoot countingWorld []), reach_schedule _ _, ?_⟩
  refine ⟨rfl, rfl, by decide, by decide, by decide⟩

end Mbs
end TrustedCa
