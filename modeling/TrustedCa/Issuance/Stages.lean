import TrustedCa.Issuance.Service

/-!
# What each stage of the issuance has checked

For every stage before the signer is called: it makes no call of the signer, and where it returns, its
result and its part of the log satisfy what the stage is there to check. The rules for logs are those
of `Spec.Adds`.
-/

namespace TrustedCa
namespace Issuance

open Spec

/-- A call other than that of the signer. -/
def Op.Silent : Op → Prop
  | .signCsr _ => False
  | _ => True

instance : DecidablePred Op.Silent := fun o => by
  unfold Op.Silent
  split <;> infer_instance

abbrev Log := List (Event Op Ret)

section Stages

variable {answer : Log → (o : Op) → Ret o} {pending : Op → Log → Prop} {env : Env}

/-- The stage adds only silent calls, and returns with `Q`. -/
abbrev Stage {α : Type} (answer : Log → (o : Op) → Ret o) (pending : Op → Log → Prop) (p : M α)
    (Q : α → Log → Prop) : Prop :=
  Adds (recorded answer pending) Op.Silent p Q

/-! ## Calls -/

section Calls

variable (hfree : ∀ o, o.Silent → ∀ log, pending o log)
include hfree

theorem call_stage {α : Type} {o : Op} {k : Ret o → M α} {Q : α → Log → Prop} (ho : o.Silent)
    (hk : ∀ r, Stage answer pending (k r) fun a more => Q a (⟨o, r⟩ :: more)) :
    Stage answer pending (.call o k) Q :=
  Adds.call ho (hfree o ho) hk

theorem fetchFile_stage (path : JString) : Stage answer pending (fetchFile path) fun file more =>
    ⟨.fetchFile path, .ok file⟩ ∈ more := by
  refine call_stage hfree trivial fun r => Adds.ofExcept ?_
  rintro file rfl
  simp

theorem getAnnotations_stage (statement : Bytes) :
    Stage answer pending (getAnnotations statement) fun annotations more =>
      ⟨.getAnnotations statement, .ok annotations⟩ ∈ more := by
  refine call_stage hfree trivial fun r => Adds.ofExcept ?_
  rintro annotations rfl
  simp

theorem getValidity_stage (statement : Bytes) :
    Stage answer pending (getValidity statement) fun validity more =>
      ⟨.getValidity statement, .ok validity⟩ ∈ more := by
  refine call_stage hfree trivial fun r => Adds.ofExcept ?_
  rintro validity rfl
  simp

theorem verify_stage (verifier : AttestationVerifier) (evidence : AttestationEvidence)
    (key : PublicKey) (rv : ReferenceValues) :
    Stage answer pending (verifier.verify evidence key rv) fun verified more =>
      ⟨.verify verifier evidence key rv, .ok verified⟩ ∈ more := by
  refine call_stage hfree trivial fun r => Adds.ofExcept ?_
  rintro verified rfl
  simp

theorem now_stage : Stage answer pending now fun t more => ⟨.now, t⟩ ∈ more :=
  call_stage hfree trivial fun t => Adds.pure (by simp)

theorem incrementProcessingCounter_stage (status : ProcessingStatus) :
    Stage answer pending (incrementProcessingCounter status) fun _ _ => True :=
  call_stage hfree trivial fun _ => Adds.pure trivial

theorem allowMetricsForClientId_stage (clientId : JString) :
    Stage answer pending (allowMetricsForClientId clientId) fun _ _ => True :=
  call_stage hfree trivial fun _ => Adds.pure trivial

end Calls

/-! ## The policy -/

/-- The policy comes from the file of the caller, and the file was written for the caller. -/
structure Selected (format : PolicyFormat) (identity : CallerIdentity)
    (annotations : EndorsementAnnotations) (file : Bytes) (policies : Policies) (policy : Policy)
    (log : Log) : Prop where
  fetched : ⟨.fetchFile identity.getClientId, .ok (some file)⟩ ∈ log
  parsed : FileSourcedPolicyProvider.parsePolicies format (format.toStringUtf8 file) = .ok policies
  issuer : policies.issuer = identity.issuer
  subject : policies.subject = identity.subject
  listed : policies.get (annotations.publisherId ++ .lit "/" ++ annotations.workloadId) = some policy

theorem Selected.mono {format : PolicyFormat} {identity : CallerIdentity}
    {annotations : EndorsementAnnotations} {file : Bytes} {policies : Policies} {policy : Policy}
    {log log' : Log} (h : Selected format identity annotations file policies policy log)
    (hlog : log ⊆ log') : Selected format identity annotations file policies policy log' :=
  { h with fetched := hlog h.fetched }

section Policy

variable (hfree : ∀ o, o.Silent → ∀ log, pending o log)
include hfree

theorem getPolicy_stage (format : PolicyFormat) (identity : CallerIdentity)
    (annotations : EndorsementAnnotations) :
    Stage answer pending
      (FileSourcedPolicyProvider.getPolicy format identity annotations.publisherId
        annotations.workloadId)
      fun policyOpt more => ∀ policy, policyOpt = some policy →
        ∃ file policies, Selected format identity annotations file policies policy more := by
  have hfetch : Stage answer pending (tryCatch (fetchFile identity.getClientId) fun e =>
      if e.isA .fileLoadException then pure none else throw e) fun fileOpt more =>
        ∀ file, fileOpt = some file → ⟨.fetchFile identity.getClientId, .ok (some file)⟩ ∈ more := by
    refine Adds.tryCatch ((fetchFile_stage hfree _).mono ?_) fun e more => ?_
    · rintro _ more hfile file rfl
      exact hfile
    · split
      · exact Adds.pure nofun
      · exact Adds.throw
  refine Adds.bind hfetch fun rawFileOpt more hfile => ?_
  cases rawFileOpt with
  | none => exact Adds.pure nofun
  | some file =>
    dsimp only
    split
    · split
      · exact Adds.pure nofun
      · exact Adds.throw
    next policies hparse =>
      split
      · refine Adds.bind (incrementProcessingCounter_stage hfree _) fun _ _ _ => ?_
        exact Adds.bind (Adds.throw (Q := fun _ _ => False)) fun _ _ h => h.elim
      next hsame =>
        push Not at hsame
        refine Adds.bind (allowMetricsForClientId_stage hfree _) fun _ _ _ => Adds.pure ?_
        intro policy hpolicy
        exact ⟨file, policies, by simp [hfile file rfl], hparse, hsame.1, hsame.2, hpolicy⟩

end Policy

/-! ## The stages of `issueCertificate` -/

namespace TransparentCaService

section Service

variable (hfree : ∀ o, o.Silent → ∀ log, pending o log)
include hfree

theorem fail_stage {α : Type} (status : ProcessingStatus) (message : JString) {Q : α → Log → Prop} :
    Stage answer pending (fail status message) Q :=
  Adds.bind (incrementProcessingCounter_stage hfree status) fun _ _ _ => Adds.throw

/-- The handler of `counting` only counts and throws. -/
theorem counting_wp {α : Type} {c : ExnClass} {status : ProcessingStatus} {p : M α}
    {Q : Except Thrown α → Log → Prop} {log : Log}
    (hp : wp (recorded answer pending) p
      (fun r log' => ∀ more, (∀ ev ∈ more, ev.1.Silent) → Q r (log' ++ more)) log) :
    wp (recorded answer pending) (counting c status p) Q log := by
  unfold counting
  rw [wp_tryCatch]
  refine wp_mono ?_ p hp
  rintro (e | a) log' hQ
  · rw [orElse_error]
    dsimp only
    split
    · refine wp_recorded_call (hfree (.incrementProcessingCounter status) trivial _) fun _ _ => ?_
      exact hQ [_] (by simp [Op.Silent])
    · simpa using hQ [] (by simp)
  · simpa using hQ [] (by simp)

theorem counting_stage {α : Type} {c : ExnClass} {status : ProcessingStatus} {p : M α}
    {Q : α → Log → Prop} (hp : Stage answer pending p Q)
    (hmore : ∀ a more more', Q a more → Q a (more ++ more')) :
    Stage answer pending (counting c status p) Q := by
  intro log
  refine counting_wp hfree (wp_mono ?_ p (hp log))
  rintro r _ ⟨more, rfl, hsilent, hQ⟩ more' hsilent'
  refine ⟨more ++ more', by simp, ?_, fun a ha => hmore a _ _ (hQ a ha)⟩
  intro ev hev
  exact (List.mem_append.mp hev).elim (hsilent ev) (hsilent' ev)

theorem extractPublicKey_stage (request : CertificateIssuanceRequest) :
    Stage answer pending
      (counting .ioException .INVALID_CSR (Prog.ofExcept (extractPublicKey env request)))
      fun key _ => extractPublicKey env request = .ok key :=
  counting_stage hfree (Adds.ofExcept fun _ h => h) fun _ _ _ h => h

theorem validateAudience_stage (key : PublicKey) (identity : CallerIdentity) :
    Stage answer pending (validateAudience env key identity) fun _ _ =>
      OidcAudienceBindingValidator.validate env.trustDomain env.metadata env.sha256 key identity =
        .ok () :=
  counting_stage hfree (Adds.ofExcept fun _ h => h) fun _ _ _ h => h

theorem selectPolicy_stage (identity : CallerIdentity) (annotations : EndorsementAnnotations) :
    Stage answer pending (selectPolicy env identity annotations) fun policy more =>
      ∃ file policies, Selected env.format identity annotations file policies policy more := by
  refine Adds.bind (getPolicy_stage hfree env.format identity annotations) fun policyOpt more h => ?_
  cases policyOpt with
  | none => exact fail_stage hfree _ _
  | some policy => exact Adds.pure (by simpa using h policy rfl)

theorem selectVerifier_stage (evidence : AttestationEvidence) :
    Stage answer pending (selectVerifier env evidence) fun verifier _ =>
      AttestationVerifierProviderImpl.getVerifier env.verifiers evidence = some verifier := by
  unfold selectVerifier
  split
  next verifier h => exact Adds.pure h
  next => exact fail_stage hfree _ _

/-- Where `anyMatch` is true, a call of the verifier was. -/
theorem anyMatch_stage (verifier : AttestationVerifier) (evidence : AttestationEvidence)
    (key : PublicKey) (rvs : List ReferenceValues) :
    Stage answer pending (anyMatch verifier evidence key rvs) fun verified more =>
      verified = true → ∃ rv ∈ rvs, ⟨.verify verifier evidence key rv, .ok true⟩ ∈ more := by
  induction rvs with
  | nil => exact Adds.pure nofun
  | cons rv rvs ih =>
    refine Adds.bind (verify_stage hfree verifier evidence key rv) fun verified more h => ?_
    cases verified with
    | true => exact Adds.pure fun _ => ⟨rv, by simp, by simpa using h⟩
    | false =>
      refine ih.mono fun verified more' h' hv => ?_
      obtain ⟨rv', hrv', hev⟩ := h' hv
      exact ⟨rv', List.mem_cons_of_mem _ hrv', List.mem_append_right _ hev⟩

theorem verifyEvidence_stage (verifier : AttestationVerifier) (evidence : AttestationEvidence)
    (key : PublicKey) (policy : Policy) :
    Stage answer pending (verifyEvidence verifier evidence key policy) fun _ more =>
      ∃ rv ∈ policy.referenceValuesList, rv.type = evidence.getReferenceValuesType ∧
        ⟨.verify verifier evidence key rv, .ok true⟩ ∈ more := by
  refine Adds.bind (anyMatch_stage hfree verifier evidence key _) fun verified more h => ?_
  cases verified with
  | false => exact fail_stage hfree _ _
  | true =>
    obtain ⟨rv, hrv, hev⟩ := h rfl
    obtain ⟨hmem, htype⟩ := List.mem_filter.mp hrv
    exact Adds.pure ⟨rv, hmem, by simpa using htype, by simpa using hev⟩

/-- The validity is the intersection of the policy's and the endorsement's, and not empty. -/
theorem certificateValidity_stage (policy : Policy) (validity : Validity) :
    Stage answer pending (certificateValidity policy validity) fun period more =>
      ∃ now expiration, ⟨.now, now⟩ ∈ more ∧
        now.plus policy.certificateAttributes.maxCertificateValidity = .ok expiration ∧
        period.1 = max now validity.notBefore ∧ period.2 = min expiration validity.notAfter ∧
        period.1 ≤ period.2 := by
  refine Adds.bind (now_stage hfree) fun now more hnow => ?_
  refine Adds.bind (Adds.ofExcept (Q := fun expiration _ =>
    now.plus policy.certificateAttributes.maxCertificateValidity = .ok expiration) fun _ h => h)
    fun expiration more' hplus => ?_
  dsimp only
  split
  · exact fail_stage hfree _ _
  next h => exact Adds.pure ⟨now, expiration, by simp [hnow], hplus, rfl, rfl, not_lt.mp h⟩

end Service

end TransparentCaService

end Stages

end Issuance
end TrustedCa
