import TrustedCa.Issuance.GrpcHandler
import TrustedCa.Issuance.Soundness

/-!
# Request accounting

A request is accounted for if no exception escapes the handler, the observer gets one outcome, and
one status is counted, `SUCCESS` where a chain was delivered and only there.

The counts are made where a failure is found and the replies where its exception is caught, so an
exception that is caught by one of the two only is lost to the other. `FailuresCounted` says that a
request meets no such exception: stage by stage, either the stage passes or it fails as it counts.
It is exactly when the request is accounted for (`issueCertificate_accounted_iff`).

* `Books p C`: the condition `C` of a stage `p`, given that of what follows it. The conditions of
  the stages compose as the stages do (`Books.bind`).
-/

namespace TrustedCa
namespace Issuance

open Spec

/-- The status that a call counts. -/
def Op.status? : Op → Option ProcessingStatus
  | .incrementProcessingCounter status => some status
  | _ => none

/-- The statuses that were counted. -/
def statuses (log : Log) : List ProcessingStatus := log.filterMap fun ev => ev.1.status?

@[simp] theorem statuses_nil : statuses [] = [] := rfl

@[simp] theorem statuses_append (log log' : Log) :
    statuses (log ++ log') = statuses log ++ statuses log' := List.filterMap_append

@[simp] theorem statuses_cons (ev : Event Op Ret) (log : Log) :
    statuses (ev :: log) = ev.1.status?.toList ++ statuses log := by
  cases h : ev.1.status? <;> simp [statuses, h]

theorem statuses_eq_nil {log : Log} (h : ∀ ev ∈ log, ev.1.status? = none) : statuses log = [] :=
  List.filterMap_eq_nil_iff.mpr h

namespace TransparentCertificateAuthorityGrpcHandler

open TransparentCaService

/-- The calls of the observer. -/
def replies (log : HandlerLog) : List Reply := (rights log).map Sigma.fst

/-- The request is accounted for. -/
structure Accounted (out : HandlerLog × Except Thrown Unit) : Prop where
  returns : out.2 = .ok ()
  outcome : (∃ response, replies out.1 = [.onNext response, .onCompleted]) ∨
    ∃ status description, replies out.1 = [.onError status description]
  counted : ∃ status, statuses (lefts out.1) = [status] ∧
    (status = .SUCCESS ↔ ∃ response, .onNext response ∈ replies out.1)

/-! ## The condition -/

section Condition

variable (env : Env) (getEncoded : X509Certificate → Except Thrown Bytes)
  (mapper : Bytes → Except Thrown Json.InTotoStatement)
  (parseInstant : JString → Except Thrown Instant) (outside : Log → (o : Op) → Ret o)

/-- The next call is `o`, and `next` holds of its answer and of the log with it. -/
def Answered (o : Op) (next : Ret o → Log → Prop) (log : Log) : Prop :=
  next (outside log o) (log ++ [⟨o, outside log o⟩])

/-- Where `r` fails, the exception is of the class `c`, and where it does not, `next` holds. -/
def Counted {α : Type} (c : ExnClass) (r : Except Thrown α) (next : α → Prop) : Prop :=
  match r with
  | .error e => e.isA c = true
  | .ok a => next a

/-- The key of the request is read, or an `IOException` says that it cannot be. A key that the token
is not for is counted. -/
def KeyCounted (request : CertificateIssuanceRequest) (identity : CallerIdentity)
    (next : PublicKey → Log → Prop) (log : Log) : Prop :=
  Counted .ioException (extractPublicKey env request) fun key =>
    OidcAudienceBindingValidator.validate env.trustDomain env.metadata env.sha256 key identity =
      .ok () → next key log

/-- The evidence has an endorsement, and both its ids and its validity can be read. -/
def EndorsementCounted (evidence : AttestationEvidence)
    (next : EndorsementAnnotations → Validity → Log → Prop) (log : Log) : Prop :=
  ∃ statement annotations validity,
    evidence.getRawBinaryEndorsement env.parseContainerEndorsement = .ok statement ∧
    JsonIntotoEndorsementMetadataProvider.getAnnotations mapper statement = .ok annotations ∧
    JsonIntotoEndorsementMetadataProvider.getValidity mapper parseInstant statement = .ok validity ∧
    next annotations validity (log ++
      [⟨.getAnnotations statement, .ok annotations⟩, ⟨.getValidity statement, .ok validity⟩])

/-- The file is fetched, or a `FileLoadException` says that it cannot be. Its text is refused by
nothing but an `Exception`. An absent policy and a file for another caller are counted. -/
def PolicyCounted (identity : CallerIdentity) (annotations : EndorsementAnnotations)
    (next : Policy → Log → Prop) : Log → Prop :=
  Answered outside (.fetchFile identity.getClientId) fun fetched log =>
    Counted .fileLoadException fetched fun rawFileOpt => ∀ rawFile, rawFileOpt = some rawFile →
    Counted .exception
      (FileSourcedPolicyProvider.parsePolicies env.format (env.format.toStringUtf8 rawFile))
      fun policies => policies.issuer = identity.issuer → policies.subject = identity.subject →
    Answered outside (.allowMetricsForClientId identity.getClientId) (fun _ log => ∀ policy,
      policies.get (annotations.publisherId ++ .lit "/" ++ annotations.workloadId) = some policy →
        next policy log) log

/-- No verifier throws before one accepts. -/
def VerdictsCounted (verifier : AttestationVerifier) (evidence : AttestationEvidence)
    (key : PublicKey) (next : Log → Prop) : List ReferenceValues → Log → Prop
  | [], _ => True
  | rv :: rest, log =>
    Answered outside (.verify verifier evidence key rv) (fun verdict log =>
      match verdict with
      | .error _ => False
      | .ok true => next log
      | .ok false => VerdictsCounted verifier evidence key next rest log) log

/-- The time of expiration is an `Instant`. A validity that is empty is counted. -/
def PeriodCounted (policy : Policy) (validity : Validity) (next : Instant × Instant → Log → Prop) :
    Log → Prop :=
  Answered outside .now fun now log =>
    ∃ expiration, Instant.plus now policy.certificateAttributes.maxCertificateValidity =
        .ok expiration ∧
      (max now validity.notBefore ≤ min expiration validity.notAfter →
        next (max now validity.notBefore, min expiration validity.notAfter) log)

/-- The subject and the certificate are made, or a `CertificateException` says that they cannot be,
and the certificates of the chain can be encoded. -/
def SigningCounted (request : CertificateIssuanceRequest) (policy : Policy)
    (period : Instant × Instant) (log : Log) : Prop :=
  Counted .certificateException
    (createSubjectPrincipal env policy.certificateAttributes.certificateSubject) fun subject =>
  Counted .certificateException
    ((CertificateSignerImpl.signCsr env.lib (signCsrArgs env request policy period subject)).run
      (serverAnswer mapper parseInstant outside) log).2 fun leaf =>
  ∃ leafBytes rootBytes,
    getEncoded leaf = .ok leafBytes ∧ getEncoded env.rootCertificate = .ok rootBytes

/-- What `TransparentCaService.issueCertificate` meets is counted. -/
def ServiceCounted (request : CertificateIssuanceRequest) (identity : CallerIdentity) :
    Log → Prop :=
  KeyCounted env request identity fun key =>
  EndorsementCounted env mapper parseInstant request.attestationEvidence fun annotations validity =>
  PolicyCounted env outside identity annotations fun policy log =>
  ∀ verifier,
    AttestationVerifierProviderImpl.getVerifier env.verifiers request.attestationEvidence =
      some verifier →
    VerdictsCounted outside verifier request.attestationEvidence key
      (PeriodCounted outside policy validity
        (SigningCounted env getEncoded mapper parseInstant outside request policy))
      (policy.referenceValuesList.filter fun rv =>
        rv.type = request.attestationEvidence.getReferenceValuesType) log

/-- The caller has an issuer and a subject that are not blank, and the service counts every failure
that the request meets. A request without evidence is counted. -/
def FailuresCounted (issuer subject : JString) (audiences : List JString)
    (request : Proto.IssueCertificateRequest) : Prop :=
  ∃ (hissuer : issuer.isBlank = false) (hsubject : subject.isBlank = false),
    ∀ evidence, AttestationEvidenceMapper.toDomain request.attestationEvidence = .ok evidence →
      ServiceCounted env getEncoded mapper parseInstant outside
        ⟨evidence, request.certificateSigningRequest⟩
        ⟨issuer, subject, audiences, hissuer, hsubject⟩ []

end Condition

/-! ## Stages and their conditions -/

/-- The exception has a `catch` clause. -/
def Caught (e : Thrown) : Prop :=
  e.isA .audienceValidationException ∨ e.isA .illegalArgumentException ∨
    e.isA .illegalStateException ∨ e.isA .ioException ∨ e.isA .certificateException

/-- How the service has to end. Its chain is encoded by the handler. -/
def Booked (getEncoded : X509Certificate → Except Thrown Bytes)
    (out : Log × Except Thrown (List X509Certificate)) : Prop :=
  match out.2 >>= fun chain => chain.mapM getEncoded with
  | .ok _ => statuses out.1 = [.SUCCESS]
  | .error e => Caught e ∧ ∃ status, status ≠ .SUCCESS ∧ statuses out.1 = [status]

section Books

variable {getEncoded : X509Certificate → Except Thrown Bytes} {answer : Log → (o : Op) → Ret o}
  {α β : Type}

theorem booked_failure {log : Log} {e : Thrown} {status : ProcessingStatus}
    (hlog : statuses log = []) (hstatus : status ≠ .SUCCESS) (he : Caught e) :
    Booked getEncoded (log ++ [⟨.incrementProcessingCounter status, ()⟩], .error e) :=
  ⟨he, status, hstatus, by simp [hlog, Op.status?]⟩

theorem not_booked {log : Log} {e : Thrown} (hlog : statuses log = []) :
    ¬ Booked getEncoded (log, .error e) := by
  rintro ⟨-, status, -, hstatus⟩
  rw [hlog] at hstatus
  cases hstatus

theorem counting_run_error {p : M α} {c : ExnClass} {status : ProcessingStatus} {log log' : Log}
    {e : Thrown} (h : p.run answer log = (log', .error e)) :
    (TransparentCaService.counting c status p).run answer log =
      (if e.isA c then log' ++ [⟨.incrementProcessingCounter status, ()⟩] else log', .error e) := by
  unfold TransparentCaService.counting
  rw [Prog.run_tryCatch_error h]
  cases e.isA c <;> rfl

/-- What is thrown in a block that counts the exceptions of the class `c`. -/
theorem booked_counting {p : M α} {f : α → M (List X509Certificate)} (c : ExnClass)
    (status : ProcessingStatus) (hstatus : status ≠ .SUCCESS) (hc : ∀ e, e.isA c = true → Caught e)
    {log log' : Log} {e : Thrown} (hrun : p.run answer log = (log', .error e))
    (hlog' : statuses log' = []) :
    Booked getEncoded ((counting c status p >>= f).run answer log) ↔ e.isA c = true := by
  rw [Prog.run_bind_error (counting_run_error hrun)]
  by_cases he : e.isA c = true
  · rw [if_pos he]
    exact iff_of_true (booked_failure hlog' hstatus (hc e he)) he
  · rw [if_neg he]
    exact iff_of_false (not_booked hlog') he

/-- Before the stage nothing was counted. The service ends well from it on if and only if `C` holds,
where `next` is the condition of what follows. -/
def Books (getEncoded : X509Certificate → Except Thrown Bytes) (answer : Log → (o : Op) → Ret o)
    (p : M α) (C : (α → Log → Prop) → Log → Prop) : Prop :=
  ∀ (f : α → M (List X509Certificate)) (next : α → Log → Prop),
    (∀ a log, statuses log = [] → (Booked getEncoded ((f a).run answer log) ↔ next a log)) →
    ∀ log, statuses log = [] → (Booked getEncoded ((p >>= f).run answer log) ↔ C next log)

namespace Books

theorem congr {p : M α} {C D : (α → Log → Prop) → Log → Prop} (h : Books getEncoded answer p C)
    (hCD : ∀ next log, C next log ↔ D next log) : Books getEncoded answer p D :=
  fun f next hf log hlog => (h f next hf log hlog).trans (hCD next log)

theorem pure (a : α) : Books getEncoded answer (pure a) fun next log => next a log :=
  fun _ _ hf log hlog => hf a log hlog

theorem throw (e : Thrown) : Books getEncoded answer (throw e : M α) fun _ _ => False :=
  fun _ _ _ _ hlog => iff_false_intro (not_booked hlog)

theorem ofExcept (r : Except Thrown α) : Books getEncoded answer (Prog.ofExcept r) fun next log =>
    ∃ a, r = .ok a ∧ next a log := by
  cases r with
  | ok a => exact (Books.pure a).congr fun next log => by simp
  | error e => exact (Books.throw e).congr fun next log => by simp

theorem call {o : Op} {k : Ret o → M α} {C : Ret o → (α → Log → Prop) → Log → Prop}
    (ho : o.status? = none) (hk : ∀ r, Books getEncoded answer (k r) (C r)) :
    Books getEncoded answer (.call o k) fun next log =>
      C (answer log o) next (log ++ [⟨o, answer log o⟩]) :=
  fun f next hf log hlog => hk (answer log o) f next hf _ (by simp [hlog, ho])

theorem bind {p : M α} {f : α → M β} {C : (α → Log → Prop) → Log → Prop}
    {D : α → (β → Log → Prop) → Log → Prop} (hp : Books getEncoded answer p C)
    (hf : ∀ a, Books getEncoded answer (f a) (D a)) :
    Books getEncoded answer (p >>= f) fun next log => C (fun a log => D a next log) log := by
  intro g next hg log hlog
  rw [Prog.bind_assoc]
  exact hp _ _ (fun a log' hlog' => hf a g next hg log' hlog') log hlog

theorem fail (status : ProcessingStatus) (message : JString) (hstatus : status ≠ .SUCCESS) :
    Books getEncoded answer (fail status message : M α) fun _ _ => True :=
  fun _ _ _ _ hlog => iff_true_intro (booked_failure hlog hstatus (.inr (.inl rfl)))

/-- A stage that counts the exceptions of the class `c`. -/
theorem counting (c : ExnClass) (status : ProcessingStatus) (r : Except Thrown α)
    (hstatus : status ≠ .SUCCESS) (hc : ∀ e, e.isA c = true → Caught e) :
    Books getEncoded answer (counting c status (Prog.ofExcept r)) fun next log =>
      Counted c r fun a => next a log := by
  cases r with
  | ok a => exact Books.pure a
  | error e =>
    exact fun f next _ log hlog => booked_counting c status hstatus hc (Prog.run_ofExcept _) hlog

end Books

end Books

/-! ## The stages of the service -/

section Service

variable {env : Env} {getEncoded : X509Certificate → Except Thrown Bytes}
  {mapper : Bytes → Except Thrown Json.InTotoStatement}
  {parseInstant : JString → Except Thrown Instant} {outside : Log → (o : Op) → Ret o}
  {request : CertificateIssuanceRequest} {identity : CallerIdentity}

theorem validate_error {trustDomain : JString} {metadata : AwsInstanceMetadata}
    {sha256 : Bytes → Bytes} {key : PublicKey} {identity : CallerIdentity} {e : Thrown}
    (h : OidcAudienceBindingValidator.validate trustDomain metadata sha256 key identity =
      .error e) :
    e.isA .audienceValidationException = true := by
  unfold OidcAudienceBindingValidator.validate at h
  dsimp only at h
  split at h
  · cases h
  · cases h; rfl

theorem validateAudience_books (key : PublicKey) (identity : CallerIdentity) :
    Books getEncoded (serverAnswer mapper parseInstant outside) (validateAudience env key identity)
      fun next log =>
        OidcAudienceBindingValidator.validate env.trustDomain env.metadata env.sha256 key identity =
          .ok () → next () log := by
  refine (Books.counting .audienceValidationException .AUDIENCE_MISMATCH _ nofun
    fun _ he => .inl he).congr fun next log => ?_
  cases h : OidcAudienceBindingValidator.validate env.trustDomain env.metadata env.sha256 key
    identity with
  | error e => simp [Counted, validate_error h]
  | ok _ => simp [Counted]

theorem key_booked {f : PublicKey → M (List X509Certificate)} {next : PublicKey → Log → Prop}
    (hf : ∀ key log, statuses log = [] →
      (Booked getEncoded ((f key).run (serverAnswer mapper parseInstant outside) log) ↔
        next key log)) {log : Log} (hlog : statuses log = []) :
    Booked getEncoded ((do
      let csrPublicKey ←
        counting .ioException .INVALID_CSR (Prog.ofExcept (extractPublicKey env request))
      validateAudience env csrPublicKey identity
      f csrPublicKey : M _).run (serverAnswer mapper parseInstant outside) log) ↔
      KeyCounted env request identity next log := by
  refine Books.counting .ioException .INVALID_CSR _ nofun (fun _ he => ?_) _
    (fun key log => _ → next key log) (fun key log hlog => ?_) log hlog
  · exact .inr (.inr (.inr (.inl he)))
  · exact validateAudience_books key identity _ (fun _ => next key)
      (fun _ log hlog => hf key log hlog) log hlog

theorem getAnnotations_books (statement : Bytes) :
    Books getEncoded (serverAnswer mapper parseInstant outside) (getAnnotations statement)
      fun next log => ∃ annotations,
        JsonIntotoEndorsementMetadataProvider.getAnnotations mapper statement = .ok annotations ∧
          next annotations (log ++ [⟨.getAnnotations statement, .ok annotations⟩]) := by
  refine (Books.call rfl Books.ofExcept).congr fun next log => exists_congr fun annotations => ?_
  refine and_congr_right fun h => ?_
  rw [h]

theorem getValidity_books (statement : Bytes) :
    Books getEncoded (serverAnswer mapper parseInstant outside) (getValidity statement)
      fun next log => ∃ validity,
        JsonIntotoEndorsementMetadataProvider.getValidity mapper parseInstant statement =
          .ok validity ∧ next validity (log ++ [⟨.getValidity statement, .ok validity⟩]) := by
  refine (Books.call rfl Books.ofExcept).congr fun next log => exists_congr fun validity => ?_
  refine and_congr_right fun h => ?_
  rw [h]

theorem endorsement_booked {evidence : AttestationEvidence}
    {f : EndorsementAnnotations → Validity → M (List X509Certificate)}
    {next : EndorsementAnnotations → Validity → Log → Prop}
    (hf : ∀ annotations validity log, statuses log = [] →
      (Booked getEncoded
        ((f annotations validity).run (serverAnswer mapper parseInstant outside) log) ↔
        next annotations validity log)) {log : Log} (hlog : statuses log = []) :
    Booked getEncoded ((do
      let endorsement ← Prog.ofExcept
        (evidence.getRawBinaryEndorsement env.parseContainerEndorsement)
      let annotations ← getAnnotations endorsement
      let endorsement ← Prog.ofExcept
        (evidence.getRawBinaryEndorsement env.parseContainerEndorsement)
      let validity ← getValidity endorsement
      f annotations validity : M _).run (serverAnswer mapper parseInstant outside) log) ↔
      EndorsementCounted env mapper parseInstant evidence next log := by
  rw [Books.ofExcept _ _ _ (fun statement log hlog => getAnnotations_books statement _ _
    (fun annotations log hlog => Books.ofExcept _ _ _ (fun statement log hlog =>
      getValidity_books statement _ _ (fun validity log hlog => hf annotations validity log hlog)
      log hlog) log hlog) log hlog) log hlog]
  constructor
  · rintro ⟨statement, hraw, annotations, ha, statement', hraw', validity, hv, hnext⟩
    obtain rfl : statement' = statement := Except.ok.inj (hraw'.symm.trans hraw)
    exact ⟨statement', annotations, validity, hraw, ha, hv, by rwa [List.append_assoc] at hnext⟩
  · rintro ⟨statement, annotations, validity, hraw, ha, hv, hnext⟩
    refine ⟨statement, hraw, annotations, ha, statement, hraw, validity, hv, ?_⟩
    rwa [List.append_assoc]

/-- A file that cannot be loaded is an absent one. -/
theorem fetchFile_books (path : JString) :
    Books getEncoded (serverAnswer mapper parseInstant outside)
      (tryCatch (fetchFile path) fun e =>
        if e.isA .fileLoadException then pure none else throw e)
      fun next => Answered outside (.fetchFile path) fun fetched log =>
        (∀ e, fetched = .error e → e.isA .fileLoadException = true ∧ next none log) ∧
          ∀ rawFileOpt, fetched = .ok rawFileOpt → next rawFileOpt log := by
  refine Books.call (o := .fetchFile path) (k := fun fetched => tryCatch (Prog.ofExcept fetched) _)
    (C := fun fetched next log =>
      (∀ e, fetched = .error e → e.isA .fileLoadException = true ∧ next none log) ∧
        ∀ rawFileOpt, fetched = .ok rawFileOpt → next rawFileOpt log) rfl fun fetched => ?_
  cases fetched with
  | ok rawFileOpt => exact (Books.pure rawFileOpt).congr fun next log => by simp
  | error e =>
    change Books _ _ (if e.isA .fileLoadException then pure none else throw e) _
    by_cases he : e.isA .fileLoadException = true
    · rw [if_pos he]
      exact (Books.pure none).congr fun next log => by simp [he]
    · rw [if_neg he]
      exact (Books.throw e).congr fun next log => by simp [he]

/-- The policy in a file that was fetched, or its absence. -/
def FileCounted (env : Env) (outside : Log → (o : Op) → Ret o) (identity : CallerIdentity)
    (annotations : EndorsementAnnotations) (rawFileOpt : Option Bytes)
    (next : Option Policy → Log → Prop) (log : Log) : Prop :=
  (rawFileOpt = none → next none log) ∧ ∀ rawFile, rawFileOpt = some rawFile →
    (∀ e, FileSourcedPolicyProvider.parsePolicies env.format (env.format.toStringUtf8 rawFile) =
      .error e → e.isA .exception = true ∧ next none log) ∧
    ∀ policies,
      FileSourcedPolicyProvider.parsePolicies env.format (env.format.toStringUtf8 rawFile) =
        .ok policies →
      policies.issuer = identity.issuer → policies.subject = identity.subject →
      Answered outside (.allowMetricsForClientId identity.getClientId) (fun _ => next
        (policies.get (annotations.publisherId ++ .lit "/" ++ annotations.workloadId))) log

theorem getPolicy_books (identity : CallerIdentity) (annotations : EndorsementAnnotations) :
    Books getEncoded (serverAnswer mapper parseInstant outside)
      (FileSourcedPolicyProvider.getPolicy env.format identity annotations.publisherId
        annotations.workloadId)
      fun next => Answered outside (.fetchFile identity.getClientId) fun fetched log =>
        (∀ e, fetched = .error e → e.isA .fileLoadException = true ∧
          FileCounted env outside identity annotations none next log) ∧
        ∀ rawFileOpt, fetched = .ok rawFileOpt →
          FileCounted env outside identity annotations rawFileOpt next log := by
  refine Books.bind (fetchFile_books _) fun rawFileOpt => ?_
  cases rawFileOpt with
  | none => exact (Books.pure none).congr fun next log => by simp [FileCounted]
  | some rawFile =>
    dsimp only
    cases hparse : FileSourcedPolicyProvider.parsePolicies env.format
      (env.format.toStringUtf8 rawFile) with
    | error e =>
      dsimp only
      split
      · next he => exact (Books.pure none).congr fun next log => by simp [FileCounted, hparse, he]
      · next he => exact (Books.throw e).congr fun next log => by simp [FileCounted, hparse, he]
    | ok policies =>
      dsimp only
      split
      · next hother =>
        -- the provider counts a file for another caller itself, and throws
        refine Books.congr (C := fun _ _ => True)
          (fun _ _ _ _ hlog => iff_true_intro (booked_failure hlog nofun (.inr (.inl rfl)))) ?_
        refine fun next log => iff_of_true trivial ⟨nofun, ?_⟩
        rintro _ ⟨⟩
        refine ⟨by simp [hparse], fun policies' hp hissuer hsubject => ?_⟩
        obtain rfl : policies = policies' := Except.ok.inj (hparse.symm.trans hp)
        exact absurd hother (by simp [hissuer, hsubject])
      · next hsame =>
        push Not at hsame
        refine (Books.call (o := .allowMetricsForClientId identity.getClientId) rfl
          fun _ => Books.pure _).congr fun next log => ?_
        simp [FileCounted, hparse, hsame, Answered]

/-- An absent policy is counted, whatever the reason. -/
theorem selectPolicy_books (identity : CallerIdentity) (annotations : EndorsementAnnotations) :
    Books getEncoded (serverAnswer mapper parseInstant outside)
      (selectPolicy env identity annotations) (PolicyCounted env outside identity annotations) := by
  refine (Books.bind (getPolicy_books identity annotations) fun policyOpt =>
    (?_ : Books _ _ _ fun next log => ∀ policy, policyOpt = some policy → next policy log)).congr
    fun next log => ?_
  · cases policyOpt with
    | none => exact (Books.fail .MISSING_POLICY _ nofun).congr fun next log => by simp
    | some policy => exact (Books.pure policy).congr fun next log => by simp
  · unfold PolicyCounted Answered
    cases outside log (.fetchFile identity.getClientId) with
    | error e => simp [Counted, FileCounted]
    | ok rawFileOpt =>
      cases rawFileOpt with
      | none => simp [Counted, FileCounted]
      | some rawFile =>
        cases hparse : FileSourcedPolicyProvider.parsePolicies env.format
          (env.format.toStringUtf8 rawFile) <;> simp [Counted, FileCounted, hparse, Answered]

theorem selectVerifier_books (evidence : AttestationEvidence) :
    Books getEncoded (serverAnswer mapper parseInstant outside) (selectVerifier env evidence)
      fun next log => ∀ verifier,
        AttestationVerifierProviderImpl.getVerifier env.verifiers evidence = some verifier →
          next verifier log := by
  unfold selectVerifier
  split
  next verifier h => exact (Books.pure verifier).congr fun next log => by simp [h]
  next h => exact (Books.fail .MISSING_VERIFIER _ nofun).congr fun next log => by simp [h]

theorem anyMatch_books (verifier : AttestationVerifier) (evidence : AttestationEvidence)
    (key : PublicKey) (rvs : List ReferenceValues) :
    Books getEncoded (serverAnswer mapper parseInstant outside)
      (do
        let hasBeenVerified ← anyMatch verifier evidence key rvs
        if hasBeenVerified then return ()
        else fail .INVALID_ATTESTATION_TOKEN (.lit "Attestation token is not valid"))
      fun next => VerdictsCounted outside verifier evidence key (next ()) rvs := by
  induction rvs with
  | nil => exact Books.fail .INVALID_ATTESTATION_TOKEN _ nofun
  | cons rv rest ih =>
    refine Books.call (o := .verify verifier evidence key rv)
      (k := fun verdict => (Prog.ofExcept verdict >>= fun verified =>
        if verified then pure true else anyMatch verifier evidence key rest) >>= _)
      (C := fun verdict next log =>
        match verdict with
        | .error _ => False
        | .ok true => next () log
        | .ok false => VerdictsCounted outside verifier evidence key (next ()) rest log)
      rfl fun verdict => ?_
    -- an exception, a rejection, which leads to the next reference value, or an acceptance
    rcases verdict with e | _ | _
    · exact Books.throw e
    · exact ih
    · exact Books.pure ()

theorem certificateValidity_books (policy : Policy) (validity : Validity) :
    Books getEncoded (serverAnswer mapper parseInstant outside)
      (certificateValidity policy validity) (PeriodCounted outside policy validity) := by
  have hnow : Books getEncoded (serverAnswer mapper parseInstant outside) now
      fun next => Answered outside .now next := Books.call rfl Books.pure
  refine (Books.bind hnow fun now => Books.bind (Books.ofExcept _) fun expiration =>
    (?_ : Books _ _ _ fun next log =>
      max now validity.notBefore ≤ min expiration validity.notAfter →
        next (max now validity.notBefore, min expiration validity.notAfter) log)).congr
    fun next log => Iff.rfl
  dsimp only
  split
  · next h =>
    refine (Books.fail .INCORRECT_CERTIFICATE_VALIDITY _ nofun).congr fun next log => ?_
    exact iff_of_true trivial fun hle => absurd hle (not_le.mpr h)
  · next h => exact (Books.pure _).congr fun next log => (imp_iff_right (not_lt.mp h)).symm

theorem verifyEvidence_books (verifier : AttestationVerifier) (evidence : AttestationEvidence)
    (key : PublicKey) (policy : Policy) :
    Books getEncoded (serverAnswer mapper parseInstant outside)
      (verifyEvidence verifier evidence key policy)
      fun next => VerdictsCounted outside verifier evidence key (next ())
        (policy.referenceValuesList.filter fun rv => rv.type = evidence.getReferenceValuesType) :=
  anyMatch_books verifier evidence key _

theorem booked_success {log : Log} (hlog : statuses log = []) (leaf root : X509Certificate)
    (clientId : JString) :
    Booked getEncoded (log ++ [⟨.incrementProcessingCounter .SUCCESS, ()⟩] ++
      [⟨.incrementCertificateIssuanceCounter clientId, ()⟩], .ok [leaf, root]) ↔
      ∃ leafBytes rootBytes, getEncoded leaf = .ok leafBytes ∧ getEncoded root = .ok rootBytes := by
  cases hleaf : getEncoded leaf <;> cases hroot : getEncoded root <;>
    simp [Booked, hlog, Op.status?, hleaf, hroot, bind, Except.bind, pure, Except.pure]

theorem signCsr_uncounted (lib : CertificateLibrary) (args : SignCsrArgs) :
    (CertificateSignerImpl.signCsr lib args).Calls fun o => o.status? = none := by
  refine .call rfl fun _ => .tryCatch
    (buildAndSign_calls (P := fun o => o.status? = none) rfl args) fun e => ?_
  split <;> exact .throw _

/-- The last stage, and what follows it. -/
theorem sign_booked {policy : Policy} {period : Instant × Instant} {log : Log}
    (hlog : statuses log = []) :
    Booked getEncoded ((do
      let signedCertificate ← sign env request policy period
      incrementProcessingCounter .SUCCESS
      incrementCertificateIssuanceCounter identity.getClientId
      return [signedCertificate, env.rootCertificate] : M _).run
        (serverAnswer mapper parseInstant outside) log) ↔
      SigningCounted env getEncoded mapper parseInstant outside request policy period log := by
  have hcaught : ∀ e : Thrown, e.isA .certificateException = true → Caught e :=
    fun _ he => .inr (.inr (.inr (.inr he)))
  unfold SigningCounted
  cases hsubject : createSubjectPrincipal env policy.certificateAttributes.certificateSubject with
  | error e =>
    refine booked_counting _ .SIGNING_ERROR nofun hcaught (Prog.run_bind_error ?_) hlog
    rw [hsubject, Prog.run_ofExcept]
  | ok subject =>
    obtain ⟨more, hmore, hquiet⟩ := (signCsr_uncounted env.lib
      (signCsrArgs env request policy period subject)).run_log
      (serverAnswer mapper parseInstant outside) log
    have hlog' : statuses (log ++ more) = [] := by simp [hlog, statuses_eq_nil hquiet]
    have hmade : (Prog.ofExcept (createSubjectPrincipal env
        policy.certificateAttributes.certificateSubject) : M _).run
        (serverAnswer mapper parseInstant outside) log = (log, .ok subject) := by
      rw [hsubject, Prog.run_ofExcept]
    dsimp only [Counted]
    cases hr : ((CertificateSignerImpl.signCsr env.lib
        (signCsrArgs env request policy period subject)).run
        (serverAnswer mapper parseInstant outside) log).2 with
    | error e =>
      exact booked_counting _ .SIGNING_ERROR nofun hcaught
        ((Prog.run_bind_ok hmade).trans (Prod.ext hmore hr)) hlog'
    | ok leaf =>
      have hsign : (sign env request policy period).run
          (serverAnswer mapper parseInstant outside) log = (log ++ more, .ok leaf) :=
        Prog.run_tryCatch_ok ((Prog.run_bind_ok hmade).trans (Prod.ext hmore hr))
      rw [Prog.run_bind_ok hsign]
      exact booked_success hlog' leaf env.rootCertificate identity.getClientId

theorem issueCertificate_booked {log : Log} (hlog : statuses log = []) :
    Booked getEncoded ((TransparentCaService.issueCertificate env request identity).run
        (serverAnswer mapper parseInstant outside) log) ↔
      ServiceCounted env getEncoded mapper parseInstant outside request identity log := by
  refine key_booked (fun key log hlog => ?_) hlog
  refine endorsement_booked (fun annotations validity log hlog => ?_) hlog
  refine selectPolicy_books identity annotations _ _ (fun policy log hlog => ?_) log hlog
  refine selectVerifier_books _ _ _ (fun verifier log hlog => ?_) log hlog
  refine verifyEvidence_books verifier _ key policy _ (fun _ => _) (fun _ log hlog => ?_) log hlog
  exact certificateValidity_books policy validity _ _ (fun period log hlog => sign_booked hlog) log
    hlog

end Service

/-! ## The handler -/

section Handler

variable {device : HandlerLog → (o : HandlerOp) → HandlerRet o} {log : HandlerLog} {e : Thrown}

theorem handle_run_caught (h : Caught e) (device : HandlerLog → (o : HandlerOp) → HandlerRet o)
    (log : HandlerLog) : ∃ status description, (handle e).run device log =
      (log ++ [⟨.inr (.onError status description), device log _⟩], .ok ()) := by
  unfold handle
  split_ifs with h₁ h₂ h₃ h₄ h₅
  · exact ⟨_, _, rfl⟩
  · exact ⟨_, _, rfl⟩
  · exact ⟨_, _, rfl⟩
  · exact ⟨_, _, rfl⟩
  · exact ⟨_, _, rfl⟩
  · simp [Caught, h₁, h₂, h₃, h₄, h₅] at h

theorem handle_run_other (h : ¬ Caught e) : (handle e).run device log = (log, .error e) := by
  simp only [Caught, not_or] at h
  obtain ⟨h₁, h₂, h₃, h₄, h₅⟩ := h
  rw [handle, if_neg h₁, if_neg h₂, if_neg h₃, if_neg h₄, if_neg h₅]
  rfl

/-- A request with one error as its reply. -/
theorem accounted_onError (hlog : rights log = []) (status : GrpcStatus) (description : JString)
    (r : Unit) :
    Accounted (log ++ [⟨.inr (.onError status description), r⟩], .ok ()) ↔
      ∃ status, status ≠ .SUCCESS ∧ statuses (lefts log) = [status] := by
  have hreplies : replies (log ++ [⟨.inr (.onError status description), r⟩]) =
      [.onError status description] := by
    simp [replies, hlog, rights]
  have hlefts : lefts (log ++ [⟨.inr (.onError status description), r⟩]) = lefts log := by
    simp [lefts]
  constructor
  · rintro ⟨-, -, status, hstatus, hiff⟩
    rw [hreplies] at hiff
    exact ⟨status, by simpa using hiff, hlefts ▸ hstatus⟩
  · rintro ⟨status, hne, hstatus⟩
    refine ⟨rfl, .inr ⟨_, _, hreplies⟩, status, hlefts ▸ hstatus, ?_⟩
    rw [hreplies]
    simpa using hne

/-- A request with a chain as its reply. -/
theorem accounted_onNext (hlog : rights log = []) (response : Proto.IssueCertificateResponse) :
    Accounted (log ++ [⟨.inr (.onNext response), ()⟩] ++ [⟨.inr .onCompleted, ()⟩], .ok ()) ↔
      statuses (lefts log) = [.SUCCESS] := by
  have hreplies : replies (log ++ [⟨.inr (.onNext response), ()⟩] ++ [⟨.inr .onCompleted, ()⟩]) =
      [.onNext response, .onCompleted] := by
    simp [replies, hlog, rights]
  have hlefts : lefts (log ++ [⟨.inr (.onNext response), ()⟩] ++ [⟨.inr .onCompleted, ()⟩]) =
      lefts log := by
    simp [lefts]
  have hdelivered : .onNext response ∈
      replies (log ++ [⟨.inr (.onNext response), ()⟩] ++ [⟨.inr .onCompleted, ()⟩]) := by
    rw [hreplies]
    exact List.mem_cons_self
  constructor
  · rintro ⟨-, -, status, hstatus, hiff⟩
    obtain rfl : status = .SUCCESS := hiff.mpr ⟨response, hdelivered⟩
    exact hlefts ▸ hstatus
  · intro hstatus
    exact ⟨rfl, .inl ⟨response, hreplies⟩, .SUCCESS, hlefts ▸ hstatus,
      iff_of_true rfl ⟨response, hdelivered⟩⟩

/-- A block that throws before it replies. -/
theorem accounted_thrown {p : H Unit} {log' : HandlerLog}
    (hrun : p.run device log = (log', .error e)) (hlog' : rights log' = []) :
    Accounted ((tryCatch p handle).run device log) ↔
      Caught e ∧ ∃ status, status ≠ .SUCCESS ∧ statuses (lefts log') = [status] := by
  rw [Prog.run_tryCatch_error hrun]
  by_cases he : Caught e
  · obtain ⟨status, description, hhandle⟩ := handle_run_caught he device log'
    rw [hhandle]
    exact (accounted_onError hlog' status description _).trans (and_iff_right he).symm
  · rw [handle_run_other he]
    exact iff_of_false (fun h => nomatch h.returns) fun h => he h.1

/-- The handler replies as the service has ended. -/
theorem respond_accounted {env : Env} {getEncoded : X509Certificate → Except Thrown Bytes}
    {answer : Log → (o : Op) → Ret o} {request : CertificateIssuanceRequest}
    {identity : CallerIdentity} :
    Accounted ((tryCatch (respond env getEncoded request identity) handle).run
        (both answer fun _ => ()) []) ↔
      Booked getEncoded
        ((TransparentCaService.issueCertificate env request identity).run answer []) := by
  obtain ⟨log, hrun, hleft, hright⟩ := Prog.run_lift answer (fun _ : Reply => ())
    (TransparentCaService.issueCertificate env request identity) []
  change lefts log = ((TransparentCaService.issueCertificate env request identity).run answer []).1
    at hleft
  change _ = (log, ((TransparentCaService.issueCertificate env request identity).run answer []).2)
    at hrun
  change rights log = [] at hright
  generalize (TransparentCaService.issueCertificate env request identity).run answer [] = out
    at hrun hleft ⊢
  obtain ⟨serviceLog, result⟩ := out
  subst hleft
  cases result with
  | error e => exact accounted_thrown (Prog.run_bind_error hrun) hright
  | ok chain =>
    cases hencoded : chain.mapM getEncoded with
    | error e =>
      have hthrown : (respond env getEncoded request identity).run (both answer fun _ => ()) [] =
          (log, .error e) := by
        refine (Prog.run_bind_ok hrun).trans (Prog.run_bind_error ?_)
        rw [hencoded, Prog.run_ofExcept]
      rw [accounted_thrown hthrown hright]
      simp [Booked, bind, Except.bind, hencoded]
    | ok signedCertificates =>
      have hbytes : (Prog.ofExcept (chain.mapM getEncoded) : H _).run (both answer fun _ => ())
          log = (log, .ok signedCertificates) := by
        rw [hencoded, Prog.run_ofExcept]
      have hreplied : (respond env getEncoded request identity).run (both answer fun _ => ()) [] =
          (log ++ [⟨.inr (.onNext ⟨signedCertificates⟩), ()⟩] ++ [⟨.inr .onCompleted, ()⟩],
            .ok ()) :=
        (Prog.run_bind_ok hrun).trans (Prog.run_bind_ok hbytes)
      rw [Prog.run_tryCatch_ok hreplied, accounted_onNext hright]
      simp [Booked, bind, Except.bind, hencoded]

end Handler

/-! ## The theorem -/

theorem create_eq_ok_of_not_blank {issuer subject : JString} {audiences : List JString}
    (hissuer : issuer.isBlank = false) (hsubject : subject.isBlank = false) :
    CallerIdentity.create issuer subject audiences =
      .ok ⟨issuer, subject, audiences, hissuer, hsubject⟩ := by
  unfold CallerIdentity.create
  split
  · next h => simp [hissuer] at h
  · split
    · next h => simp [hsubject] at h
    · rfl

theorem create_error_of_blank {issuer subject : JString} (audiences : List JString)
    (h : ¬ (issuer.isBlank = false ∧ subject.isBlank = false)) :
    ∃ e, CallerIdentity.create issuer subject audiences = .error e := by
  unfold CallerIdentity.create
  split
  · exact ⟨_, rfl⟩
  · next hissuer =>
    split
    · exact ⟨_, rfl⟩
    · next hsubject => exact absurd ⟨hissuer, hsubject⟩ h

theorem toDomain_error {evidence : Proto.AttestationEvidence} {e : Thrown}
    (h : AttestationEvidenceMapper.toDomain evidence = .error e) :
    e = IllegalArgumentException (.lit "Attestation evidence not set or unsupported") := by
  cases evidence <;> cases h
  rfl

/-- Request accounting. A request with an issuer, a subject and audiences in its context is
accounted for if and only if the caller is not blank and every failure that the request meets is
counted where it is met. -/
theorem issueCertificate_accounted_iff (env : Env)
    (getEncoded : X509Certificate → Except Thrown Bytes)
    (mapper : Bytes → Except Thrown Json.InTotoStatement)
    (parseInstant : JString → Except Thrown Instant) (outside : Log → (o : Op) → Ret o)
    (issuer subject : JString) (audiences : List JString)
    (request : Proto.IssueCertificateRequest) :
    Accounted (run env getEncoded mapper parseInstant outside (some issuer) (some subject)
        (some audiences) request) ↔
      FailuresCounted env getEncoded mapper parseInstant outside issuer subject audiences
        request := by
  unfold run issueCertificate FailuresCounted CertificateIssuanceRequestMapper.toDomain
  dsimp only
  by_cases hblank : issuer.isBlank = false ∧ subject.isBlank = false
  · obtain ⟨hissuer, hsubject⟩ := hblank
    rw [create_eq_ok_of_not_blank hissuer hsubject, exists_prop_of_true hissuer,
      exists_prop_of_true hsubject]
    cases hevidence : AttestationEvidenceMapper.toDomain request.attestationEvidence with
    | ok evidence =>
      refine respond_accounted.trans ((issueCertificate_booked rfl).trans ?_)
      exact ⟨fun h _ he => Except.ok.inj he ▸ h, fun h => h evidence rfl⟩
    | error e =>
      obtain rfl := toDomain_error hevidence
      refine iff_of_true ?_ nofun
      exact (accounted_onError rfl _ _ _).mpr ⟨.INVALID_EVIDENCE, nofun, rfl⟩
  · obtain ⟨e, he⟩ := create_error_of_blank audiences hblank
    rw [he]
    refine iff_of_false (fun h => nomatch h.returns) ?_
    rintro ⟨hissuer, hsubject, -⟩
    exact hblank ⟨hissuer, hsubject⟩

/-- The run of the sample server for its caller, with some audiences and evidence. -/
def sampleRun (audiences : List JString) (evidence : Proto.AttestationEvidence) :
    HandlerLog × Except Thrown Unit :=
  run (Sample.env (.lit "dev@acme")) (fun certificate => .ok certificate.signature)
    (fun _ => .error ⟨.ioException, []⟩) (fun _ => .error ⟨.dateTimeParseException, []⟩)
    (Sample.answer (.lit "dev@acme")) (some Sample.identity.issuer) (some Sample.identity.subject)
    (some audiences) ⟨Sample.csr, evidence⟩

/-- A token without audiences is refused, and the refusal is counted. -/
example : (sampleRun [] (.awsAttestationEvidence [])).2 = .ok () ∧
    replies (sampleRun [] (.awsAttestationEvidence [])).1 =
      [.onError .PERMISSION_DENIED (.lit "OIDC audience binding validation failed.")] ∧
    statuses (lefts (sampleRun [] (.awsAttestationEvidence [])).1) = [.AUDIENCE_MISMATCH] := by
  decide +kernel

/-- With evidence of AWS, a request that passes the checks before it has neither a reply nor a
count: the exception of `getRawBinaryEndorsement` escapes. -/
theorem issueCertificate_aws_escapes :
    ¬ ∀ (env : Env) (getEncoded : X509Certificate → Except Thrown Bytes)
      (mapper : Bytes → Except Thrown Json.InTotoStatement)
      (parseInstant : JString → Except Thrown Instant) (outside : Log → (o : Op) → Ret o)
      (issuer subject : JString) (audiences : List JString)
      (request : Proto.IssueCertificateRequest),
      Accounted (run env getEncoded mapper parseInstant outside (some issuer) (some subject)
        (some audiences) request) := by
  intro hclaim
  have hreturns : (sampleRun Sample.identity.audiences (.awsAttestationEvidence [])).2 = .ok () :=
    (hclaim _ _ _ _ _ _ _ _ _).returns
  have hescapes : (sampleRun Sample.identity.audiences (.awsAttestationEvidence [])).2 =
      .error ⟨.unsupportedOperationException,
        .lit "In-toto endorsements properties extraction not supported for AWS yet"⟩ := by
    decide +kernel
  rw [hescapes] at hreturns
  cases hreturns

end TransparentCertificateAuthorityGrpcHandler

end Issuance
end TrustedCa
