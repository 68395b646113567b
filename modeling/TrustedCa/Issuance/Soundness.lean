import TrustedCa.Issuance.Stages

/-!
# Issuance soundness

The signer is called only after every check has passed, and a certificate that is returned is for the
key that was checked.

* `Admission`: what the checks were about, and `Admission.Valid`: that they passed, read off the log
  before the call of the signer.
* `SignCsrEnds`: the run of the signer, from the log at its call.
* The device that answers the calls is arbitrary, so the answers of the fetcher, the endorsement
  parser and the verifiers are, too, from call to call.
-/

namespace TrustedCa
namespace Issuance

open Spec TransparentCaService

/-! ## The signer -/

section Signer

variable {answer : Log → (o : Op) → Ret o} {pending : Op → Log → Prop} {lib : CertificateLibrary}

theorem buildAndSign_stage (hfree : ∀ o, o.Silent → ∀ log, pending o log) (args : SignCsrArgs) :
    Stage answer pending (CertificateSignerImpl.buildAndSign lib args) fun leaf _ =>
      ∃ csr, lib.parseCsr args.csrBytes = .ok csr ∧
        lib.pemPublicKey csr.getSubjectPublicKeyInfo = .ok leaf.publicKey := by
  refine Adds.bind (Adds.ofExcept (Q := fun csr _ => lib.parseCsr args.csrBytes = .ok csr)
    fun _ h => h) fun csr _ hcsr => ?_
  refine Adds.bind (now_stage hfree) fun time _ _ => ?_
  refine Adds.bind (Adds.ofExcept (Q := fun _ _ => True) fun _ _ => trivial) fun serial _ _ => ?_
  refine Adds.bind (Adds.ofExcept (Q := fun b _ =>
    CertificateSignerImpl.build lib args csr serial = .ok b) fun _ h => h) fun b _ hb => ?_
  refine Adds.bind (Adds.ofExcept (Q := fun _ _ => True) fun _ _ => trivial) fun _ _ _ => ?_
  exact Adds.pure ⟨csr, hcsr, (CertificateSignerImpl.build_ok hb).1⟩

/-- A certificate that `signCsr` returns is for the key in the request, as the PEM converter reads
it. -/
theorem signCsr_run_ok {args : SignCsrArgs} {log log' : Log} {leaf : X509Certificate}
    (h : (CertificateSignerImpl.signCsr lib args).run answer log = (log', .ok leaf)) :
    ∃ csr, lib.parseCsr args.csrBytes = .ok csr ∧
      lib.pemPublicKey csr.getSubjectPublicKeyInfo = .ok leaf.publicKey := by
  have hstage : Stage answer (fun _ _ => True) (CertificateSignerImpl.buildAndSign lib args) _ :=
    buildAndSign_stage (fun _ _ _ => trivial) args
  have htry : Stage answer (fun _ _ => True) (tryCatch (CertificateSignerImpl.buildAndSign lib args)
      fun e => if e.isA .operatorCreationException || e.isA .generalSecurityException then
        throw ⟨.certificateException, e.message⟩ else throw e) _ :=
    Adds.tryCatch hstage fun e more => by split <;> exact Adds.throw
  obtain ⟨_, -, -, hkey⟩ := wp_run (htry (log ++ [⟨.signCsr args, ()⟩]))
  exact hkey leaf (congrArg Prod.snd h)

/-- Of the calls, the signer makes only that of the clock. -/
theorem buildAndSign_calls {P : Op → Prop} (hnow : P .now) (args : SignCsrArgs) :
    (CertificateSignerImpl.buildAndSign lib args).Calls P := by
  have hclock : now.Calls P := .call hnow fun time => .ret time
  refine .bind (.ofExcept _) fun csr => .bind hclock fun time => .bind (.ofExcept _) fun serial => ?_
  exact .bind (.ofExcept _) fun b => .bind (.ofExcept _) fun signature => .ret _

theorem signCsr_wp (hfree : ∀ o, o.Silent → ∀ log, pending o log) {args : SignCsrArgs} {log : Log}
    (hp : pending (.signCsr args) log) :
    wp (recorded answer pending) (CertificateSignerImpl.signCsr lib args) (fun r log' =>
      (CertificateSignerImpl.signCsr lib args).run answer log = (log', r)) log := by
  refine wp_recorded_call hp ?_
  rintro _ rfl
  refine wp_self (.tryCatch (buildAndSign_calls (hfree .now trivial) args) fun e => ?_)
  split <;> exact .throw _

end Signer

/-! ## Admission -/

/-- What a certificate is issued on. -/
structure Admission where
  csr : PKCS10CertificationRequest
  key : PublicKey
  endorsement : Bytes
  annotations : EndorsementAnnotations
  validity : Validity
  file : Bytes
  policies : Policies
  policy : Policy
  verifier : AttestationVerifier
  referenceValues : ReferenceValues
  now : Instant

/-- Every check has passed, and the signer is called with `args`. -/
structure Admission.Valid (a : Admission) (env : Env) (request : CertificateIssuanceRequest)
    (identity : CallerIdentity) (args : SignCsrArgs) (log : Log) : Prop where
  csr : env.lib.parseCsr request.certificateSigningRequest = .ok a.csr
  key : ∃ bytes, env.lib.encodeKeyInfo a.csr.getSubjectPublicKeyInfo = .ok bytes ∧
    PublicKeyDecoder.decodeRawPublicKey env.lib bytes = .ok a.key
  /-- The audience validator accepted the key for this caller. -/
  audience : OidcAudienceBindingValidator.validate env.trustDomain env.metadata env.sha256 a.key
    identity = .ok ()
  endorsement : request.attestationEvidence.getRawBinaryEndorsement env.parseContainerEndorsement =
    .ok a.endorsement
  annotations : ⟨.getAnnotations a.endorsement, .ok a.annotations⟩ ∈ log
  validity : ⟨.getValidity a.endorsement, .ok a.validity⟩ ∈ log
  /-- The policy is from the file fetched for the caller, and the file names the caller. -/
  policy : Selected env.format identity a.annotations a.file a.policies a.policy log
  verifier : AttestationVerifierProviderImpl.getVerifier env.verifiers request.attestationEvidence =
    some a.verifier
  listed : a.referenceValues ∈ a.policy.referenceValuesList
  type : a.referenceValues.type = request.attestationEvidence.getReferenceValuesType
  /-- A verifier accepted the evidence for the same key. -/
  verified : ⟨.verify a.verifier request.attestationEvidence a.key a.referenceValues, .ok true⟩ ∈ log
  now : ⟨.now, a.now⟩ ∈ log
  notBefore : args.notBefore = max a.now a.validity.notBefore
  notAfter : ∃ expiration : Instant, args.notAfter = min expiration a.validity.notAfter ∧
    expiration.nanos =
      a.now.nanos + a.policy.certificateAttributes.maxCertificateValidity.nanos
  period : args.notBefore ≤ args.notAfter
  request : args.csrBytes = request.certificateSigningRequest
  issuer : args.issuerCert = env.rootCertificate ∧ args.issuerPrivateKey = env.privateKey
  modifiers : args.modifiers = CertificateModifiersCreatorImpl.create env.trustDomain a.policy
  subject : createSubjectPrincipal env a.policy.certificateAttributes.certificateSubject =
    .ok args.subject

/-- `signCsr args`, called when the log was `before`, ended with `r`. -/
def SignCsrEnds (env : Env) (answer : Log → (o : Op) → Ret o) (args : SignCsrArgs) (before : Log)
    (r : Except Thrown X509Certificate) (log : Log) : Prop :=
  ∃ during after, log = before ++ during ++ after ∧
    (CertificateSignerImpl.signCsr env.lib args).run answer before = (before ++ during, r)

/-- Who calls the signer has an admission. -/
def Justified (env : Env) (request : CertificateIssuanceRequest) (identity : CallerIdentity) :
    Op → Log → Prop
  | .signCsr args, log => ∃ a : Admission, a.Valid env request identity args log
  | _, _ => True

/-- How `issueCertificate` ends. -/
def Outcome (env : Env) (answer : Log → (o : Op) → Ret o) (request : CertificateIssuanceRequest)
    (identity : CallerIdentity) : Except Thrown (List X509Certificate) → Log → Prop
  | .ok chain, log => ∃ (a : Admission) (args : SignCsrArgs) (leaf : X509Certificate) (before : Log),
      chain = [leaf, env.rootCertificate] ∧ a.Valid env request identity args before ∧
        (∀ ev ∈ before, ev.1.Silent) ∧ SignCsrEnds env answer args before (.ok leaf) log
  | .error e, log => (∀ ev ∈ log, ev.1.Silent) ∨
      ∃ (a : Admission) (args : SignCsrArgs) (before : Log),
        a.Valid env request identity args before ∧ SignCsrEnds env answer args before (.error e) log

section Service

variable {env : Env} {answer : Log → (o : Op) → Ret o} {request : CertificateIssuanceRequest}
  {identity : CallerIdentity}

theorem justified_of_silent (o : Op) (ho : o.Silent) (log : Log) :
    Justified env request identity o log := by
  cases o with
  | signCsr args => exact False.elim ho
  | _ => trivial

theorem silent_append {log more : Log} (hlog : ∀ ev ∈ log, ev.1.Silent)
    (hmore : ∀ ev ∈ more, ev.1.Silent) : ∀ ev ∈ log ++ more, ev.1.Silent := by
  intro ev hev
  exact (List.mem_append.mp hev).elim (hlog ev) (hmore ev)

theorem sign_wp {pending : Op → Log → Prop} (hfree : ∀ o, o.Silent → ∀ log, pending o log)
    {policy : Policy} {period : Instant × Instant}
    {Q : Except Thrown X509Certificate → Log → Prop} {log : Log}
    (hpending : ∀ subject,
      createSubjectPrincipal env policy.certificateAttributes.certificateSubject = .ok subject →
      pending (.signCsr (signCsrArgs env request policy period subject)) log)
    (hfail : ∀ e more, (∀ ev ∈ more, ev.1.Silent) → Q (.error e) (log ++ more))
    (hsigned : ∀ subject r during more,
      createSubjectPrincipal env policy.certificateAttributes.certificateSubject = .ok subject →
      (CertificateSignerImpl.signCsr env.lib (signCsrArgs env request policy period subject)).run
        answer log = (log ++ during, r) → Q r (log ++ during ++ more)) :
    wp (recorded answer pending) (sign env request policy period) Q log := by
  refine counting_wp hfree ?_
  rw [wp_bind, wp_ofExcept]
  cases hsubject : createSubjectPrincipal env policy.certificateAttributes.certificateSubject with
  | error e => exact fun more hmore => hfail e more hmore
  | ok subject =>
    refine wp_mono ?_ _ (signCsr_wp hfree (hpending subject hsubject))
    intro r log' hrun more _
    obtain ⟨during, hduring⟩ := Prog.run_log answer
      (CertificateSignerImpl.signCsr env.lib (signCsrArgs env request policy period subject)) log
    have hlog' : log' = log ++ during := by rw [← hduring, hrun]
    subst hlog'
    exact hsigned subject r during more hsubject hrun

theorem extractPublicKey_ok {key : PublicKey} (h : extractPublicKey env request = .ok key) :
    ∃ csr bytes, env.lib.parseCsr request.certificateSigningRequest = .ok csr ∧
      env.lib.encodeKeyInfo csr.getSubjectPublicKeyInfo = .ok bytes ∧
      PublicKeyDecoder.decodeRawPublicKey env.lib bytes = .ok key := by
  unfold extractPublicKey at h
  simp only [bind_eq_ok] at h
  obtain ⟨csr, hcsr, bytes, hbytes, hkey⟩ := h
  exact ⟨csr, bytes, hcsr, hbytes, hkey⟩

theorem outcome_of_silent {log : Log} (hlog : ∀ ev ∈ log, ev.1.Silent) (e : Thrown) (more : Log)
    (hmore : ∀ ev ∈ more, ev.1.Silent) :
    Outcome env answer request identity (.error e) (log ++ more) :=
  .inl (silent_append hlog hmore)

/-- The endorsement in the evidence, at each of the two places where it is taken out. -/
theorem endorsement_stage {pending : Op → Log → Prop} :
    Stage answer pending (Prog.ofExcept (request.attestationEvidence.getRawBinaryEndorsement
      env.parseContainerEndorsement)) fun endorsement _ =>
        request.attestationEvidence.getRawBinaryEndorsement env.parseContainerEndorsement =
          .ok endorsement :=
  Adds.ofExcept fun _ h => h

theorem issueCertificate_wp (env : Env) (answer : Log → (o : Op) → Ret o)
    (request : CertificateIssuanceRequest) (identity : CallerIdentity) :
    wp (recorded answer (Justified env request identity)) (issueCertificate env request identity)
      (Outcome env answer request identity) [] := by
  have hfree : ∀ o, Op.Silent o → ∀ log, Justified env request identity o log :=
    justified_of_silent
  have h₀ : ∀ ev ∈ ([] : Log), ev.1.Silent := by simp
  refine (extractPublicKey_stage hfree request).wp_bind (fun key l₁ h₁ hkey => ?_)
    (outcome_of_silent h₀)
  replace h₁ := silent_append h₀ h₁
  refine (validateAudience_stage hfree key identity).wp_bind (fun _ l₂ h₂ haudience => ?_)
    (outcome_of_silent h₁)
  replace h₂ := silent_append h₁ h₂
  refine Adds.wp_bind endorsement_stage (fun endorsement l₃ h₃ hendorsement => ?_)
    (outcome_of_silent h₂)
  replace h₃ := silent_append h₂ h₃
  refine (getAnnotations_stage hfree endorsement).wp_bind (fun annotations l₄ h₄ hannotations => ?_)
    (outcome_of_silent h₃)
  replace h₄ := silent_append h₃ h₄
  refine Adds.wp_bind endorsement_stage (fun endorsement' l₅ h₅ hendorsement' => ?_)
    (outcome_of_silent h₄)
  obtain rfl : endorsement = endorsement' := Except.ok.inj (hendorsement.symm.trans hendorsement')
  replace h₅ := silent_append h₄ h₅
  refine (getValidity_stage hfree endorsement).wp_bind (fun validity l₆ h₆ hvalidity => ?_)
    (outcome_of_silent h₅)
  replace h₆ := silent_append h₅ h₆
  refine (selectPolicy_stage hfree identity annotations).wp_bind (fun policy l₇ h₇ hpolicy => ?_)
    (outcome_of_silent h₆)
  replace h₇ := silent_append h₆ h₇
  refine (selectVerifier_stage hfree _).wp_bind (fun verifier l₈ h₈ hverifier => ?_)
    (outcome_of_silent h₇)
  replace h₈ := silent_append h₇ h₈
  refine (verifyEvidence_stage hfree verifier _ key policy).wp_bind (fun _ l₉ h₉ hverified => ?_)
    (outcome_of_silent h₈)
  replace h₉ := silent_append h₈ h₉
  refine (certificateValidity_stage hfree policy validity).wp_bind (fun period l h hperiod => ?_)
    (outcome_of_silent h₉)
  replace h := silent_append h₉ h
  -- every check has passed: what the signer is called with is an admission
  obtain ⟨csr, bytes, hcsr, hbytes, hdecode⟩ := extractPublicKey_ok hkey
  obtain ⟨file, policies, hselected⟩ := hpolicy
  obtain ⟨rv, hlisted, htype, hrv⟩ := hverified
  obtain ⟨now, expiration, hnow, hplus, hstart, hend, hle⟩ := hperiod
  have hvalid : ∀ subject,
      createSubjectPrincipal env policy.certificateAttributes.certificateSubject = .ok subject →
      Admission.Valid ⟨csr, key, endorsement, annotations, validity, file, policies, policy,
        verifier, rv, now⟩ env request identity (signCsrArgs env request policy period subject)
        ([] ++ l₁ ++ l₂ ++ l₃ ++ l₄ ++ l₅ ++ l₆ ++ l₇ ++ l₈ ++ l₉ ++ l) := by
    intro subject hsubject
    exact {
      csr := hcsr
      key := ⟨bytes, hbytes, hdecode⟩
      audience := haudience
      endorsement := hendorsement
      annotations := by simp [hannotations]
      validity := by simp [hvalidity]
      policy := hselected.mono fun ev hev => by simp [hev]
      verifier := hverifier
      listed := hlisted
      type := htype
      verified := by simp [hrv]
      now := by simp [hnow]
      notBefore := hstart
      notAfter := ⟨expiration, hend, Instant.plus_ok hplus⟩
      period := hle
      request := rfl
      issuer := ⟨rfl, rfl⟩
      modifiers := rfl
      subject := hsubject }
  rw [wp_bind]
  refine sign_wp hfree (fun subject hs => ⟨_, hvalid subject hs⟩)
    (fun e more hmore => outcome_of_silent h e more hmore) fun subject r during more hs hrun => ?_
  cases r with
  | error e => exact .inr ⟨_, _, _, hvalid subject hs, during, more, rfl, hrun⟩
  | ok leaf =>
    refine wp_recorded_call trivial fun _ _ => wp_recorded_call trivial fun _ _ => ?_
    exact ⟨_, _, leaf, _, rfl, hvalid subject hs, h, during, _,
      (List.append_assoc _ _ _).trans (List.append_assoc _ _ _), hrun⟩

end Service

/-! ## The theorem -/

/-- Issuance soundness. A chain that is returned is the leaf and the root, the leaf is for the key of
the request, and every check has passed for that key. The signer is never called but after all checks
have passed, and where no chain is returned, either it was not called or it threw itself. -/
theorem issueCertificate_sound (env : Env) (hkeys : env.lib.KeysAgree)
    (answer : Log → (o : Op) → Ret o) (request : CertificateIssuanceRequest)
    (identity : CallerIdentity) {log : Log} {result : Except Thrown (List X509Certificate)}
    (hrun : (issueCertificate env request identity).run answer [] = (log, result)) :
    (∀ chain, result = .ok chain →
      ∃ (a : Admission) (args : SignCsrArgs) (leaf : X509Certificate) (before : Log),
        chain = [leaf, env.rootCertificate] ∧ leaf.publicKey = a.key ∧
          a.Valid env request identity args before ∧
          SignCsrEnds env answer args before (.ok leaf) log) ∧
    (∀ args before after, log = before ++ ⟨.signCsr args, ()⟩ :: after →
      ∃ a : Admission, a.Valid env request identity args before) ∧
    (∀ e, result = .error e → (∀ args, ⟨.signCsr args, ()⟩ ∉ log) ∨
      ∃ (a : Admission) (args : SignCsrArgs) (before : Log),
        a.Valid env request identity args before ∧
          SignCsrEnds env answer args before (.error e) log) := by
  have hwp := issueCertificate_wp env answer request identity
  have hout := wp_run hwp
  rw [hrun] at hout
  refine ⟨?_, ?_, ?_⟩
  · rintro chain rfl
    obtain ⟨a, args, leaf, before, hchain, hvalid, -, hsign⟩ := hout
    refine ⟨a, args, leaf, before, hchain, ?_, hvalid, hsign⟩
    obtain ⟨_, _, -, hsigned⟩ := hsign
    obtain ⟨csr, hcsr, hpem⟩ := signCsr_run_ok hsigned
    obtain ⟨bytes, hbytes, hdecode⟩ := hvalid.key
    -- the request is parsed a second time, from the same bytes
    rw [hvalid.request, hvalid.csr] at hcsr
    cases hcsr
    exact hkeys _ _ _ _ hbytes (PublicKeyDecoder.decodeRawPublicKey_ok hdecode) hpem
  · intro args before after hlog
    exact wp_run_pending hwp (by rw [hrun, hlog]; rfl)
  · rintro e rfl
    refine hout.imp_left fun hsilent args hmem => ?_
    exact hsilent _ hmem

/-! ### A run that issues a certificate, and one in which the signer throws -/

namespace Sample

/-- An RSA key with a modulus of 512 bits. -/
def keyInfo : Bytes :=
  [0x30, 0x5c, 0x30, 0x0d, 0x06, 0x09, 0x2a, 0x86, 0x48, 0x86, 0xf7, 0x0d, 0x01, 0x01, 0x01, 0x05,
   0x00, 0x03, 0x4b, 0x00, 0x30, 0x48, 0x02, 0x41, 0x00, 0xb4, 0x98, 0x66, 0xd7, 0x4a, 0x4b, 0x76,
   0x11, 0xdc, 0x81, 0xa5, 0x8a, 0x82, 0x13, 0x0e, 0xc2, 0xc7, 0x41, 0x95, 0x62, 0xb6, 0x3f, 0xd3,
   0xfe, 0x38, 0x30, 0x02, 0xe0, 0x3e, 0xef, 0x84, 0x94, 0xf6, 0xf9, 0x92, 0xd7, 0xc8, 0x4c, 0xb7,
   0x61, 0x3d, 0x2b, 0x0c, 0xab, 0x6b, 0xe9, 0x81, 0xac, 0x60, 0xa9, 0x8a, 0xc6, 0xe6, 0x31, 0xca,
   0x37, 0xef, 0xde, 0x11, 0xb0, 0x06, 0x10, 0x97, 0x41, 0x02, 0x03, 0x01, 0x00, 0x01]

/-- A certificate signing request for the key. -/
def csr : Bytes :=
  [0x30, 0x81, 0xb9, 0x30, 0x65, 0x02, 0x01, 0x00, 0x30, 0x00] ++ keyInfo ++
  [0xa0, 0x00, 0x30, 0x0d, 0x06, 0x09, 0x2a, 0x86, 0x48, 0x86, 0xf7, 0x0d, 0x01, 0x01, 0x0b, 0x05,
   0x00, 0x03, 0x41, 0x00, 0x15, 0x62, 0x5c, 0x68, 0xc6, 0x9c, 0xe7, 0x60, 0xe2, 0xde, 0x8d, 0xde,
   0x20, 0x3b, 0xe3, 0x5e, 0x39, 0x69, 0x4b, 0x37, 0x96, 0x9f, 0xfb, 0x6c, 0xce, 0x8e, 0x56, 0xf3,
   0x36, 0xbf, 0x80, 0x73, 0x99, 0x01, 0x64, 0x8a, 0xe3, 0xb2, 0x34, 0xaa, 0x85, 0xf5, 0x7f, 0xe4,
   0xbb, 0x67, 0xfe, 0x64, 0x3d, 0xf9, 0x99, 0x20, 0xce, 0x12, 0xae, 0xce, 0x73, 0x21, 0xac, 0x11,
   0xb0, 0x2a, 0x1e, 0xa8]

/-- Its SHA-256. -/
def digest : Bytes :=
  [0x62, 0xc4, 0xb7, 0xd2, 0x19, 0x26, 0xcb, 0xd5, 0x20, 0xa5, 0x35, 0x8f, 0xbc, 0x8b, 0xf8, 0x46,
   0x90, 0x13, 0x87, 0xf2, 0xf9, 0x7a, 0x6d, 0xb1, 0xac, 0xb5, 0x7f, 0x84, 0xa5, 0xbc, 0x3c, 0x38]

/-- The name without attributes. -/
def emptyName : X500Principal := ⟨[0x30, 0x00], []⟩

def rootCertificate : X509Certificate where
  issuer := emptyName
  serial := 1
  notBefore := 1600000000000
  notAfter := 1900000000000
  subject := emptyName
  publicKey := ⟨[0x30, 0x00]⟩
  signature := [0x00]

def unsupported : Thrown := ⟨.ioException, .lit "malformed data"⟩

/-- What the libraries compute for the key and the request. -/
def lib : CertificateLibrary where
  parseCsr bytes := if bytes = csr then .ok ⟨⟨keyInfo⟩⟩ else .error unsupported
  encodeKeyInfo info := .ok info.der
  generatePublicRsa bytes :=
    if bytes = keyInfo then .ok ⟨keyInfo⟩ else .error ⟨.invalidKeySpecException, []⟩
  pemPublicKey info := if info.der = keyInfo then .ok ⟨keyInfo⟩ else .error unsupported
  x500Name attributes := if attributes = [] then .ok emptyName else .error unsupported
  authorityKeyIdentifier _ := .ok []
  authorityKeyIdentifierOfKey _ := .ok []
  subjectKeyIdentifier _ := .ok []
  addExtension _ _ := .ok ()
  sign _ _ := .ok [0x01]

theorem lib_keysAgree : lib.KeysAgree := by
  rintro ⟨der⟩ bytes key key' hbytes hkey hkey'
  cases hbytes
  simp only [lib] at hkey hkey'
  split at hkey
  next h => rw [if_pos h] at hkey'; cases hkey; cases hkey'; rfl
  next => cases hkey

/-- The lines of a policy file with one policy of the publisher. -/
def text (publisherId : JString) : JString :=
  .lit "issuer: \"https://issuer\"\n" ++
    .lit "subject: \"client\"\n" ++
    .lit "policies \x7b\n" ++
    .lit "key: \"" ++ publisherId ++ .lit "/app\"\n" ++
    .lit "value \x7b\n" ++
    .lit "publisher_id: \"" ++ publisherId ++ .lit "\"\n" ++
    .lit "workload_id: \"app\"\n" ++
    .lit "operator_domain: \"ops\"\n" ++
    .lit "operator_role: \"main\"\n" ++
    .lit "reference_values \x7b\n" ++
    .lit "oak_reference_values \x7b\x7d \x7d\n" ++
    .lit "certificate_attributes \x7b\n" ++
    .lit "max_certificate_validity \x7b\n" ++
    .lit "seconds: 3600 \x7d \x7d \x7d \x7d\n"

/-- What the text says. -/
def policies (publisherId : JString) : Proto.Policies Proto.V2.Policy where
  issuer := .lit "https://issuer"
  subject := .lit "client"
  policiesMap := [(publisherId ++ .lit "/app",
    { publisherId := publisherId, workloadId := .lit "app", operatorDomain := .lit "ops",
      operatorRole := .lit "main", referenceValues := [⟨some []⟩],
      certificateAttributes := some { maxCertificateValidity := { seconds := 3600 } } })]

def statement : Bytes := [0x7b, 0x7d]

/-- An endorsement of a container whose binary has the statement. -/
def containerEndorsement : Bytes := [0x12, 0x06, 0x0a, 0x04, 0x12, 0x02] ++ statement

def env (publisherId : JString) : Env where
  rootCertificate := rootCertificate
  privateKey := ⟨[]⟩
  trustDomain := .lit "tca.example"
  metadata := ⟨.lit "eu", .lit "prod", .lit "example"⟩
  verifiers := provideVerifiers
  sha256 bytes := if bytes = keyInfo then digest else []
  parseContainerEndorsement value := if value = containerEndorsement then some statement else none
  format := {
    toStringUtf8 bytes := bytes.map UInt8.toUInt16
    mergeV1 _ := .error ⟨.parseException, []⟩
    mergeV2 content :=
      if content = text publisherId then .ok (policies publisherId) else .error ⟨.parseException, []⟩
    toString _ := [] }
  lib := lib

def request : CertificateIssuanceRequest where
  attestationEvidence :=
    .oak [] { events := [⟨AttestationEvidence.containerEndorsementId, containerEndorsement⟩] } []
  certificateSigningRequest := csr

def identity : CallerIdentity where
  issuer := .lit "https://issuer"
  subject := .lit "client"
  audiences := [.lit "https://tca.example/v1/certificates:issue?pubkey_sha256=" ++
    JString.base16 digest]
  issuer_not_blank := by decide
  subject_not_blank := by decide

theorem instant_ge (seconds : Nat) : minSecond ≤ seconds * nanosPerSecond / nanosPerSecond := by
  simp only [minSecond, nanosPerSecond]
  omega

theorem instant_le {seconds : Nat} (h : seconds < 2000000000) :
    seconds * nanosPerSecond / nanosPerSecond ≤ maxSecond := by
  simp only [maxSecond, nanosPerSecond]
  omega

def instant (seconds : Nat) (h : seconds < 2000000000) : Instant where
  nanos := seconds * nanosPerSecond
  seconds_ge := instant_ge seconds
  seconds_le := instant_le h

/-- A file is there, the endorsement is valid for a while, and the evidence verifies. -/
def answer (publisherId : JString) (_ : Log) : (o : Op) → Ret o
  | .fetchFile _ => .ok (some ((text publisherId).map UInt16.toUInt8))
  | .getAnnotations _ => .ok ⟨publisherId, .lit "app"⟩
  | .getValidity _ =>
    .ok ⟨instant 1700000000 (by decide), instant 1800000000 (by decide)⟩
  | .verify .. => .ok true
  | .now => instant 1700000100 (by decide)
  | .signCsr _ | .incrementProcessingCounter _ | .allowMetricsForClientId _
  | .incrementCertificateIssuanceCounter _ => ()

/-- The run for a publisher. -/
def run (publisherId : JString) : Log × Except Thrown (List X509Certificate) :=
  (issueCertificate (env publisherId) request identity).run (answer publisherId) []

/-- The certificate for the publisher `dev@acme`. -/
def leaf : X509Certificate where
  issuer := emptyName
  serial := 1700000100000
  notBefore := 1700000100000
  notAfter := 1700003700000
  subject := emptyName
  publicKey := ⟨keyInfo⟩
  extensions := [⟨false, .authorityKeyIdentifier []⟩, ⟨false, .subjectKeyIdentifier []⟩,
    ⟨true, .subjectAlternativeName (.uniformResourceIdentifier (.ofString
      (.lit "spiffe://ops.tca.example/operator/ops/main/publisher/acme/dev/workload/app")))⟩]
  signature := [0x01]

end Sample

theorem Sample.run_dev :
    (Sample.run (.lit "dev@acme")).2 = .ok [Sample.leaf, Sample.rootCertificate] := by
  decide +kernel

/-- The theorem for a request that is granted. -/
theorem issueCertificate_sound_granted :
    (Sample.run (.lit "dev@acme")).2 = .ok [Sample.leaf, Sample.rootCertificate] ∧
      ∃ (a : Admission) (args : SignCsrArgs) (before : Log), Sample.leaf.publicKey = a.key ∧
        a.Valid (Sample.env (.lit "dev@acme")) Sample.request Sample.identity args before := by
  have hok := Sample.run_dev
  obtain ⟨a, args, leaf, before, hchain, hkey, hvalid, -⟩ :=
    (issueCertificate_sound (Sample.env (.lit "dev@acme")) Sample.lib_keysAgree
      (Sample.answer (.lit "dev@acme")) Sample.request Sample.identity (Prod.eta _).symm).1 _ hok
  obtain rfl : Sample.leaf = leaf := (List.cons.inj hchain).1
  exact ⟨hok, a, args, before, hkey, hvalid⟩

/-- A publisher without an at sign passes every check, and the signer throws: it is called and no
chain is returned. -/
theorem signCsr_called_without_chain :
    ¬ ∀ (env : Env) (answer : Log → (o : Op) → Ret o) (request : CertificateIssuanceRequest)
      (identity : CallerIdentity) (log : Log) (result : Except Thrown (List X509Certificate)),
      env.lib.KeysAgree → (issueCertificate env request identity).run answer [] = (log, result) →
      (∀ chain, result ≠ .ok chain) → ∀ args, ⟨.signCsr args, ()⟩ ∉ log := by
  intro hclaim
  obtain ⟨herr, ⟨o, r⟩, hmem, ho⟩ : (Sample.run (.lit "dev")).2 = .error (IllegalArgumentException
      (.lit "Publisher ID must be in email-like format (role@domain): dev")) ∧
      ∃ ev ∈ (Sample.run (.lit "dev")).1, ¬ ev.1.Silent := by
    decide +kernel
  have hno := hclaim (Sample.env (.lit "dev")) (Sample.answer (.lit "dev")) Sample.request
    Sample.identity _ _ Sample.lib_keysAgree (Prod.eta _).symm (fun chain h => by
      rw [show (issueCertificate _ _ _).run _ [] = Sample.run (.lit "dev") from rfl, herr] at h
      cases h)
  cases o with
  | signCsr args => exact hno args hmem
  | _ => exact ho trivial

end Issuance
end TrustedCa
