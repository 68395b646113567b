import Mathlib.Data.List.Perm.Subperm
import TrustedCa.Issuance.Revocation

/-!
# The metrics of the clients (`SystemMetrics`)

A client has a counter of its certificates once a policy file that names it was found. There are a
thousand such clients at most.

* `Metered`: what a request has done before it calls the metrics of its client. `issuances_eq`: it
  counts a certificate exactly if it returns one.
* `metrics_account`: the clients with counters, and that the counters lose and add nothing, in
  whatever order the requests come to the lock.
-/

namespace TrustedCa
namespace Issuance

open Spec TransparentCaService

/-! ## What a request counts -/

/-- The client for which a call counts a certificate. -/
def Op.issued? : Op → Option JString
  | .incrementCertificateIssuanceCounter clientId => some clientId
  | _ => none

/-- The clients for which certificates were counted. -/
def issuances (log : Log) : List JString := log.filterMap fun ev => ev.1.issued?

/-- Any call but those of the metrics of a client. -/
def Op.Unmetered : Op → Prop
  | .allowMetricsForClientId _ | .incrementCertificateIssuanceCounter _ => False
  | _ => True

/-- The policy file of the caller was fetched, and names the caller. -/
def Named (format : PolicyFormat) (caller : CallerIdentity) (log : Log) : Prop :=
  ∃ file policies, ⟨.fetchFile caller.getClientId, .ok (some file)⟩ ∈ log ∧
    FileSourcedPolicyProvider.parsePolicies format (format.toStringUtf8 file) = .ok policies ∧
    policies.issuer = caller.issuer ∧ policies.subject = caller.subject

/-- What a call may rely on. -/
def Metered (format : PolicyFormat) (caller : CallerIdentity) (o : Op) (log : Log) : Prop :=
  issuances log = [] ∧ match o with
    | .allowMetricsForClientId clientId =>
      clientId = caller.getClientId ∧ Named format caller log
    | .incrementCertificateIssuanceCounter clientId =>
      clientId = caller.getClientId ∧ ⟨.allowMetricsForClientId clientId, ()⟩ ∈ log
    | _ => True

/-- A certificate is counted if and only if a chain is returned. -/
def CountedOnce (caller : CallerIdentity) :
    Except Thrown (List X509Certificate) → Log → Prop
  | .ok _, log => issuances log = [caller.getClientId]
  | .error _, log => issuances log = []

@[simp] theorem issuances_append (log log' : Log) :
    issuances (log ++ log') = issuances log ++ issuances log' := List.filterMap_append

/-! ## The calls of the stages -/

section Calls

variable {α : Type} {P : Op → Prop} {env : Env}

theorem calls_counting {c : ExnClass} {status : ProcessingStatus} {p : M α}
    (hcount : ∀ status, P (.incrementProcessingCounter status)) (hp : p.Calls P) :
    (counting c status p).Calls P := by
  refine .tryCatch hp fun e => ?_
  split
  · exact .call (hcount status) fun _ => .throw e
  · exact .throw e

theorem calls_fail (hcount : ∀ status, P (.incrementProcessingCounter status))
    (status : ProcessingStatus) (message : JString) : (fail status message : M α).Calls P :=
  .call (hcount status) fun _ => .throw _

theorem calls_now (h : P .now) : now.Calls P := .call h fun time => .ret time

theorem calls_selectVerifier (hcount : ∀ status, P (.incrementProcessingCounter status))
    (evidence : AttestationEvidence) : (selectVerifier env evidence).Calls P := by
  unfold selectVerifier
  split
  · exact .ret _
  · exact calls_fail hcount _ _

theorem calls_anyMatch (hverify : ∀ v e k rv, P (.verify v e k rv)) (verifier : AttestationVerifier)
    (evidence : AttestationEvidence) (key : PublicKey) (rvs : List ReferenceValues) :
    (anyMatch verifier evidence key rvs).Calls P := by
  induction rvs with
  | nil => exact .ret false
  | cons rv rvs ih =>
    refine .bind (.call (hverify _ _ _ _) fun r => .ofExcept r) fun verified => ?_
    split
    · exact .ret true
    · exact ih

theorem calls_verifyEvidence (hverify : ∀ v e k rv, P (.verify v e k rv))
    (hcount : ∀ status, P (.incrementProcessingCounter status)) (verifier : AttestationVerifier)
    (evidence : AttestationEvidence) (key : PublicKey) (policy : Policy) :
    (verifyEvidence verifier evidence key policy).Calls P := by
  refine .bind (calls_anyMatch hverify _ _ _ _) fun verified => ?_
  split
  · exact .ret ()
  · exact calls_fail hcount _ _

theorem calls_certificateValidity (hnow : P .now)
    (hcount : ∀ status, P (.incrementProcessingCounter status)) (policy : Policy)
    (validity : Validity) : (certificateValidity policy validity).Calls P := by
  refine .bind (calls_now hnow) fun now => .bind (.ofExcept _) fun expiration => ?_
  dsimp only
  split
  · exact calls_fail hcount _ _
  · exact .ret _

theorem calls_sign (hsign : ∀ args, P (.signCsr args)) (hnow : P .now)
    (hcount : ∀ status, P (.incrementProcessingCounter status)) (request : CertificateIssuanceRequest)
    (policy : Policy) (period : Instant × Instant) : (sign env request policy period).Calls P := by
  refine calls_counting hcount (.bind (.ofExcept _) fun subject => .call (hsign _) fun _ => ?_)
  refine .tryCatch (buildAndSign_calls hnow _) fun e => ?_
  split <;> exact .throw _

end Calls

/-! ## The obligations -/

section Metered

variable {α : Type} {answer : Log → (o : Op) → Ret o} {env : Env} {caller : CallerIdentity} {log : Log}

theorem issuances_unmetered {o : Op} (ho : o.Unmetered) (r : Ret o) (log : Log) :
    issuances (log ++ [⟨o, r⟩]) = issuances log := by
  cases o with
  | allowMetricsForClientId | incrementCertificateIssuanceCounter => exact ho.elim
  | _ => simp [issuances, Op.issued?]

/-- A stage that does not call the metrics of the client. -/
theorem wp_unmetered {p : M α} (hp : p.Calls Op.Unmetered) {Inv : Log → Prop}
    (hinv : ∀ log log', log ⊆ log' → Inv log → Inv log') (h : issuances log = []) (hlog : Inv log) :
    wp (recorded answer (Metered env.format caller)) p
      (fun _ log' => issuances log' = [] ∧ Inv log') log := by
  refine wp_calls hp (fun o log ho h => ?_) (fun o r log ho h => ?_) ⟨h, hlog⟩
  · refine ⟨h.1, ?_⟩
    cases o with
    | allowMetricsForClientId | incrementCertificateIssuanceCounter => exact ho.elim
    | _ => trivial
  · exact ⟨(issuances_unmetered ho r log).trans h.1, hinv _ _ (List.subset_append_left _ _) h.2⟩

/-- A stage before the end: what follows it has the log without a count. -/
theorem wp_stage {p : M α} {f : α → M (List X509Certificate)} (hp : p.Calls Op.Unmetered)
    {Inv : Log → Prop} (hinv : ∀ log log', log ⊆ log' → Inv log → Inv log')
    (h : issuances log = []) (hlog : Inv log)
    (hf : ∀ a log', issuances log' = [] → Inv log' →
      wp (recorded answer (Metered env.format caller)) (f a) (CountedOnce caller) log') :
    wp (recorded answer (Metered env.format caller)) (p >>= f) (CountedOnce caller) log := by
  rw [wp_bind]
  refine wp_mono (fun r log' hr => ?_) p (wp_unmetered hp hinv h hlog)
  cases r with
  | ok a => exact hf a log' hr.1 hr.2
  | error e => exact hr.1

/-- The caller's metrics are allowed only after its file was read, and a policy is returned only
after they were. -/
theorem wp_getPolicy (h : issuances log = []) (publisherId workloadId : JString) :
    wp (recorded answer (Metered env.format caller))
      (FileSourcedPolicyProvider.getPolicy env.format caller publisherId workloadId)
      (fun r log' => issuances log' = [] ∧ ∀ policy, r = .ok (some policy) →
        ⟨.allowMetricsForClientId caller.getClientId, ()⟩ ∈ log') log := by
  unfold FileSourcedPolicyProvider.getPolicy
  rw [wp_bind, wp_tryCatch]
  refine wp_recorded_call ⟨h, trivial⟩ fun r _ => ?_
  have h₁ : issuances (log ++ [⟨.fetchFile caller.getClientId, r⟩]) = [] :=
    (issuances_unmetered (o := .fetchFile _) trivial r log).trans h
  match r, h₁ with
  | .error e, h₁ =>
    show wp _ (if e.isA .fileLoadException then pure none else throw e) _ _
    split
    · exact ⟨h₁, fun policy hp => by cases hp⟩
    · exact ⟨h₁, fun policy hp => by cases hp⟩
  | .ok none, h₁ => exact ⟨h₁, fun policy hp => by cases hp⟩
  | .ok (some file), h₁ =>
    rw [wp_ofExcept, orElse_ok, andThen_ok]
    dsimp only
    split
    · split
      · exact ⟨h₁, fun policy hp => by cases hp⟩
      · exact ⟨h₁, fun policy hp => by cases hp⟩
    next policies hparse =>
      split
      · refine wp_recorded_call ⟨h₁, trivial⟩ fun r _ => ⟨?_, fun policy hp => by cases hp⟩
        exact (issuances_unmetered (o := .incrementProcessingCounter _) trivial r _).trans h₁
      next hsame =>
        push Not at hsame
        refine wp_recorded_call ⟨h₁, rfl, file, policies, by simp, hparse, hsame⟩ fun r _ => ?_
        refine ⟨?_, fun policy _ => by simp⟩
        simpa [issuances, Op.issued?] using h₁

theorem issueCertificate_metered (env : Env) (answer : Log → (o : Op) → Ret o)
    (request : CertificateIssuanceRequest) (caller : CallerIdentity) :
    wp (recorded answer (Metered env.format caller)) (issueCertificate env request caller)
      (CountedOnce caller) [] := by
  have hcount : ∀ status, Op.Unmetered (.incrementProcessingCounter status) := fun _ => trivial
  have htrue : ∀ log log' : Log, log ⊆ log' → True → True := fun _ _ _ h => h
  unfold issueCertificate
  refine wp_stage (calls_counting hcount (.ofExcept _)) htrue rfl trivial fun key l₁ h₁ _ => ?_
  refine wp_stage (calls_counting hcount (.ofExcept _)) htrue h₁ trivial fun _ l₂ h₂ _ => ?_
  refine wp_stage (.ofExcept _) htrue h₂ trivial fun endorsement l₃ h₃ _ => ?_
  refine wp_stage (.call trivial fun r => .ofExcept r) htrue h₃ trivial fun annotations l₄ h₄ _ => ?_
  refine wp_stage (.ofExcept _) htrue h₄ trivial fun endorsement l₅ h₅ _ => ?_
  refine wp_stage (.call trivial fun r => .ofExcept r) htrue h₅ trivial fun validity l₆ h₆ _ => ?_
  rw [wp_bind]
  unfold selectPolicy
  rw [wp_bind]
  refine wp_mono (fun r l₇ hr => ?_) _ (wp_getPolicy h₆ _ _)
  obtain ⟨h₇, hallowed⟩ := hr
  match r, hallowed with
  | .error e, _ => exact h₇
  | .ok none, _ =>
    -- `fail` counts and throws
    refine wp_recorded_call ⟨h₇, trivial⟩ fun r _ => ?_
    exact (issuances_unmetered (o := .incrementProcessingCounter _) trivial r _).trans h₇
  | .ok (some policy), hallowed =>
    have hallowed₇ := hallowed policy rfl
    have hmono : ∀ log log' : Log, log ⊆ log' →
        ⟨.allowMetricsForClientId caller.getClientId, ()⟩ ∈ log →
        ⟨.allowMetricsForClientId caller.getClientId, ()⟩ ∈ log' := fun _ _ hsub hin => hsub hin
    show wp _ (do
      let verifier ← selectVerifier env request.attestationEvidence
      _) _ _
    refine wp_stage (calls_selectVerifier hcount _) hmono h₇ hallowed₇ fun verifier l₈ h₈ hin₈ => ?_
    refine wp_stage (calls_verifyEvidence (fun _ _ _ _ => trivial) hcount _ _ _ _) hmono h₈ hin₈
      fun _ l₉ h₉ hin₉ => ?_
    refine wp_stage (calls_certificateValidity trivial hcount _ _) hmono h₉ hin₉
      fun period l₁₀ h₁₀ hin₁₀ => ?_
    refine wp_stage (calls_sign (fun _ => trivial) trivial hcount _ _ _) hmono h₁₀ hin₁₀
      fun leaf l₁₁ h₁₁ hin₁₁ => ?_
    refine wp_stage (.call (hcount _) .ret) hmono h₁₁ hin₁₁ fun _ l h hin => ?_
    refine wp_recorded_call ⟨h, rfl, hin⟩ fun r _ => ?_
    show issuances (l ++ _) = _
    rw [issuances_append, h]
    rfl

end Metered

/-! ## The metrics and their history -/

/-- The client whose metrics a call allows. -/
def Op.allowed? : Op → Option JString
  | .allowMetricsForClientId clientId => some clientId
  | _ => none

/-- The clients whose metrics were allowed. -/
def allows (log : Log) : List JString := log.filterMap fun ev => ev.1.allowed?

@[simp] theorem allows_append (log log' : Log) :
    allows (log ++ log') = allows log ++ allows log' := List.filterMap_append

theorem mem_allows {log : Log} {c : JString} :
    c ∈ allows log ↔ ⟨.allowMetricsForClientId c, ()⟩ ∈ log := by
  unfold allows
  rw [List.mem_filterMap]
  constructor
  · rintro ⟨⟨o, r⟩, hmem, ho⟩
    cases o with
    | allowMetricsForClientId d =>
      obtain rfl : d = c := Option.some.inj ho
      exact hmem
    | _ => cases ho
  · exact fun hmem => ⟨_, hmem, rfl⟩

theorem allows_unmetered {o : Op} (ho : o.Unmetered) (r : Ret o) (log : Log) :
    allows (log ++ [⟨o, r⟩]) = allows log := by
  cases o with
  | allowMetricsForClientId | incrementCertificateIssuanceCounter => exact ho.elim
  | _ => simp [allows, Op.allowed?]

namespace SystemMetrics

/-- What the metrics say of the clients that were allowed and of the certificates that were counted
so far. A client that was allowed is approved, or there was no room. -/
structure Accounts (m : SystemMetrics) (allowed issued : List JString) : Prop where
  nodup : m.approvedClients.Nodup
  length_le : m.approvedClients.length ≤ maxApprovedClients
  approved : ∀ c ∈ m.approvedClients, c ∈ allowed
  room : ∀ c ∈ allowed, c ∈ m.approvedClients ∨ maxApprovedClients ≤ m.approvedClients.length
  counters : ∀ c, (m.issuanceCounters c).getD 0 = if c ∈ m.approvedClients then issued.count c else 0

namespace Accounts

variable {m : SystemMetrics} {allowed issued allowed' issued' : List JString} {c : JString}

theorem start : Accounts {} [] [] where
  nodup := .nil
  length_le := Nat.zero_le _
  approved _ h := by cases h
  room _ h := by cases h
  counters _ := rfl

theorem perm (h : m.Accounts allowed issued) (ha : allowed'.Perm allowed)
    (hi : issued'.Perm issued) : m.Accounts allowed' issued' where
  nodup := h.nodup
  length_le := h.length_le
  approved c hc := ha.mem_iff.mpr (h.approved c hc)
  room c hc := h.room c (ha.mem_iff.mp hc)
  counters c := by rw [hi.count_eq]; exact h.counters c

/-- A client that is approved already. -/
theorem allow (h : m.Accounts allowed issued) (hc : c ∈ m.approvedClients) :
    m.Accounts (allowed ++ [c]) issued where
  nodup := h.nodup
  length_le := h.length_le
  approved d hd := List.mem_append_left _ (h.approved d hd)
  room d hd := by
    rcases List.mem_append.mp hd with hd | hd
    · exact h.room d hd
    · exact .inl (List.mem_singleton.mp hd ▸ hc)
  counters := h.counters

/-- Behind the lock. A client that is new had no certificate counted. -/
theorem allowLocked (h : m.Accounts allowed issued) (hsub : issued ⊆ allowed) (c : JString) :
    (m.allowLocked c).Accounts (allowed ++ [c]) issued := by
  unfold SystemMetrics.allowLocked
  split
  · next hc => exact h.allow hc
  next hc =>
  split
  · next hroom =>
    have hnew : c ∉ issued := fun hin => (h.room c (hsub hin)).elim hc (Nat.not_le_of_lt hroom)
    refine ⟨?_, ?_, fun d hd => ?_, fun d hd => ?_, fun d => ?_⟩
    · refine List.nodup_append.mpr ⟨h.nodup, by simp, fun d hd e he hde => ?_⟩
      rw [hde, List.mem_singleton.mp he] at hd
      exact hc hd
    · simp only [List.length_append, List.length_singleton]
      omega
    · rcases List.mem_append.mp hd with hd | hd
      · exact List.mem_append_left _ (h.approved d hd)
      · exact List.mem_append_right _ hd
    · rcases List.mem_append.mp hd with hd | hd
      · rcases h.room d hd with hd | hfull
        · exact .inl (List.mem_append_left _ hd)
        · exact absurd hfull (Nat.not_le_of_lt hroom)
      · exact .inl (List.mem_append_right _ hd)
    · have hcount := h.counters d
      by_cases hd : d = c
      · subst hd
        rw [if_neg hc] at hcount
        rw [if_pos (List.mem_append_right _ (List.mem_singleton_self d)),
          List.count_eq_zero_of_not_mem hnew]
        exact hcount
      · simpa [hd] using hcount
  · next hroom =>
    refine ⟨h.nodup, h.length_le, fun d hd => List.mem_append_left _ (h.approved d hd),
      fun d hd => ?_, h.counters⟩
    rcases List.mem_append.mp hd with hd | hd
    · exact h.room d hd
    · exact .inr (Nat.le_of_not_lt hroom)

theorem issue (h : m.Accounts allowed issued) (c : JString) :
    (m.incrementCertificateIssuanceCounter c).Accounts allowed (issued ++ [c]) := by
  unfold SystemMetrics.incrementCertificateIssuanceCounter
  split
  · next hc =>
    refine ⟨h.nodup, h.length_le, h.approved, h.room, fun d => ?_⟩
    have hcount := h.counters d
    by_cases hd : d = c
    · subst hd
      rw [if_pos hc] at hcount
      simp [hc, hcount]
    · have hd' : c ≠ d := fun e => hd e.symm
      simpa [Function.update_of_ne hd, List.count_append, List.count_singleton, hd'] using hcount
  · next hc =>
    refine ⟨h.nodup, h.length_le, h.approved, h.room, fun d => ?_⟩
    have hcount := h.counters d
    by_cases hd : d = c
    · subst hd
      rw [if_neg hc] at hcount ⊢
      exact hcount
    · have hd' : c ≠ d := fun e => hd e.symm
      simpa [List.count_append, List.count_singleton, hd'] using hcount

theorem counted (h : m.Accounts allowed issued) (status : ProcessingStatus) :
    (m.incrementProcessingCounter status).Accounts allowed issued :=
  ⟨h.nodup, h.length_le, h.approved, h.room, h.counters⟩

end Accounts

end SystemMetrics

/-! ## The server -/

namespace TcaServer

/-- An element of a list gives more. -/
theorem flatMap_set_perm {α β : Type} {f : α → List β} {l : List α} {i : Nat} {a b : α} {more : List β}
    (hi : l[i]? = some a) (hb : f b = f a ++ more) :
    ((l.set i b).flatMap f).Perm (l.flatMap f ++ more) := by
  induction l generalizing i with
  | nil => cases hi
  | cons x l ih =>
    cases i with
    | zero =>
      obtain rfl : x = a := Option.some.inj hi
      rw [List.set_cons_zero, List.flatMap_cons, List.flatMap_cons, hb, List.append_assoc,
        List.append_assoc]
      exact List.perm_append_comm.append_left _
    | succ i =>
      rw [List.set_cons_succ, List.flatMap_cons, List.flatMap_cons, List.append_assoc]
      exact (ih hi).append_left _

/-- A chain was returned. -/
def Request.granted (q : Request) : Bool :=
  match q.left with
  | .ret _ => true
  | _ => false

def State.allowed (s : State) : List JString := s.requests.flatMap fun q => allows q.log

def State.issued (s : State) : List JString := s.requests.flatMap fun q => issuances q.log

section Requests

variable {w : Outside} {env : Env} {m : Nat} {slowest : Int} {q : Request}

/-- A request has counted a certificate if and only if it has returned one. -/
theorem Request.Inv.issuances_eq (h : q.Inv w env m slowest) :
    issuances q.log = if q.granted then [q.caller.getClientId] else [] := by
  have hmetered := fun answer => issueCertificate_metered env answer q.request q.caller
  have hran := h.ran
  unfold Request.granted
  cases hleft : q.left with
  | call o k =>
    rw [hleft] at hran
    exact (hran.pending_of_call (Sample.answer [] []) hmetered).1
  | ret chain =>
    obtain ⟨answer, hrun⟩ := hran.exists_run (Sample.answer [] [])
    have hend := wp_run (hmetered answer)
    rw [hrun, hleft] at hend
    exact hend
  | throw e =>
    obtain ⟨answer, hrun⟩ := hran.exists_run (Sample.answer [] [])
    have hend := wp_run (hmetered answer)
    rw [hrun, hleft] at hend
    exact hend

/-- The metrics were allowed for the caller, whose file was read. -/
theorem Request.Inv.named (h : q.Inv w env m slowest) {c : JString} (hc : c ∈ allows q.log) :
    c = q.caller.getClientId ∧ Named env.format q.caller q.log := by
  have hmetered := fun answer => issueCertificate_metered env answer q.request q.caller
  obtain ⟨before, after, hlog⟩ := List.append_of_mem (mem_allows.mp hc)
  obtain ⟨-, hcaller, file, policies, hfile, hnamed⟩ :=
    h.ran.pending_of_log (Sample.answer [] []) hmetered hlog
  refine ⟨hcaller, file, policies, ?_, hnamed⟩
  rw [hlog]
  exact List.mem_append_left _ hfile

/-- What was counted was allowed. -/
theorem Request.Inv.issuances_subset (h : q.Inv w env m slowest) :
    issuances q.log ⊆ allows q.log := by
  intro c hc
  have hmetered := fun answer => issueCertificate_metered env answer q.request q.caller
  obtain ⟨⟨o, r⟩, hmem, ho⟩ := List.mem_filterMap.mp hc
  cases o with
  | incrementCertificateIssuanceCounter d =>
    obtain rfl : d = c := Option.some.inj ho
    obtain ⟨before, after, hlog⟩ := List.append_of_mem hmem
    obtain ⟨-, -, hin⟩ := h.ran.pending_of_log (Sample.answer [] []) hmetered hlog
    rw [mem_allows, hlog]
    exact List.mem_append_left _ hin
  | _ => cases ho

end Requests

section Metrics

variable {w : Outside} {env : Env} {s s' : State} {q : Request}

theorem State.Inv.issued_subset (h : s.Inv w env) : s.issued ⊆ s.allowed := by
  intro c hc
  obtain ⟨q, hq, hin⟩ := List.mem_flatMap.mp hc
  exact List.mem_flatMap.mpr ⟨q, hq, (h.requests q hq).issuances_subset hin⟩

/-- A request goes on. -/
theorem State.resume_accounts {metrics : SystemMetrics} {i : Nat} {o : Op} {r : Ret o}
    {left : M (List X509Certificate)} (hi : s.requests[i]? = some q)
    (h : metrics.Accounts (s.allowed ++ allows [⟨o, r⟩]) (s.issued ++ issuances [⟨o, r⟩])) :
    metrics.Accounts (s.setRequest i (q.resume o r left)).allowed
      (s.setRequest i (q.resume o r left)).issued :=
  h.perm (flatMap_set_perm hi (allows_append _ _)) (flatMap_set_perm hi (issuances_append _ _))

/-- A call that is not one of the metrics of a client. -/
theorem State.resume_unmetered {metrics : SystemMetrics} {i : Nat} {o : Op} {r : Ret o}
    {left : M (List X509Certificate)} (ho : o.Unmetered) (hi : s.requests[i]? = some q)
    (h : metrics.Accounts s.allowed s.issued) :
    metrics.Accounts (s.setRequest i (q.resume o r left)).allowed
      (s.setRequest i (q.resume o r left)).issued := by
  refine State.resume_accounts hi ?_
  have hallows := allows_unmetered ho r []
  have hissuances := issuances_unmetered ho r []
  rw [List.nil_append] at hallows hissuances
  rw [hallows, hissuances]
  simpa [allows, issuances] using h

theorem Step.accounts (hs : Step w env s s') (hinv : s.Inv w env)
    (h : s.metrics.Accounts s.allowed s.issued) : s'.metrics.Accounts s'.allowed s'.issued := by
  cases hs with
  | pass hm => exact h
  | arrive request caller =>
    have hnone (f : Request → List JString) (hf : f (.start env request caller s.moment) = []) :
        (s.requests ++ [Request.start env request caller s.moment]).flatMap f =
          s.requests.flatMap f := by
      rw [List.flatMap_append, List.flatMap_singleton, hf, List.append_nil]
    exact h.perm (.of_eq (hnone (fun q => allows q.log) rfl))
      (.of_eq (hnone (fun q => issuances q.log) rfl))
  | load hi hq hc => exact h
  | fetched hi hq hc => exact State.resume_unmetered (o := .fetchFile _) trivial hi h
  | allowed hi hq hl hin =>
    refine State.resume_accounts hi ?_
    have hallow := h.allow hin
    rwa [← List.append_nil s.issued] at hallow
  | @lock i q clientId k hi hq hl hin =>
    have hsame (f : Request → List JString) (hf : f { q with locking := true } = f q) :
        ((s.requests.set i { q with locking := true }).flatMap f).Perm (s.requests.flatMap f) :=
      (flatMap_set_perm hi (hf.trans (List.append_nil _).symm)).trans (.of_eq (List.append_nil _))
    exact h.perm (hsame (fun q => allows q.log) rfl) (hsame (fun q => issuances q.log) rfl)
  | @locked i q clientId k hi hq hl =>
    refine State.resume_accounts hi ?_
    have hallow := h.allowLocked hinv.issued_subset clientId
    rwa [← List.append_nil s.issued] at hallow
  | @counted i q status k hi hq =>
    exact State.resume_unmetered (o := .incrementProcessingCounter _) trivial hi (h.counted status)
  | @issued i q clientId k hi hq =>
    refine State.resume_accounts hi ?_
    have hissue := h.issue clientId
    rwa [← List.append_nil s.allowed] at hissue
  | @answered i q o k r hi hq ho =>
    refine State.resume_unmetered ?_ hi h
    cases o with
    | allowMetricsForClientId | incrementCertificateIssuanceCounter => exact ho.elim
    | _ => trivial

theorem Runs.accounts (hr : Runs w env {} s) : s.metrics.Accounts s.allowed s.issued := by
  induction hr with
  | refl => exact .start
  | tail hr hs ih => exact hs.accounts (Runs.inv hr .start) ih

end Metrics

/-- The certificates that were counted for a client. -/
theorem count_issuances {requests : List Request}
    (h : ∀ q ∈ requests, issuances q.log = if q.granted then [q.caller.getClientId] else [])
    (c : JString) :
    (requests.flatMap fun q => issuances q.log).count c =
      requests.countP fun q => q.granted && q.caller.getClientId == c := by
  induction requests with
  | nil => rfl
  | cons q requests ih =>
    rw [List.forall_mem_cons] at h
    rw [List.flatMap_cons, List.count_append, ih h.2, h.1, List.countP_cons, Nat.add_comm]
    congr 1
    cases q.granted with
    | false => rfl
    | true => simp [List.count_singleton]

/-- The metrics of the clients. There are a thousand approved clients at most, each of which was found
in a policy file that names it. A client that was granted a certificate is one of them, or there was
no room. The counter of an approved client is the number of certificates that it was granted. -/
theorem metrics_account (w : Outside) (env : Env) (s : State) (hr : Runs w env {} s) :
    s.metrics.approvedClients.Nodup ∧
      s.metrics.approvedClients.length ≤ SystemMetrics.maxApprovedClients ∧
      (∀ c ∈ s.metrics.approvedClients, ∃ q ∈ s.requests, q.caller.getClientId = c ∧
        Named env.format q.caller q.log) ∧
      (∀ q ∈ s.requests, q.granted = true → q.caller.getClientId ∈ s.metrics.approvedClients ∨
        s.metrics.approvedClients.length = SystemMetrics.maxApprovedClients) ∧
      ∀ c, (s.metrics.issuanceCounters c).getD 0 =
        if c ∈ s.metrics.approvedClients then
          s.requests.countP fun q => q.granted && q.caller.getClientId == c
        else 0 := by
  have hinv := hr.inv .start
  have haccounts := hr.accounts
  refine ⟨haccounts.nodup, haccounts.length_le, fun c hc => ?_, fun q hq hgranted => ?_, fun c => ?_⟩
  · obtain ⟨q, hq, hin⟩ := List.mem_flatMap.mp (haccounts.approved c hc)
    obtain ⟨rfl, hnamed⟩ := (hinv.requests q hq).named hin
    exact ⟨q, hq, rfl, hnamed⟩
  · have hissued := (hinv.requests q hq).issuances_eq
    rw [if_pos hgranted] at hissued
    have hallowed := (hinv.requests q hq).issuances_subset (hissued ▸ List.mem_singleton_self _)
    refine (haccounts.room _ (List.mem_flatMap.mpr ⟨q, hq, hallowed⟩)).imp_right fun hfull => ?_
    exact Nat.le_antisymm haccounts.length_le hfull
  · rw [haccounts.counters]
    congr 1
    exact count_issuances (fun q hq => (hinv.requests q hq).issuances_eq) c

/-- Two requests of one client: it is the only approved one, and has two certificates. -/
theorem metrics_account_sample :
    ∃ s, Runs Sample.outside (Sample.env (.lit "dev@acme")) {} s ∧ s.requests.length = 2 ∧
      Sample.identity.getClientId ∈ s.metrics.approvedClients ∧
      s.metrics.approvedClients.length ≤ 1 ∧
      (s.metrics.issuanceCounters Sample.identity.getClientId).getD 0 = 2 := by
  obtain ⟨s₁, s, q₁, q₂, hruns₁, -, -, hruns₂, -, -, hs, hall⟩ := sample_two
  obtain ⟨hnodup, -, hnamed, hroom, hcounters⟩ := metrics_account _ _ s (hruns₁.trans hruns₂)
  have hsubset : s.metrics.approvedClients ⊆ [Sample.identity.getClientId] := by
    intro c hc
    obtain ⟨q, hq, rfl, -⟩ := hnamed c hc
    rw [(hall q hq).1]
    exact List.mem_singleton_self _
  have hlength : s.metrics.approvedClients.length ≤ 1 := (hnodup.subperm hsubset).length_le
  have hgranted : ∀ q ∈ s.requests, q.granted = true := by
    intro q hq
    rw [Request.granted, (hall q hq).2.2]
  have hq₁ : q₁ ∈ s.requests := hs ▸ List.mem_cons_self
  have hmem : Sample.identity.getClientId ∈ s.metrics.approvedClients := by
    rw [← (hall q₁ hq₁).1]
    refine (hroom q₁ hq₁ (hgranted q₁ hq₁)).resolve_right fun hfull => ?_
    rw [hfull] at hlength
    exact absurd hlength (by decide)
  refine ⟨s, hruns₁.trans hruns₂, congrArg List.length hs, hmem, hlength, ?_⟩
  have htwo : s.requests.countP (fun q =>
      q.granted && q.caller.getClientId == Sample.identity.getClientId) = s.requests.length := by
    refine List.countP_eq_length.mpr fun q hq => ?_
    rw [hgranted q hq, (hall q hq).1, BEq.rfl, Bool.and_self]
  rw [hcounters, if_pos hmem, htwo, hs]
  rfl

end TcaServer

end Issuance
end TrustedCa
