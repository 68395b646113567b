import TrustedCa.Issuance.Soundness

/-!
# Serial numbers of overlapping calls (`CertificateSignerImpl.signCsr`)

The serial number of a certificate is the time of signing in milliseconds. Any number of calls of
`issueCertificate` run at the same time under one root, and a clock that never goes backwards answers
all of them.

* `Server`: the calls, each with what it has logged and what is left of it. `Step`: a call of one of
  them.
* `signerReading`: what the signer was called with, and the time that it has read. `SignsAt`: it
  makes a certificate from these.
* `serials_distinct`: certificates have different serial numbers as long as no signer that makes one
  reads the clock in a millisecond in which another one did.
-/

namespace TrustedCa
namespace Issuance

open Spec

/-! ## What the signer reads -/

/-- The first time that is read in a log. -/
def firstReading : Log → Option Instant
  | [] => none
  | ⟨.now, time⟩ :: _ => some time
  | _ :: log => firstReading log

/-- What the signer is called with, and the first time that is read after that. -/
def signerReading : Log → Option (SignCsrArgs × Instant)
  | [] => none
  | ⟨.signCsr args, _⟩ :: log => (firstReading log).map (args, ·)
  | _ :: log => signerReading log

theorem signerReading_append_of_silent {before : Log} (h : ∀ ev ∈ before, ev.1.Silent) (log : Log) :
    signerReading (before ++ log) = signerReading log := by
  induction before with
  | nil => rfl
  | cons ev before ih =>
    obtain ⟨hev, hbefore⟩ := List.forall_mem_cons.mp h
    obtain ⟨o, r⟩ := ev
    cases o with
    | signCsr args => exact hev.elim
    | _ => exact ih hbefore

theorem firstReading_append (log : Log) (ev : Event Op Ret) :
    firstReading (log ++ [ev]) = firstReading log ∨
      ∃ time, ev = ⟨.now, time⟩ ∧ firstReading (log ++ [ev]) = some time := by
  induction log with
  | nil =>
    obtain ⟨o, r⟩ := ev
    cases o with
    | now => exact .inr ⟨r, rfl, rfl⟩
    | _ => exact .inl rfl
  | cons first log ih =>
    obtain ⟨o, r⟩ := first
    cases o with
    | now => exact .inl rfl
    | _ => exact ih

/-- A further call changes the signer's reading only if it is that reading. -/
theorem signerReading_append (log : Log) (ev : Event Op Ret) :
    signerReading (log ++ [ev]) = signerReading log ∨
      ∃ time args, ev = ⟨.now, time⟩ ∧ signerReading (log ++ [ev]) = some (args, time) := by
  induction log with
  | nil =>
    obtain ⟨o, r⟩ := ev
    cases o with
    | _ => exact .inl rfl
  | cons first log ih =>
    obtain ⟨o, r⟩ := first
    cases o with
    | signCsr args =>
      refine (firstReading_append log ev).imp (congrArg (Option.map (args, ·))) ?_
      rintro ⟨time, hev, hread⟩
      exact ⟨time, args, hev, congrArg (Option.map (args, ·)) hread⟩
    | _ => exact ih

/-- The millisecond of a time. -/
def millisecond (time : Instant) : Int := time.nanos / 1000000

theorem toEpochMilli_ok {time : Instant} {n : Int} (h : time.toEpochMilli = .ok n) :
    millisecond time = n := by
  unfold Instant.toEpochMilli exact at h
  split at h
  · cases h
    rfl
  · cases h

/-- A signer that is called with `args` and reads `time` makes a certificate. -/
def Signs (lib : CertificateLibrary) (args : SignCsrArgs) (time : Instant) : Prop :=
  ∃ csr serial certBuilder signature, lib.parseCsr args.csrBytes = .ok csr ∧
    time.toEpochMilli = .ok serial ∧
    CertificateSignerImpl.build lib args csr serial = .ok certBuilder ∧
    lib.sign certBuilder args.issuerPrivateKey = .ok signature

/-- The signer of a call has read `time`, and makes a certificate from it. -/
def SignsAt (lib : CertificateLibrary) (log : Log) (time : Instant) : Prop :=
  ∃ args, signerReading log = some (args, time) ∧ Signs lib args time

section Signer

variable {answer : Log → (o : Op) → Ret o} {lib : CertificateLibrary}

/-- The signer reads the clock once, and the certificate has the millisecond as its number. -/
theorem buildAndSign_reads (args : SignCsrArgs) :
    Stage answer (fun _ _ => True) (CertificateSignerImpl.buildAndSign lib args) fun leaf more =>
      ∃ time, more = [⟨.now, time⟩] ∧ leaf.serial = millisecond time ∧ Signs lib args time := by
  refine Adds.bind (Adds.ofExcept (Q := fun csr more => more = [] ∧
    lib.parseCsr args.csrBytes = .ok csr) fun _ h => ⟨rfl, h⟩) ?_
  rintro csr _ ⟨rfl, hcsr⟩
  have hnow : Stage answer (fun _ _ => True) now fun time more => more = [⟨.now, time⟩] :=
    call_stage (fun _ _ _ => trivial) trivial fun time => Adds.pure rfl
  refine Adds.bind hnow ?_
  rintro time _ rfl
  refine Adds.bind (Adds.ofExcept (Q := fun serial more => more = [] ∧ time.toEpochMilli = .ok serial)
    fun _ h => ⟨rfl, h⟩) ?_
  rintro serial _ ⟨rfl, hserial⟩
  refine Adds.bind (Adds.ofExcept (Q := fun b more => more = [] ∧
    CertificateSignerImpl.build lib args csr serial = .ok b) fun _ h => ⟨rfl, h⟩) ?_
  rintro b _ ⟨rfl, hb⟩
  refine Adds.bind (Adds.ofExcept (Q := fun signature more => more = [] ∧
    lib.sign b args.issuerPrivateKey = .ok signature) fun _ h => ⟨rfl, h⟩) ?_
  rintro signature _ ⟨rfl, hsignature⟩
  refine Adds.pure ⟨time, rfl, ?_, csr, serial, b, signature, hcsr, hserial, hb, hsignature⟩
  exact (CertificateSignerImpl.build_ok hb).2.trans (toEpochMilli_ok hserial).symm

theorem signCsr_run_reads {args : SignCsrArgs} {log during : Log} {leaf : X509Certificate}
    (h : (CertificateSignerImpl.signCsr lib args).run answer log = (log ++ during, .ok leaf)) :
    ∃ time, during = [⟨.signCsr args, ()⟩, ⟨.now, time⟩] ∧ leaf.serial = millisecond time ∧
      Signs lib args time := by
  have htry : Stage answer (fun _ _ => True) (tryCatch (CertificateSignerImpl.buildAndSign lib args)
      fun e => if e.isA .operatorCreationException || e.isA .generalSecurityException then
        throw ⟨.certificateException, e.message⟩ else throw e) _ :=
    Adds.tryCatch (buildAndSign_reads args) fun e more => by split <;> exact Adds.throw
  obtain ⟨more, hlog, -, hread⟩ := wp_run (htry (log ++ [⟨.signCsr args, ()⟩]))
  obtain ⟨time, rfl, hsigns⟩ := hread leaf (congrArg Prod.snd h)
  have hduring : log ++ during = log ++ [⟨.signCsr args, ()⟩] ++ [⟨.now, time⟩] :=
    (congrArg Prod.fst h).symm.trans hlog
  rw [List.append_assoc] at hduring
  exact ⟨time, List.append_cancel_left hduring, hsigns⟩

end Signer

open TransparentCaService in
/-- The serial number of a certificate is the millisecond of the signer's reading. -/
theorem issueCertificate_reads {env : Env} {answer : Log → (o : Op) → Ret o}
    {request : CertificateIssuanceRequest} {identity : CallerIdentity} {log : Log}
    {chain : List X509Certificate}
    (hrun : (issueCertificate env request identity).run answer [] = (log, .ok chain)) :
    ∃ leaf time, chain = [leaf, env.rootCertificate] ∧ SignsAt env.lib log time ∧
      leaf.serial = millisecond time := by
  have hout := wp_run (issueCertificate_wp env answer request identity)
  rw [hrun] at hout
  obtain ⟨_, args, leaf, before, hchain, -, hsilent, during, after, rfl, hsign⟩ := hout
  obtain ⟨time, rfl, hserial, hsigns⟩ := signCsr_run_reads hsign
  refine ⟨leaf, time, hchain, ⟨args, ?_, hsigns⟩, hserial⟩
  rw [List.append_assoc, signerReading_append_of_silent hsilent]
  rfl

/-! ## Calls that run at the same time -/

/-- The calls of `issueCertificate`, with what each has logged and what is left of it, and the last
time that the clock has given. -/
structure Server (ι : Type) where
  clock : Instant
  log : ι → Log
  left : ι → M (List X509Certificate)

namespace Server

variable {ι : Type} {env : Env} {request : ι → CertificateIssuanceRequest}
  {identity : ι → CallerIdentity}

/-- Before any call has done anything. -/
def start (env : Env) (request : ι → CertificateIssuanceRequest) (identity : ι → CallerIdentity)
    (clock : Instant) : Server ι where
  clock := clock
  log _ := []
  left i := TransparentCaService.issueCertificate env (request i) (identity i)

/-- The certificates that have been returned have different serial numbers. -/
def SerialsDistinct (s : Server ι) : Prop :=
  ∀ i j leaf leaf' rest rest', i ≠ j → s.left i = .ret (leaf :: rest) →
    s.left j = .ret (leaf' :: rest') → leaf.serial ≠ leaf'.serial

/-- Every call is on its way, and the signers that make certificates have read different
milliseconds. -/
structure Inv (env : Env) (request : ι → CertificateIssuanceRequest) (identity : ι → CallerIdentity)
    (s : Server ι) : Prop where
  ran : ∀ i, (TransparentCaService.issueCertificate env (request i) (identity i)).Ran (s.log i)
    (s.left i)
  apart : ∀ i j, i ≠ j → ∀ time time', SignsAt env.lib (s.log i) time →
    SignsAt env.lib (s.log j) time' → millisecond time ≠ millisecond time'

theorem Inv.start (clock : Instant) : Inv env request identity (start env request identity clock) :=
  ⟨fun _ => .refl, fun _ _ _ _ _ ⟨_, h, _⟩ => by cases h⟩

/-- A certificate that a call has returned has the millisecond of its signer as its number. -/
theorem Inv.serial {s : Server ι} (h : Inv env request identity s) {i : ι} {leaf : X509Certificate}
    {rest : List X509Certificate} (hleft : s.left i = .ret (leaf :: rest)) :
    ∃ time, SignsAt env.lib (s.log i) time ∧ leaf.serial = millisecond time := by
  obtain ⟨answer, hrun⟩ := (h.ran i).exists_run (Sample.answer [] [])
  rw [hleft] at hrun
  obtain ⟨leaf', time, hchain, hread, hserial⟩ := issueCertificate_reads hrun
  obtain ⟨rfl, -⟩ := List.cons.inj hchain
  exact ⟨time, hread, hserial⟩

theorem Inv.serialsDistinct {s : Server ι} (h : Inv env request identity s) : SerialsDistinct s := by
  intro i j leaf leaf' rest rest' hne hi hj
  obtain ⟨time, htime, hserial⟩ := h.serial hi
  obtain ⟨time', htime', hserial'⟩ := h.serial hj
  rw [hserial, hserial']
  exact h.apart i j hne time time' htime htime'

/-- The clock after a call. -/
def tick (clock : Instant) : Event Op Ret → Instant
  | ⟨.now, time⟩ => time
  | _ => clock

variable [DecidableEq ι]

/-- The call `i` is answered by `ev`, and the clock does not go backwards. -/
inductive Step (s : Server ι) (i : ι) : Event Op Ret → Server ι → Prop
  | mk {o : Op} {k : Ret o → M (List X509Certificate)} (r : Ret o) (hleft : s.left i = .call o k)
      (hclock : s.clock ≤ tick s.clock ⟨o, r⟩) :
      Step s i ⟨o, r⟩
        { clock := tick s.clock ⟨o, r⟩
          log := Function.update s.log i (s.log i ++ [⟨o, r⟩])
          left := Function.update s.left i (k r) }

/-- If this is the signer of `i` reading the clock, and it makes a certificate from the time, no other
signer that makes one has read the clock in the same millisecond. -/
def OwnMillisecond (lib : CertificateLibrary) (s : Server ι) (i : ι) (ev : Event Op Ret) : Prop :=
  ∀ time, ev = ⟨.now, time⟩ → SignsAt lib (s.log i ++ [ev]) time →
    ∀ j, j ≠ i → ∀ time', SignsAt lib (s.log j) time' → millisecond time' ≠ millisecond time

/-- A run. -/
def Runs : Server ι → Server ι → Prop :=
  Relation.ReflTransGen fun s s' => ∃ i ev, Step s i ev s'

/-- A run in which no two signers that make certificates read the clock in the same millisecond. -/
def RunsApart (lib : CertificateLibrary) : Server ι → Server ι → Prop :=
  Relation.ReflTransGen fun s s' => ∃ i ev, Step s i ev s' ∧ OwnMillisecond lib s i ev

theorem Inv.step {s s' : Server ι} {i : ι} {ev : Event Op Ret} (h : Inv env request identity s)
    (hstep : Step s i ev s') (hown : OwnMillisecond env.lib s i ev) : Inv env request identity s' := by
  obtain ⟨r, hleft, -⟩ := hstep
  rename_i o k
  -- a reading of `i` after the step is an old one, or differs from the readings of the others
  have hother : ∀ time, SignsAt env.lib (s.log i ++ [⟨o, r⟩]) time → ∀ j, j ≠ i → ∀ time',
      SignsAt env.lib (s.log j) time' → millisecond time' ≠ millisecond time := by
    rintro time ⟨args, htime, hsigns⟩ j hj time' htime'
    rcases signerReading_append (s.log i) ⟨o, r⟩ with hsame | ⟨time₁, args₁, hev, hread⟩
    · exact h.apart j i hj time' time htime' ⟨args, hsame ▸ htime, hsigns⟩
    · obtain ⟨-, rfl⟩ := Prod.mk.inj (Option.some.inj (hread.symm.trans htime))
      exact hown time₁ hev ⟨args, htime, hsigns⟩ j hj time' htime'
  refine ⟨fun j => ?_, fun j j' hne time time' htime htime' => ?_⟩
  · by_cases hj : j = i
    · subst hj
      dsimp only
      rw [Function.update_self, Function.update_self]
      exact .call r (hleft ▸ h.ran j)
    · dsimp only
      rw [Function.update_of_ne hj, Function.update_of_ne hj]
      exact h.ran j
  · dsimp only at htime htime'
    by_cases hj : j = i
    · subst hj
      rw [Function.update_self] at htime
      rw [Function.update_of_ne hne.symm] at htime'
      exact (hother time htime j' hne.symm time' htime').symm
    · rw [Function.update_of_ne hj] at htime
      by_cases hj' : j' = i
      · subst hj'
        rw [Function.update_self] at htime'
        exact hother time' htime' j hj time htime
      · rw [Function.update_of_ne hj'] at htime'
        exact h.apart j j' hne time time' htime htime'

theorem Inv.runsApart {s s' : Server ι} (h : Inv env request identity s) (hruns : RunsApart env.lib s s') :
    Inv env request identity s' := by
  induction hruns with
  | refl => exact h
  | tail _ hstep ih =>
    obtain ⟨i, ev, hstep, hown⟩ := hstep
    exact ih.step hstep hown

/-- In every run in which no signer that makes a certificate reads the clock in a millisecond in which
another one did, the certificates that are returned have different serial numbers. -/
theorem serials_distinct (env : Env) (request : ι → CertificateIssuanceRequest)
    (identity : ι → CallerIdentity) (clock : Instant) (s : Server ι)
    (hruns : RunsApart env.lib (start env request identity clock) s) : SerialsDistinct s :=
  ((Inv.start clock).runsApart hruns).serialsDistinct

/-! ### Two calls, one after the other -/

/-- The call `i` can run alone to its end, with the answers `answer`, if its steps belong to `R`. -/
theorem exists_runs {R : Server ι → Server ι → Prop} (s : Server ι) (i : ι)
    (answer : (o : Op) → Ret o) (hclock : s.clock ≤ answer .now)
    (hR : ∀ s₁ ev s₂, (∀ j, j ≠ i → s₁.log j = s.log j) → ev.2 = answer ev.1 → Step s₁ i ev s₂ →
      R s₁ s₂) :
    ∃ s', Relation.ReflTransGen R s s' ∧ s'.clock ≤ answer .now ∧
      (∀ j, j ≠ i → s'.log j = s.log j ∧ s'.left j = s.left j) ∧
      s'.left i = Prog.ofExcept ((s.left i).run (fun _ => answer) (s.log i)).2 := by
  generalize hp : s.left i = p
  induction p generalizing s with
  | ret a => exact ⟨s, .refl, hclock, fun _ _ => ⟨rfl, rfl⟩, hp⟩
  | throw e => exact ⟨s, .refl, hclock, fun _ _ => ⟨rfl, rfl⟩, hp⟩
  | call o k ih =>
    have htick : s.clock ≤ tick s.clock ⟨o, answer o⟩ ∧
        tick s.clock ⟨o, answer o⟩ ≤ answer .now := by
      cases o with
      | now => exact ⟨hclock, le_refl _⟩
      | _ => exact ⟨le_refl _, hclock⟩
    have hstep := Step.mk (answer o) hp htick.1
    have hlog : ∀ j, j ≠ i → Function.update s.log i (s.log i ++ [⟨o, answer o⟩]) j = s.log j :=
      fun j hj => Function.update_of_ne hj _ _
    obtain ⟨s', hreach, hclock', hothers, hleft⟩ := ih (answer o)
      ⟨tick s.clock ⟨o, answer o⟩, Function.update s.log i (s.log i ++ [⟨o, answer o⟩]),
        Function.update s.left i (k (answer o))⟩ htick.2
      (fun s₁ ev s₂ hsame => hR s₁ ev s₂ fun j hj => (hsame j hj).trans (hlog j hj))
      (Function.update_self i _ s.left)
    refine ⟨s', .head (hR s _ _ (fun _ _ => rfl) rfl hstep) hreach, hclock', fun j hj => ?_, ?_⟩
    · obtain ⟨hl, hr⟩ := hothers j hj
      exact ⟨hl.trans (hlog j hj), hr.trans (Function.update_of_ne hj _ _)⟩
    · rw [hleft]
      dsimp only
      rw [Function.update_self, Prog.run]

end Server

namespace Sample

/-- The answers to the sample request at a later time. -/
def answerAt (seconds : Nat) (h : seconds < 2000000000) : (o : Op) → Ret o
  | .now => instant seconds h
  | o => answer (.lit "dev@acme") [] o

/-- The certificate that is issued a second later. -/
def laterLeaf : X509Certificate :=
  { leaf with
    serial := 1700000101000
    notBefore := 1700000101000
    notAfter := 1700003701000 }

theorem run_answerAt :
    ((TransparentCaService.issueCertificate (env (.lit "dev@acme")) request identity).run
      (fun _ => answerAt 1700000100 (by decide)) []).2 = .ok [leaf, rootCertificate] := by
  rw [← run_dev]
  congr 2
  funext log o
  cases o <;> rfl

theorem run_answerAt_later :
    ((TransparentCaService.issueCertificate (env (.lit "dev@acme")) request identity).run
      (fun _ => answerAt 1700000101 (by decide)) []).2 = .ok [laterLeaf, rootCertificate] := by
  decide +kernel

theorem startTime_lt : 1700000100 < 2000000000 := by decide

/-- The library that makes the certificates. -/
def certificates : CertificateLibrary := (env (.lit "dev@acme")).lib

/-- Two calls with the same request. -/
def server : Server Bool :=
  .start (env (.lit "dev@acme")) (fun _ => request) (fun _ => identity)
    (instant 1700000100 startTime_lt)

end Sample

namespace Server

/-- The theorem for two calls, the second a second after the first. -/
theorem serials_distinct_second_apart :
    ∃ s : Server Bool, RunsApart Sample.certificates Sample.server s ∧
      s.left false = .ret [Sample.leaf, Sample.rootCertificate] ∧
      s.left true = .ret [Sample.laterLeaf, Sample.rootCertificate] ∧ SerialsDistinct s := by
  obtain ⟨s₁, hruns₁, hclock₁, hothers₁, hleft₁⟩ :=
    exists_runs (R := fun s s' => ∃ i ev, Step s i ev s' ∧ OwnMillisecond Sample.certificates s i ev)
      Sample.server false (Sample.answerAt 1700000100 (by decide)) (le_refl _)
      fun s ev s' hlogs _ hstep => by
        refine ⟨false, ev, hstep, ?_⟩
        rintro _ _ _ j hj _ ⟨_, htime, _⟩
        rw [hlogs j hj] at htime
        cases htime
  have hfalse : s₁.left false = .ret [Sample.leaf, Sample.rootCertificate] :=
    hleft₁.trans (congrArg Prog.ofExcept Sample.run_answerAt)
  obtain ⟨time, ⟨args, htime, -⟩, hserial⟩ := ((Inv.start _).runsApart hruns₁).serial hfalse
  obtain ⟨s₂, hruns₂, -, hothers₂, hleft₂⟩ :=
    exists_runs (R := fun s s' => ∃ i ev, Step s i ev s' ∧ OwnMillisecond Sample.certificates s i ev)
      s₁ true (Sample.answerAt 1700000101 (by decide)) (hclock₁.trans (by decide))
      fun s ev s' hlogs hev hstep => by
        refine ⟨true, ev, hstep, ?_⟩
        rintro time₂ rfl - j hj _ ⟨_, htime', -⟩
        obtain rfl : j = false := Bool.eq_false_of_not_eq_true hj
        rw [hlogs false hj, htime] at htime'
        cases htime'
        obtain rfl : time₂ = Sample.answerAt 1700000101 (by decide) .now := hev
        rw [← hserial]
        decide
  obtain ⟨hlog, hleft⟩ := hothers₁ true (by decide)
  rw [hlog, hleft] at hleft₂
  have htrue : s₂.left true = .ret [Sample.laterLeaf, Sample.rootCertificate] :=
    hleft₂.trans (congrArg Prog.ofExcept Sample.run_answerAt_later)
  exact ⟨s₂, hruns₁.trans hruns₂, (hothers₂ false (by decide)).2.trans hfalse, htrue,
    serials_distinct _ _ _ _ s₂ (hruns₁.trans hruns₂)⟩

/-- Two calls whose signers read the clock in the same millisecond are given the same number. -/
theorem serials_collide :
    ¬ ∀ (env : Env) (request : Bool → CertificateIssuanceRequest) (identity : Bool → CallerIdentity)
      (clock : Instant) (s : Server Bool), Runs (start env request identity clock) s →
      SerialsDistinct s := by
  intro hclaim
  obtain ⟨s₁, hruns₁, hclock₁, hothers₁, hleft₁⟩ :=
    exists_runs (R := fun s s' => ∃ i ev, Step s i ev s') Sample.server false
      (Sample.answerAt 1700000100 (by decide)) (le_refl _) fun _ ev _ _ _ h => ⟨false, ev, h⟩
  obtain ⟨s₂, hruns₂, -, hothers₂, hleft₂⟩ :=
    exists_runs (R := fun s s' => ∃ i ev, Step s i ev s') s₁ true
      (Sample.answerAt 1700000100 (by decide)) hclock₁ fun _ ev _ _ _ h => ⟨true, ev, h⟩
  obtain ⟨hlog, hleft⟩ := hothers₁ true (by decide)
  rw [hlog, hleft] at hleft₂
  rw [← (hothers₂ false (by decide)).2] at hleft₁
  exact hclaim _ _ _ _ s₂ (hruns₁.trans hruns₂) false true Sample.leaf Sample.leaf _ _ (by decide)
    (hleft₁.trans (congrArg Prog.ofExcept Sample.run_answerAt))
    (hleft₂.trans (congrArg Prog.ofExcept Sample.run_answerAt)) rfl

end Server

end Issuance
end TrustedCa
