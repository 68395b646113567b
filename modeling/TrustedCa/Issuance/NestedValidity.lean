import TrustedCa.Issuance.Soundness
import Mathlib.Order.Interval.Set.Basic

/-!
# The validity of a leaf and that of its root

The leaf's validity is made of the clock, the policy and the endorsement. The root has its own dates
from when it was generated, and no code reads them.

* `Admission.window`: what the clock, the policy and the endorsement leave. It is what the signer is
  called with.
* `window_nested_iff`: when it lies inside the validity of the root.
* `MbsCertificateFactory.dates`: the dates of a root that is generated. A leaf is inside them while
  the root is young (`window_nested_of_young`), and no leaf is after they have passed
  (`not_nested_of_expired`).
-/

namespace TrustedCa
namespace Issuance

open Spec TransparentCaService

/-! ## Intervals -/

def nanosPerMilli : Int := 1000000

/-- The instants at which a certificate is valid. Its dates are in milliseconds. -/
def X509Certificate.validity (cert : X509Certificate) : Set Instant :=
  {t | cert.notBefore * nanosPerMilli ≤ t.nanos ∧ t.nanos ≤ cert.notAfter * nanosPerMilli}

/-- The validity that the signer is called with. -/
def SignCsrArgs.validity (args : SignCsrArgs) : Set Instant := Set.Icc args.notBefore args.notAfter

/-- The instants that the clock, the longest validity of the policy and the endorsement leave. -/
def Admission.window (a : Admission) : Set Instant :=
  {t | a.now ≤ t ∧
    t.nanos ≤ a.now.nanos + a.policy.certificateAttributes.maxCertificateValidity.nanos ∧
    a.validity.notBefore ≤ t ∧ t ≤ a.validity.notAfter}

/-- An interval that is not empty lies inside the validity of a certificate if its ends do. -/
theorem Icc_subset_validity {s e : Instant} (h : s ≤ e) (cert : X509Certificate) :
    Set.Icc s e ⊆ cert.validity ↔
      cert.notBefore * nanosPerMilli ≤ s.nanos ∧ e.nanos ≤ cert.notAfter * nanosPerMilli := by
  constructor
  · intro hsub
    exact ⟨(hsub (Set.left_mem_Icc.mpr h)).1, (hsub (Set.right_mem_Icc.mpr h)).2⟩
  · rintro ⟨hs, he⟩ t ⟨hst, hte⟩
    exact ⟨hs.trans hst, le_trans (show t.nanos ≤ e.nanos from hte) he⟩

/-! ## The interval of the signer -/

section Window

variable {a : Admission} {env : Env} {request : CertificateIssuanceRequest}
  {identity : CallerIdentity} {args : SignCsrArgs} {log : Log}

/-- The signer is called with the window. -/
theorem Admission.Valid.validity_eq (h : a.Valid env request identity args log) :
    args.validity = a.window := by
  obtain ⟨expiration, hend, hexpiration⟩ := h.notAfter
  ext t
  have hle : t ≤ expiration ↔ t.nanos ≤
      a.now.nanos + a.policy.certificateAttributes.maxCertificateValidity.nanos := by
    rw [← hexpiration]
    exact Iff.rfl
  rw [SignCsrArgs.validity, Set.mem_Icc, h.notBefore, hend, max_le_iff, le_min_iff, hle]
  simp only [window, Set.mem_ofPred_eq]
  tauto

theorem Admission.Valid.window_nonempty (h : a.Valid env request identity args log) :
    a.window.Nonempty := by
  rw [← h.validity_eq]
  exact Set.nonempty_Icc.mpr h.period

/-- The window of an admission lies inside a certificate's validity if the clock or the endorsement
starts late enough, and the policy or the endorsement ends early enough. -/
theorem Admission.Valid.window_nested_iff (h : a.Valid env request identity args log)
    (cert : X509Certificate) :
    a.window ⊆ cert.validity ↔
      (cert.notBefore * nanosPerMilli ≤ a.now.nanos ∨
        cert.notBefore * nanosPerMilli ≤ a.validity.notBefore.nanos) ∧
      (a.now.nanos + a.policy.certificateAttributes.maxCertificateValidity.nanos ≤
          cert.notAfter * nanosPerMilli ∨
        a.validity.notAfter.nanos ≤ cert.notAfter * nanosPerMilli) := by
  obtain ⟨expiration, hend, hexpiration⟩ := h.notAfter
  have hmono : Monotone Instant.nanos := fun _ _ hle => hle
  rw [← h.validity_eq, SignCsrArgs.validity, Icc_subset_validity h.period, h.notBefore, hend,
    hmono.map_max, hmono.map_min, le_max_iff, min_le_iff, hexpiration]

end Window

/-- The validity of a leaf. Where a chain is returned, the signer was called with the interval that
the clock, the policy and the endorsement leave, which is not empty. It lies inside the validity of
the root that the leaf is chained to if the clock or the endorsement starts after the root's start,
and the policy or the endorsement ends before the root's end, and not otherwise. -/
theorem issueCertificate_validity (env : Env) (answer : Log → (o : Op) → Ret o)
    (request : CertificateIssuanceRequest) (identity : CallerIdentity) {log : Log}
    {chain : List X509Certificate}
    (hrun : (issueCertificate env request identity).run answer [] = (log, .ok chain)) :
    ∃ (a : Admission) (args : SignCsrArgs) (leaf : X509Certificate) (before : Log),
      chain = [leaf, env.rootCertificate] ∧ SignCsrEnds env answer args before (.ok leaf) log ∧
      args.issuerCert = env.rootCertificate ∧ a.Valid env request identity args before ∧
      args.validity = a.window ∧ a.window.Nonempty ∧
      (args.validity ⊆ env.rootCertificate.validity ↔
        (env.rootCertificate.notBefore * nanosPerMilli ≤ a.now.nanos ∨
          env.rootCertificate.notBefore * nanosPerMilli ≤ a.validity.notBefore.nanos) ∧
        (a.now.nanos + a.policy.certificateAttributes.maxCertificateValidity.nanos ≤
            env.rootCertificate.notAfter * nanosPerMilli ∨
          a.validity.notAfter.nanos ≤ env.rootCertificate.notAfter * nanosPerMilli)) := by
  have hout := wp_run (issueCertificate_wp env answer request identity)
  rw [hrun] at hout
  obtain ⟨a, args, leaf, before, hchain, hvalid, -, hends⟩ := hout
  refine ⟨a, args, leaf, before, hchain, hends, hvalid.issuer.1, hvalid, hvalid.validity_eq,
    hvalid.window_nonempty, ?_⟩
  rw [hvalid.validity_eq]
  exact hvalid.window_nested_iff env.rootCertificate

/-! ## The root's own dates -/

/-- The dates of the certificate that `MbsCertificateFactory.generateCertificate` makes at `now`:
from 24 hours in the past, for `validityDuration`. -/
def MbsCertificateFactory.dates (now : Instant) (validityDuration : Duration) :
    Except Thrown (Int × Int) := do
  let notBefore ← now.plusSeconds (-86400)
  let notAfter ← now.plus validityDuration
  return (CertificateSignerImpl.toSeconds (← CertificateSignerImpl.dateFrom notBefore),
    CertificateSignerImpl.toSeconds (← CertificateSignerImpl.dateFrom notAfter))

namespace CertificateSignerImpl

theorem dateFrom_ok {t : Instant} {date : Int} (h : dateFrom t = .ok date) :
    date = t.nanos / nanosPerMilli := by
  have hmilli : t.toEpochMilli = .ok date := by
    refine (tryCatch_eq_ok fun e b => ?_).mp h
    split <;> intro hb <;> cases hb
  unfold Instant.toEpochMilli exact at hmilli
  split at hmilli
  · cases hmilli; rfl
  · cases hmilli

/-- A date is cut to the second. -/
theorem toSeconds_dateFrom {t : Instant} {date : Int} (h : dateFrom t = .ok date) :
    toSeconds date * nanosPerMilli ≤ t.nanos ∧
      t.nanos < toSeconds date * nanosPerMilli + nanosPerSecond := by
  rw [dateFrom_ok h]
  simp only [toSeconds, nanosPerMilli, nanosPerSecond]
  omega

end CertificateSignerImpl

/-- The root's dates, up to a second. -/
theorem MbsCertificateFactory.dates_ok {generated : Instant} {validityDuration : Duration}
    {notBefore notAfter : Int} (h : dates generated validityDuration = .ok (notBefore, notAfter)) :
    notBefore * nanosPerMilli ≤ generated.nanos - 86400 * nanosPerSecond ∧
      notAfter * nanosPerMilli ≤ generated.nanos + validityDuration.nanos ∧
      generated.nanos + validityDuration.nanos < notAfter * nanosPerMilli + nanosPerSecond := by
  unfold dates at h
  simp only [bind_eq_ok] at h
  obtain ⟨start, hstart, fin, hfin, startDate, hstartDate, finDate, hfinDate, h⟩ := h
  cases h
  have hs := (CertificateSignerImpl.toSeconds_dateFrom hstartDate).1
  have hf := CertificateSignerImpl.toSeconds_dateFrom hfinDate
  rw [Instant.plusSeconds_ok hstart] at hs
  rw [Instant.plus_ok hfin] at hf
  exact ⟨by omega, hf⟩

section Root

variable {a : Admission} {env : Env} {request : CertificateIssuanceRequest}
  {identity : CallerIdentity} {args : SignCsrArgs} {log : Log} {generated : Instant}
  {validityDuration : Duration} {root : X509Certificate}

/-- A leaf lies inside the validity of a root that was generated no more than a day ahead of the
clock, and that has at least the policy's longest validity, and a second, to go. -/
theorem Admission.Valid.window_nested_of_young (h : a.Valid env request identity args log)
    (hroot : MbsCertificateFactory.dates generated validityDuration =
      .ok (root.notBefore, root.notAfter))
    (hstart : generated.nanos ≤ a.now.nanos + 86400 * nanosPerSecond)
    (hend : a.now.nanos + a.policy.certificateAttributes.maxCertificateValidity.nanos +
      nanosPerSecond ≤ generated.nanos + validityDuration.nanos) :
    a.window ⊆ root.validity := by
  obtain ⟨hbefore, -, hafter⟩ := MbsCertificateFactory.dates_ok hroot
  refine (h.window_nested_iff root).mpr ⟨.inl ?_, .inl ?_⟩
  · omega
  · omega

/-- The service goes on issuing after the root's end, and no leaf from then on lies inside the
root's validity. -/
theorem Admission.Valid.not_nested_of_expired (h : a.Valid env request identity args log)
    (hroot : MbsCertificateFactory.dates generated validityDuration =
      .ok (root.notBefore, root.notAfter))
    (hexpired : generated.nanos + validityDuration.nanos < a.now.nanos) :
    ¬ a.window ⊆ root.validity := by
  intro hnested
  obtain ⟨t, ht⟩ := h.window_nonempty
  obtain ⟨-, hend⟩ := hnested ht
  have hnow : a.now.nanos ≤ t.nanos := ht.1
  obtain ⟨-, hafter, -⟩ := MbsCertificateFactory.dates_ok hroot
  omega

end Root

/-! ### A root that ends before the leaf -/

namespace Sample

/-- The root as it is after 119 days and 23 hours: generated for 120 days, and loaded since. -/
def agedRoot : X509Certificate :=
  { rootCertificate with notBefore := 1689548600000, notAfter := 1700003000000 }

example : MbsCertificateFactory.dates (instant 1689635000 (by decide))
    ⟨120 * 86400 * nanosPerSecond⟩ = .ok (agedRoot.notBefore, agedRoot.notAfter) := by
  decide

def agedEnv : Env := { env (.lit "dev@acme") with rootCertificate := agedRoot }

def agedRun : Log × Except Thrown (List X509Certificate) :=
  (issueCertificate agedEnv request identity).run (answer (.lit "dev@acme")) []

theorem agedRun_ok : agedRun.2 = .ok [leaf, agedRoot] := by decide +kernel

theorem agedRun_eq : agedRun = (agedRun.1, .ok [leaf, agedRoot]) :=
  (Prod.eta agedRun).symm.trans (congrArg (Prod.mk agedRun.1) agedRun_ok)

/-- A call of the signer with an interval that ends after the root. -/
def Outlives (root : X509Certificate) : Op → Bool
  | .signCsr args =>
    args.notBefore ≤ args.notAfter && root.notAfter * nanosPerMilli < args.notAfter.nanos
  | _ => false

theorem agedRun_outlives : ∃ ev ∈ agedRun.1, Outlives agedRoot ev.1 = true := by decide +kernel

end Sample

/-- The leaf of an hour ends after a root that has 48 minutes to go. -/
theorem leaf_outlives_root :
    ¬ ∀ (env : Env) (answer : Log → (o : Op) → Ret o) (request : CertificateIssuanceRequest)
      (identity : CallerIdentity) (log : Log) (chain : List X509Certificate),
      (issueCertificate env request identity).run answer [] = (log, .ok chain) →
      ∀ args, ⟨.signCsr args, ()⟩ ∈ log → args.validity ⊆ env.rootCertificate.validity := by
  intro hclaim
  obtain ⟨⟨o, r⟩, hmem, ho⟩ := Sample.agedRun_outlives
  have hnested := hclaim Sample.agedEnv (Sample.answer (.lit "dev@acme")) Sample.request
    Sample.identity Sample.agedRun.1 _ Sample.agedRun_eq
  cases o with
  | signCsr args =>
    simp only [Sample.Outlives, Bool.and_eq_true, decide_eq_true_eq] at ho
    have hends := (Icc_subset_validity ho.1 Sample.agedRoot).mp (hnested args hmem)
    omega
  | _ => cases ho

/-- The theorem for a leaf that outlives its root. -/
theorem issueCertificate_validity_aged :
    Sample.agedRun.2 = .ok [Sample.leaf, Sample.agedRoot] ∧
      ∃ (a : Admission) (args : SignCsrArgs), args.issuerCert = Sample.agedRoot ∧
        args.validity = a.window ∧ a.window.Nonempty := by
  refine ⟨Sample.agedRun_ok, ?_⟩
  obtain ⟨a, args, leaf, before, -, -, hissuer, -, hvalidity, hnonempty, -⟩ :=
    issueCertificate_validity Sample.agedEnv (Sample.answer (.lit "dev@acme")) Sample.request
      Sample.identity Sample.agedRun_eq
  exact ⟨a, args, hissuer, hvalidity, hnonempty⟩

end Issuance
end TrustedCa
