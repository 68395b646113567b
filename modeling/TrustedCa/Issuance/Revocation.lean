import TrustedCa.Issuance.TcaServer
import TrustedCa.Issuance.Serial

/-!
# How long a policy is in use

A policy file that is replaced or deleted is in use until its entry in the cache expires.

* `signed_on_recent_policy`: the signer is called only on a policy that the bucket had less than five
  minutes, and the time of a load, before the request arrived, or later. So this is how long after a
  revocation a request may still be granted.
* `loads_spaced`: in return the bucket is not asked for a file again until five minutes after its last
  answer was stored, however many requests there are. Loads that fail do not count.
* `exists_alone`: a request that goes on alone comes to the end that `issueCertificate` comes to.
-/

namespace TrustedCa
namespace Issuance
namespace TcaServer

open Spec

variable {w : Outside} {env : Env} {s : State} {q : Request}

/-- The window of a policy. When the signer is called for a request, every check has passed, and the
file with the policy was in the bucket at a moment that is less than `cacheDuration` and the longest
load before the request arrived. -/
theorem signed_on_recent_policy (w : Outside) (env : Env) (s : State) (hr : Runs w env {} s)
    (q : Request) (hq : q ∈ s.requests) (args : SignCsrArgs)
    (hsigned : ⟨.signCsr args, ()⟩ ∈ q.log) :
    ∃ (a : Admission) (before : Log) (read : Nat), before <+: q.log ∧
      a.Valid env q.request q.caller args before ∧ read ≤ s.moment ∧
      w.objects read q.caller.getClientId = some a.file ∧
      w.millis q.arrived <
        w.millis read + CachedFileFetcher.cacheDuration + s.cache.slowest := by
  have hinv := (hr.inv .start).requests q hq
  obtain ⟨before, after, hlog⟩ := List.append_of_mem hsigned
  obtain ⟨a, hvalid⟩ := hinv.ran.pending_of_log (Sample.answer [] [])
    (fun answer => issueCertificate_wp env answer q.request q.caller) hlog
  have hprefix : before <+: q.log := ⟨_, hlog.symm⟩
  have hfetched := hprefix.subset hvalid.policy.fetched
  obtain ⟨read, hread, hfile, hrecent⟩ := hinv.recent _ _ hfetched
  exact ⟨a, before, read, hprefix, hvalid, hread, hfile.symm, hrecent⟩

/-- Of two loads of one path that end with an entry, the later one begins `cacheDuration` after the
entry of the earlier one was made, or later. -/
theorem loads_spaced (w : Outside) (env : Env) (s : State) (hr : Runs w env {} s) (path : JString) :
    (s.cache.made path).Pairwise (fun a b =>
        w.millis a.written + CachedFileFetcher.cacheDuration ≤ w.millis b.begun) ∧
      ∀ a ∈ s.cache.made path, a.begun ≤ a.written :=
  have hspaced := (hr.inv .start).cache.spaced path
  ⟨hspaced.apart, hspaced.begun_le⟩

/-- The loads that have made entries stay recorded. -/
theorem Runs.made_prefix {s' : State} (hr : Runs w env s s') (path : JString) :
    s.cache.made path <+: s'.cache.made path := by
  induction hr with
  | refl => exact List.prefix_refl _
  | tail _ hs ih =>
    refine ih.trans ?_
    cases hs with
    | load hi hq hc | fetched hi hq hc => exact hc.made_prefix path
    | _ => exact List.prefix_refl _

/-! ## A request that goes on alone -/

/-- Nothing is being loaded, and the entries that have not expired are as the bucket is now. -/
def Idle (w : Outside) (s : State) : Prop :=
  ∀ path, s.cache.loads path = none ∧ ∀ e, s.cache.entries path = some e →
    e.Alive w.source s.moment → e.value = w.objects s.moment path

/-- There is an entry that has not expired. -/
def Held (w : Outside) (s : State) (path : JString) : Prop :=
  ∃ e, s.cache.entries path = some e ∧ e.Alive w.source s.moment

/-- The `i`-th request has gone on alone, and no time has passed. -/
structure Alone (w : Outside) (env : Env) (s s' : State) (i : Nat) (q' : Request) : Prop where
  runs : Runs w env s s'
  idle : Idle w s'
  moment : s'.moment = s.moment
  requests : s'.requests = s.requests.set i q'
  held : ∀ path, Held w s path → Held w s' path

variable {s' : State} {i : Nat} {q' : Request}

theorem State.setRequest_self (hi : s.requests[i]? = some q) :
    (s.setRequest i q').requests[i]? = some q' :=
  List.getElem?_set_self (List.getElem?_eq_some_iff.mp hi).1

/-- A step that leaves the cache alone. -/
theorem Alone.single (h : Idle w s) (hstep : Step w env s s') (hcache : s'.cache = s.cache)
    (hmoment : s'.moment = s.moment) (hs : s'.requests = s.requests.set i q') :
    Alone w env s s' i q' where
  runs := .single hstep
  idle := by
    unfold Idle
    rw [hcache, hmoment]
    exact h
  moment := hmoment
  requests := hs
  held path hp := by
    unfold Held
    rw [hcache, hmoment]
    exact hp

theorem Alone.trans {s'' : State} {q'' : Request} (h : Alone w env s s' i q')
    (h' : Alone w env s' s'' i q'') : Alone w env s s'' i q'' where
  runs := h.runs.trans h'.runs
  idle := h'.idle
  moment := h'.moment.trans h.moment
  requests := by rw [h'.requests, h.requests, List.set_set]
  held path hp := h'.held path (h.held path hp)

/-- A request is given a file from the cache, or loads it. -/
theorem fetch_alone (h : Idle w s) (hi : s.requests[i]? = some q) {path : JString}
    {k : Ret (.fetchFile path) → M (List X509Certificate)} (hq : q.left = .call (.fetchFile path) k) :
    ∃ s', Alone w env s s' i (q.resume (.fetchFile path) (.ok (w.objects s.moment path))
      (k (.ok (w.objects s.moment path)))) ∧ Held w s' path := by
  obtain ⟨hload, hentry⟩ := h path
  by_cases hheld : Held w s path
  · obtain ⟨e, he, halive⟩ := hheld
    have hstep : Step w env s _ := .fetched hi hq (.hit he halive)
    rw [hentry e he halive] at hstep
    exact ⟨_, .single h hstep rfl rfl rfl, e, he, halive⟩
  · obtain ⟨c₁, c₂, c₃, hstart, hread, hwrite, hentries, hloads⟩ :=
      LoadingCache.exists_load w.source s.moment i (fun e he ha => hheld ⟨e, he, ha⟩) hload
    have hnew : ∀ path', c₃.entries path' =
        if path' = path then some ⟨w.objects s.moment path, s.moment, s.moment⟩
        else s.cache.entries path' := fun path' => by
      rw [hentries, Function.update_apply]
      rfl
    have halive : LoadingCache.Entry.Alive w.source s.moment
        ⟨w.objects s.moment path, s.moment, s.moment⟩ := by
      unfold LoadingCache.Entry.Alive
      exact lt_of_eq_of_lt (Int.sub_self _) w.source.lifetime_pos
    refine ⟨_, ⟨.tail (.tail (.single (.load hi hq hstart)) (.load hi hq hread))
      (.fetched hi hq hwrite), fun path' => ?_, rfl, rfl, fun path' hp => ?_⟩,
      _, (hnew path).trans (if_pos rfl), halive⟩
    · refine ⟨(congrFun hloads path').trans (h path').1, fun e he ha => ?_⟩
      replace he := (hnew path').symm.trans he
      split at he
      · next hpath =>
        cases he
        exact congrArg (w.objects s.moment) hpath.symm
      · exact (h path').2 e he ha
    · obtain ⟨e, he, ha⟩ := hp
      by_cases hpath : path' = path
      · exact ⟨_, (hnew path').trans (if_pos hpath), halive⟩
      · exact ⟨e, (hnew path').trans ((if_neg hpath).trans he), ha⟩

/-- A call that is not answered by the cache. -/
theorem answer_alone (h : Idle w s) (hi : s.requests[i]? = some q) {o : Op}
    {k : Ret o → M (List X509Certificate)} (hq : q.left = .call o k) (hl : q.locking = false)
    (ho : ∀ path, o ≠ .fetchFile path) (r : Ret o) :
    ∃ s', Alone w env s s' i (q.resume o r (k r)) := by
  cases o with
  | fetchFile path => exact absurd rfl (ho path)
  | getAnnotations | getValidity | verify | now | signCsr =>
    exact ⟨_, .single h (.answered r hi hq trivial) rfl rfl rfl⟩
  | incrementProcessingCounter status => exact ⟨_, .single h (.counted hi hq) rfl rfl rfl⟩
  | incrementCertificateIssuanceCounter clientId => exact ⟨_, .single h (.issued hi hq) rfl rfl rfl⟩
  | allowMetricsForClientId clientId =>
    by_cases hin : clientId ∈ s.metrics.approvedClients
    · exact ⟨_, .single h (.allowed hi hq hl hin) rfl rfl rfl⟩
    · have hlock : Alone w env s (s.setRequest i { q with locking := true }) i
          { q with locking := true } := .single h (.lock hi hq hl hin) rfl rfl rfl
      have hlocked : Step w env (s.setRequest i { q with locking := true }) _ :=
        .locked (State.setRequest_self hi) hq rfl
      exact ⟨_, hlock.trans (.single hlock.idle hlocked rfl rfl rfl)⟩

/-- A request that goes on alone ends as `issueCertificate` does, with the files that the bucket has.
The files that it asked for are in the cache then. -/
theorem exists_alone (env : Env) (answer : (o : Op) → Ret o) (h : Idle w s)
    (hi : s.requests[i]? = some q) (hl : q.locking = false)
    (hanswer : ∀ path, answer (.fetchFile path) = .ok (w.objects s.moment path)) :
    ∃ s', Alone w env s s' i
      { q with
        log := (q.left.run (fun _ => answer) q.log).1
        left := Prog.ofExcept (q.left.run (fun _ => answer) q.log).2 } ∧
      ∀ path r, ⟨.fetchFile path, r⟩ ∈ (q.left.run (fun _ => answer) q.log).1 →
        ⟨.fetchFile path, r⟩ ∈ q.log ∨ Held w s' path := by
  generalize hp : q.left = p
  induction p generalizing s q with
  | ret a | throw e =>
    refine ⟨s, ⟨.refl, h, rfl, ?_, fun _ hheld => hheld⟩, fun path r hmem => .inl hmem⟩
    obtain ⟨hlt, hget⟩ := List.getElem?_eq_some_iff.mp hi
    simp only [Prog.run, Prog.ofExcept]
    rw [← hp, ← hget, List.set_getElem_self]
  | call o k ih =>
    obtain ⟨s₁, halone, hheld⟩ : ∃ s₁, Alone w env s s₁ i (q.resume o (answer o) (k (answer o))) ∧
        ∀ path, o = .fetchFile path → Held w s₁ path := by
      by_cases ho : ∃ path, o = .fetchFile path
      · obtain ⟨path, rfl⟩ := ho
        rw [hanswer]
        obtain ⟨s₁, halone, hheld⟩ := fetch_alone h hi hp
        exact ⟨s₁, halone, fun path' hpath => by cases hpath; exact hheld⟩
      · obtain ⟨s₁, halone⟩ := answer_alone h hi hp hl (fun path hpath => ho ⟨path, hpath⟩) (answer o)
        exact ⟨s₁, halone, fun path hpath => absurd ⟨path, hpath⟩ ho⟩
    have hi₁ : s₁.requests[i]? = some (q.resume o (answer o) (k (answer o))) := by
      rw [halone.requests]
      exact State.setRequest_self hi
    obtain ⟨s₂, halone₂, hheld₂⟩ := ih (answer o) halone.idle hi₁ rfl
      (fun path => by rw [halone.moment, hanswer]) rfl
    have hfinal := halone.trans halone₂
    simp only [Request.resume] at hfinal hheld₂
    simp only [Prog.run]
    refine ⟨s₂, hl ▸ hfinal, fun path r hmem => ?_⟩
    rcases hheld₂ path r hmem with hold | hnew
    · rcases List.mem_append.mp hold with hold | hthis
      · exact .inl hold
      · cases List.mem_singleton.mp hthis
        exact .inr (halone₂.held path (hheld path rfl))
    · exact .inr hnew

/-- A request that arrives now and goes on alone. -/
theorem exists_next (h : Idle w s) (env : Env) (request : CertificateIssuanceRequest)
    (caller : CallerIdentity) (answer : (o : Op) → Ret o)
    (hanswer : ∀ path, answer (.fetchFile path) = .ok (w.objects s.moment path)) :
    ∃ s' q, Runs w env s s' ∧ Idle w s' ∧ s'.moment = s.moment ∧ s'.requests = s.requests ++ [q] ∧
      q.caller = caller ∧
      q.log = ((TransparentCaService.issueCertificate env request caller).run
        (fun _ => answer) []).1 ∧
      q.left = Prog.ofExcept ((TransparentCaService.issueCertificate env request caller).run
        (fun _ => answer) []).2 ∧
      ∀ path r, ⟨.fetchFile path, r⟩ ∈ q.log → Held w s' path := by
  have harrive : Step w env s
      { s with requests := s.requests ++ [.start env request caller s.moment] } :=
    .arrive request caller
  have hidle : Idle w { s with requests := s.requests ++ [.start env request caller s.moment] } := h
  obtain ⟨s', halone, hheld⟩ :=
    exists_alone env answer hidle List.getElem?_concat_length rfl hanswer
  have hrequests := halone.requests
  rw [List.set_append_right _ _ (Nat.le_refl _), Nat.sub_self, List.set_cons_zero] at hrequests
  exact ⟨s', _, .head harrive halone.runs, halone.idle, halone.moment, hrequests, rfl, rfl, rfl,
    fun path r hmem => (hheld path r hmem).resolve_left (List.not_mem_nil)⟩

theorem idle_start : Idle w {} := fun _ => ⟨rfl, fun _ he => by cases he⟩

end TcaServer

/-! ### The sample request, alone -/

/-- A bucket with the sample file, and a clock of milliseconds. -/
def Sample.outside : Outside where
  bucket := .lit "policies"
  objects _ _ := some ((text (.lit "dev@acme")).map UInt16.toUInt8)
  millis m := m
  millis_mono h := Int.ofNat_le.mpr h

namespace TcaServer

open Spec

/-- The sample request arrives, goes on alone and is granted a certificate. -/
theorem sample_next {s : State} (h : Idle Sample.outside s) :
    ∃ s' q, Runs Sample.outside (Sample.env (.lit "dev@acme")) s s' ∧ Idle Sample.outside s' ∧
      s'.moment = s.moment ∧ s'.requests = s.requests ++ [q] ∧ q.caller = Sample.identity ∧
      q.log = (Sample.run (.lit "dev@acme")).1 ∧ q.left = .ret [Sample.leaf, Sample.rootCertificate] ∧
      Held Sample.outside s' Sample.identity.getClientId := by
  obtain ⟨s', q, hruns, hidle, hmoment, hrequests, hcaller, hlog, hleft, hheld⟩ :=
    exists_next h (Sample.env (.lit "dev@acme")) Sample.request Sample.identity
      (Sample.answer (.lit "dev@acme") []) fun path => rfl
  have hanswer : (fun _ => Sample.answer (.lit "dev@acme") []) =
      Sample.answer (.lit "dev@acme") := by
    funext log o
    cases o <;> rfl
  rw [hanswer] at hlog hleft
  replace hlog : q.log = (Sample.run (.lit "dev@acme")).1 := hlog
  replace hleft : q.left = Prog.ofExcept (Sample.run (.lit "dev@acme")).2 := hleft
  rw [Sample.run_dev] at hleft
  obtain ⟨⟨o, r⟩, hmem, ho⟩ : ∃ ev ∈ (Sample.run (.lit "dev@acme")).1,
      ev.1 = .fetchFile Sample.identity.getClientId := by
    decide +kernel
  obtain rfl : o = .fetchFile Sample.identity.getClientId := ho
  exact ⟨s', q, hruns, hidle, hmoment, hrequests, hcaller, hlog, hleft, hheld _ r (hlog ▸ hmem)⟩

/-- Two such requests, the second one when the entry of the first one has expired. -/
theorem sample_two :
    ∃ s₁ s₂ q₁ q₂, Runs Sample.outside (Sample.env (.lit "dev@acme")) {} s₁ ∧ s₁.moment = 0 ∧
      Held Sample.outside s₁ Sample.identity.getClientId ∧
      Runs Sample.outside (Sample.env (.lit "dev@acme")) s₁ s₂ ∧ s₂.moment = 300000 ∧
      Held Sample.outside s₂ Sample.identity.getClientId ∧ s₂.requests = [q₁, q₂] ∧
      ∀ q ∈ s₂.requests, q.caller = Sample.identity ∧
        q.log = (Sample.run (.lit "dev@acme")).1 ∧
        q.left = .ret [Sample.leaf, Sample.rootCertificate] := by
  obtain ⟨s₁, q₁, hruns₁, hidle₁, hmoment₁, hs₁, hcaller₁, hlog₁, hleft₁, hheld₁⟩ :=
    sample_next idle_start
  have hpass : Step Sample.outside (Sample.env (.lit "dev@acme")) s₁
      { s₁ with moment := 300000 } := .pass (by rw [hmoment₁]; exact Nat.zero_le _)
  have hidle : Idle Sample.outside { s₁ with moment := 300000 } := by
    refine fun path => ⟨(hidle₁ path).1, fun e he halive => (hidle₁ path).2 e he ?_⟩
    unfold LoadingCache.Entry.Alive at halive ⊢
    rw [hmoment₁]
    refine Int.lt_of_le_of_lt (Int.sub_le_sub_right ?_ _) halive
    exact Sample.outside.millis_mono (Nat.zero_le _)
  obtain ⟨s₂, q₂, hruns₂, -, hmoment₂, hs₂, hcaller₂, hlog₂, hleft₂, hheld₂⟩ := sample_next hidle
  have hrequests : s₂.requests = [q₁, q₂] := by
    rw [hs₂]
    dsimp only
    rw [hs₁]
    rfl
  refine ⟨s₁, s₂, q₁, q₂, hruns₁, hmoment₁, hheld₁, .head hpass hruns₂, hmoment₂, hheld₂, hrequests,
    fun q hq => ?_⟩
  rw [hrequests] at hq
  rcases List.mem_pair.mp hq with rfl | rfl
  · exact ⟨hcaller₁, hlog₁, hleft₁⟩
  · exact ⟨hcaller₂, hlog₂, hleft₂⟩

theorem signed_on_recent_policy_sample :
    ∃ (s : State) (q : Request) (args : SignCsrArgs),
      Runs Sample.outside (Sample.env (.lit "dev@acme")) {} s ∧ q ∈ s.requests ∧
      ∃ (a : Admission) (before : Log) (read : Nat), before <+: q.log ∧
        a.Valid (Sample.env (.lit "dev@acme")) q.request q.caller args before ∧ read ≤ s.moment ∧
        Sample.outside.objects read q.caller.getClientId = some a.file ∧
        Sample.outside.millis q.arrived < Sample.outside.millis read +
          CachedFileFetcher.cacheDuration + s.cache.slowest := by
  obtain ⟨s, q, hruns, -, -, hs, -, hlog, -, -⟩ := sample_next idle_start
  obtain ⟨⟨o, r⟩, hmem, ho⟩ : ∃ ev ∈ (Sample.run (.lit "dev@acme")).1, ¬ ev.1.Silent := by
    decide +kernel
  have hq : q ∈ s.requests := hs ▸ List.mem_append_right _ (List.mem_singleton_self _)
  cases o with
  | signCsr args =>
    exact ⟨s, q, args, hruns, hq,
      signed_on_recent_policy _ _ s hruns q hq args (hlog ▸ hmem)⟩
  | _ => exact absurd trivial ho

/-- The moment of the load behind an entry that has not expired. -/
theorem exists_made {s : State} (hr : Runs Sample.outside (Sample.env (.lit "dev@acme")) {} s)
    {path : JString} (h : Held Sample.outside s path) :
    ∃ a ∈ s.cache.made path, a.written ≤ s.moment ∧ s.moment < a.written + 300000 := by
  obtain ⟨e, he, halive⟩ := h
  have hcache := (hr.inv .start).cache
  obtain ⟨a, ha, hwritten⟩ := (hcache.spaced path).last e he
  have hle := (hcache.entry path e he).written_le
  simp only [LoadingCache.Entry.Alive, Outside.source, Sample.outside,
    CachedFileFetcher.cacheDuration] at halive
  exact ⟨a, ha, by omega, by omega⟩

/-- The two requests load the policy file twice. -/
theorem loads_spaced_sample :
    ∃ s a b, Runs Sample.outside (Sample.env (.lit "dev@acme")) {} s ∧
      a ∈ s.cache.made Sample.identity.getClientId ∧ b ∈ s.cache.made Sample.identity.getClientId ∧
      a.written = 0 ∧ Sample.outside.millis a.written + CachedFileFetcher.cacheDuration ≤
        Sample.outside.millis b.begun := by
  obtain ⟨s₁, s₂, -, -, hruns₁, hmoment₁, hheld₁, hruns₂, hmoment₂, hheld₂, -, -⟩ := sample_two
  obtain ⟨a, ha, hwritten, -⟩ := exists_made hruns₁ hheld₁
  obtain ⟨b, hb, -, hlt⟩ := exists_made (hruns₁.trans hruns₂) hheld₂
  replace ha := (hruns₂.made_prefix Sample.identity.getClientId).subset ha
  obtain ⟨hspaced, hbegun⟩ := loads_spaced _ _ s₂ (hruns₁.trans hruns₂) Sample.identity.getClientId
  rw [hmoment₁] at hwritten
  rw [hmoment₂] at hlt
  refine ⟨s₂, a, b, hruns₁.trans hruns₂, ha, hb, Nat.le_zero.mp hwritten, ?_⟩
  obtain ⟨i, hi, hai⟩ := List.getElem_of_mem ha
  obtain ⟨j, hj, hbj⟩ := List.getElem_of_mem hb
  rw [List.pairwise_iff_getElem] at hspaced
  rcases Nat.lt_trichotomy i j with hij | rfl | hij
  · have h := hspaced i j hi hj hij
    rwa [hai, hbj] at h
  · rw [hai.symm.trans hbj] at hwritten
    omega
  · have h := hspaced j i hj hi hij
    have hle := hbegun a ha
    rw [hai, hbj] at h
    simp only [Sample.outside, CachedFileFetcher.cacheDuration] at h
    omega

end TcaServer
end Issuance
end TrustedCa
