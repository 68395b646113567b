import TrustedCa.Issuance.Soundness
import TrustedCa.Spec.LoadingCache

/-!
# The server: requests that share a cache and the metrics

Any number of requests run `issueCertificate` at the same time. They share the cache of policy files
(`CachedFileFetcher` over `S3FileFetcher`) and the metrics (`SystemMetrics`).

* The cache is `Spec.LoadingCache`: an entry is written after its load, lives for five minutes, and
  an absent file is an entry, too. A `FileLoadException` is thrown to the request that loads.
* `allowMetricsForClientId` looks at the clients before it waits for the lock, and again behind it.
  The other counters are atomic.
* `Outside` says which objects the bucket has at each moment, and what the clock says, which does not
  go backwards. The verifiers, the endorsement parser and `Instant.now` may answer anything.
* `State.Inv`: the requests are on their way, the cache is sound, and the file that a request was
  given is not old.
-/

namespace TrustedCa
namespace Issuance

open Spec

/-! ## The files -/

/-- How `getObject` and reading its stream may end. -/
inductive GetObject where
  | object (bytes : Bytes) | noSuchKey | exception

/-- `S3FileFetcher.fetchFile`. -/
def S3FileFetcher.fetchFile (bucket key : JString) : GetObject → Except Thrown (Option Bytes)
  | .object bytes => .ok (some bytes)
  | .noSuchKey => .ok none
  | .exception => .error ⟨.fileLoadException,
      .lit "Failed to load file " ++ key ++ .lit " from S3 bucket: " ++ bucket⟩

/-- `CACHE_DURATION`, in milliseconds. -/
def CachedFileFetcher.cacheDuration : Int := 5 * 60 * 1000

/-! ## The metrics -/

/-- `SystemMetrics`: the clients with metrics, and the counters. -/
structure SystemMetrics where
  approvedClients : List JString := []
  processingCounter : ProcessingStatus → Nat := fun _ => 0
  issuanceCounters : JString → Option Nat := fun _ => none

namespace SystemMetrics

/-- `MAX_APPROVED_CLIENTS`. -/
def maxApprovedClients : Nat := 1000

/-- The synchronized block of `allowMetricsForClientId`. -/
def allowLocked (m : SystemMetrics) (clientId : JString) : SystemMetrics :=
  if clientId ∈ m.approvedClients then m
  else if m.approvedClients.length < maxApprovedClients then
    { m with approvedClients := m.approvedClients ++ [clientId] }
  else m

def incrementProcessingCounter (m : SystemMetrics) (status : ProcessingStatus) : SystemMetrics :=
  { m with
    processingCounter := Function.update m.processingCounter status (m.processingCounter status + 1) }

def incrementCertificateIssuanceCounter (m : SystemMetrics) (clientId : JString) : SystemMetrics :=
  if clientId ∈ m.approvedClients then
    { m with
      issuanceCounters := Function.update m.issuanceCounters clientId
        (some ((m.issuanceCounters clientId).getD 0 + 1)) }
  else m

end SystemMetrics

/-! ## The server -/

/-- What the server meets outside, moment by moment. -/
structure Outside where
  bucket : JString
  objects : Nat → JString → Option Bytes
  millis : Nat → Int
  millis_mono : ∀ {m n}, m ≤ n → millis m ≤ millis n

/-- The bucket as the source of the cache. -/
def Outside.source (w : Outside) : LoadingCache.Source JString (Option Bytes) Thrown where
  content := w.objects
  fails key e := S3FileFetcher.fetchFile w.bucket key .exception = .error e
  millis := w.millis
  millis_mono := w.millis_mono
  lifetime := CachedFileFetcher.cacheDuration
  lifetime_pos := by decide

/-- What the bucket has is what the fetcher returns. -/
theorem Outside.fetchFile_content (w : Outside) (m : Nat) (key : JString) :
    S3FileFetcher.fetchFile w.bucket key
      (match w.objects m key with
        | some bytes => .object bytes
        | none => .noSuchKey) = .ok (w.source.content m key) := by
  cases h : w.objects m key with
  | none => exact congrArg Except.ok h.symm
  | some bytes => exact congrArg Except.ok h.symm

namespace TcaServer

/-- A request, with what it has logged and what is left of it. `locking` says that it waits for the
lock of the metrics. -/
structure Request where
  request : CertificateIssuanceRequest
  caller : CallerIdentity
  arrived : Nat
  log : Log := []
  left : M (List X509Certificate)
  locking : Bool := false

/-- A request that arrives. -/
def Request.start (env : Env) (request : CertificateIssuanceRequest) (caller : CallerIdentity)
    (arrived : Nat) : Request where
  request := request
  caller := caller
  arrived := arrived
  left := TransparentCaService.issueCertificate env request caller

/-- The answer to a call. -/
def Request.resume (q : Request) (o : Op) (r : Ret o) (left : M (List X509Certificate)) : Request :=
  { q with log := q.log ++ [⟨o, r⟩], left := left, locking := false }

structure State where
  moment : Nat := 0
  cache : LoadingCache.Cache Nat JString (Option Bytes) := {}
  metrics : SystemMetrics := {}
  requests : List Request := []

/-- The `i`-th request is another. -/
def State.setRequest (s : State) (i : Nat) (q : Request) : State :=
  { s with requests := s.requests.set i q }

/-- The calls of what the server does not keep state of. -/
def Outer : Op → Prop
  | .getAnnotations _ | .getValidity _ | .verify .. | .now | .signCsr _ => True
  | .fetchFile _ | .incrementProcessingCounter _ | .allowMetricsForClientId _
  | .incrementCertificateIssuanceCounter _ => False

/-- A step of the server: time passes, a request arrives, or one of the requests goes on. -/
inductive Step (w : Outside) (env : Env) : State → State → Prop
  | pass {s : State} {m : Nat} (hm : s.moment ≤ m) : Step w env s { s with moment := m }
  | arrive {s : State} (request : CertificateIssuanceRequest) (caller : CallerIdentity) :
    Step w env s
      { s with requests := s.requests ++ [.start env request caller s.moment] }
  | load {s : State} {i : Nat} {q : Request} {path : JString}
      {k : Ret (.fetchFile path) → M (List X509Certificate)}
      {cache : LoadingCache.Cache Nat JString (Option Bytes)}
      (hi : s.requests[i]? = some q) (hq : q.left = .call (.fetchFile path) k)
      (hc : LoadingCache.Step w.source i path s.moment s.cache none cache) :
    Step w env s { s with cache := cache }
  | fetched {s : State} {i : Nat} {q : Request} {path : JString}
      {k : Ret (.fetchFile path) → M (List X509Certificate)} {r : Except Thrown (Option Bytes)}
      {cache : LoadingCache.Cache Nat JString (Option Bytes)}
      (hi : s.requests[i]? = some q) (hq : q.left = .call (.fetchFile path) k)
      (hc : LoadingCache.Step w.source i path s.moment s.cache (some r) cache) :
    Step w env s ({ s with cache := cache }.setRequest i (q.resume (.fetchFile path) r (k r)))
  | allowed {s : State} {i : Nat} {q : Request} {clientId : JString}
      {k : Ret (.allowMetricsForClientId clientId) → M (List X509Certificate)}
      (hi : s.requests[i]? = some q) (hq : q.left = .call (.allowMetricsForClientId clientId) k)
      (hl : q.locking = false) (hin : clientId ∈ s.metrics.approvedClients) :
    Step w env s (s.setRequest i (q.resume (.allowMetricsForClientId clientId) () (k ())))
  | lock {s : State} {i : Nat} {q : Request} {clientId : JString}
      {k : Ret (.allowMetricsForClientId clientId) → M (List X509Certificate)}
      (hi : s.requests[i]? = some q) (hq : q.left = .call (.allowMetricsForClientId clientId) k)
      (hl : q.locking = false) (hin : clientId ∉ s.metrics.approvedClients) :
    Step w env s (s.setRequest i { q with locking := true })
  | locked {s : State} {i : Nat} {q : Request} {clientId : JString}
      {k : Ret (.allowMetricsForClientId clientId) → M (List X509Certificate)}
      (hi : s.requests[i]? = some q) (hq : q.left = .call (.allowMetricsForClientId clientId) k)
      (hl : q.locking = true) :
    Step w env s ({ s with metrics := s.metrics.allowLocked clientId }.setRequest i
      (q.resume (.allowMetricsForClientId clientId) () (k ())))
  | counted {s : State} {i : Nat} {q : Request} {status : ProcessingStatus}
      {k : Ret (.incrementProcessingCounter status) → M (List X509Certificate)}
      (hi : s.requests[i]? = some q)
      (hq : q.left = .call (.incrementProcessingCounter status) k) :
    Step w env s ({ s with metrics := s.metrics.incrementProcessingCounter status }.setRequest i
      (q.resume (.incrementProcessingCounter status) () (k ())))
  | issued {s : State} {i : Nat} {q : Request} {clientId : JString}
      {k : Ret (.incrementCertificateIssuanceCounter clientId) → M (List X509Certificate)}
      (hi : s.requests[i]? = some q)
      (hq : q.left = .call (.incrementCertificateIssuanceCounter clientId) k) :
    Step w env s
      ({ s with metrics := s.metrics.incrementCertificateIssuanceCounter clientId }.setRequest i
        (q.resume (.incrementCertificateIssuanceCounter clientId) () (k ())))
  | answered {s : State} {i : Nat} {q : Request} {o : Op} {k : Ret o → M (List X509Certificate)}
      (r : Ret o) (hi : s.requests[i]? = some q) (hq : q.left = .call o k) (ho : Outer o) :
    Step w env s (s.setRequest i (q.resume o r (k r)))

/-- The runs of the server. -/
def Runs (w : Outside) (env : Env) : State → State → Prop := Relation.ReflTransGen (Step w env)

/-! ## What the requests were given -/

/-- What the bucket had under the path at some moment: less than the lifetime of an entry, and the
time of a load, before the request arrived, or later. -/
def Recent (w : Outside) (m : Nat) (slowest : Int) (arrived : Nat) (path : JString)
    (file : Option Bytes) : Prop :=
  ∃ read, read ≤ m ∧ file = w.objects read path ∧
    w.millis arrived < w.millis read + CachedFileFetcher.cacheDuration + slowest

/-- The request is on its way, with what files it has been given. -/
structure Request.Inv (w : Outside) (env : Env) (m : Nat) (slowest : Int) (q : Request) : Prop where
  ran : (TransparentCaService.issueCertificate env q.request q.caller).Ran q.log q.left
  arrived_le : q.arrived ≤ m
  recent : ∀ path file, ⟨.fetchFile path, .ok file⟩ ∈ q.log → Recent w m slowest q.arrived path file

structure State.Inv (w : Outside) (env : Env) (s : State) : Prop where
  cache : LoadingCache.Sound w.source s.moment s.cache
  requests : ∀ q ∈ s.requests, q.Inv w env s.moment s.cache.slowest

section Inv

variable {w : Outside} {env : Env} {s s' : State} {q : Request} {m n : Nat} {slowest slowest' : Int}

theorem State.Inv.start : State.Inv w env {} :=
  ⟨LoadingCache.sound_empty 0, List.forall_mem_nil _⟩

theorem Recent.mono {arrived : Nat} {path : JString} {file : Option Bytes}
    (h : Recent w m slowest arrived path file) (hm : m ≤ n) (hs : slowest ≤ slowest') :
    Recent w n slowest' arrived path file := by
  obtain ⟨read, hread, hfile, harrived⟩ := h
  exact ⟨read, Nat.le_trans hread hm, hfile, by omega⟩

theorem Request.Inv.mono (h : q.Inv w env m slowest) (hm : m ≤ n) (hs : slowest ≤ slowest') :
    q.Inv w env n slowest' :=
  ⟨h.ran, Nat.le_trans h.arrived_le hm, fun path file hf => (h.recent path file hf).mono hm hs⟩

theorem Request.Inv.resume (h : q.Inv w env m slowest) {o : Op} {k : Ret o → M (List X509Certificate)}
    {r : Ret o} (hq : q.left = .call o k)
    (hr : ∀ path file, (⟨o, r⟩ : Event Op Ret) = ⟨.fetchFile path, .ok file⟩ →
      Recent w m slowest q.arrived path file) : (q.resume o r (k r)).Inv w env m slowest where
  ran := (hq ▸ h.ran).call r
  arrived_le := h.arrived_le
  recent path file hf := by
    rcases List.mem_append.mp hf with hf | hf
    · exact h.recent path file hf
    · exact hr path file (List.mem_singleton.mp hf).symm

/-- One request changes. -/
theorem State.Inv.setRequest (h : s.Inv w env) {i : Nat}
    (hq : q.Inv w env s.moment s.cache.slowest) : (s.setRequest i q).Inv w env where
  cache := h.cache
  requests q' hq' := by
    rcases List.mem_or_eq_of_mem_set hq' with hq' | rfl
    · exact h.requests q' hq'
    · exact hq

/-- The cache changes. -/
theorem State.Inv.withCache (h : s.Inv w env) {i : Nat} {path : JString}
    {r : Option (Except Thrown (Option Bytes))}
    {cache : LoadingCache.Cache Nat JString (Option Bytes)}
    (hc : LoadingCache.Step w.source i path s.moment s.cache r cache) :
    State.Inv w env { s with cache := cache } :=
  ⟨hc.sound h.cache, fun q hq => (h.requests q hq).mono (Nat.le_refl _) hc.slowest_le⟩

theorem State.Inv.withMetrics (h : s.Inv w env) (metrics : SystemMetrics) :
    State.Inv w env { s with metrics := metrics } := ⟨h.cache, h.requests⟩

theorem State.Inv.mem (h : s.Inv w env) {i : Nat} (hi : s.requests[i]? = some q) :
    q.Inv w env s.moment s.cache.slowest :=
  h.requests q (List.mem_of_getElem? hi)

theorem Step.inv (hs : Step w env s s') (h : s.Inv w env) : s'.Inv w env := by
  cases hs with
  | pass hm => exact ⟨h.cache.later hm, fun q hq => (h.requests q hq).mono hm (Int.le_refl _)⟩
  | arrive request caller =>
    refine ⟨h.cache, fun q hq => ?_⟩
    rcases List.mem_append.mp hq with hq | hq
    · exact h.requests q hq
    · obtain rfl := List.mem_singleton.mp hq
      exact ⟨.refl, Nat.le_refl _, fun path file hf => by cases hf⟩
  | load hi hq hc => exact h.withCache hc
  | @fetched i q path k r cache hi hq hc =>
    refine (h.withCache hc).setRequest ?_
    have hinv := (h.mem hi).mono (Nat.le_refl _) hc.slowest_le
    refine hinv.resume hq fun path' file hev => ?_
    cases hev
    -- the answer is fresh when it is given, and the request was there before
    obtain ⟨read, hread, hfile, hfresh⟩ := hc.ok_fresh h.cache
    have harrived : w.millis q.arrived ≤ w.millis s.moment := w.millis_mono hinv.arrived_le
    exact ⟨read, hread, hfile, Int.lt_of_le_of_lt harrived hfresh⟩
  | allowed hi hq hl hin =>
    exact h.setRequest ((h.mem hi).resume hq fun path file hev => by cases hev)
  | lock hi hq hl hin =>
    exact h.setRequest ⟨(h.mem hi).ran, (h.mem hi).arrived_le, (h.mem hi).recent⟩
  | locked hi hq hl =>
    exact (h.withMetrics _).setRequest ((h.mem hi).resume hq fun path file hev => by cases hev)
  | counted hi hq =>
    exact (h.withMetrics _).setRequest ((h.mem hi).resume hq fun path file hev => by cases hev)
  | issued hi hq =>
    exact (h.withMetrics _).setRequest ((h.mem hi).resume hq fun path file hev => by cases hev)
  | answered r hi hq ho =>
    refine h.setRequest ((h.mem hi).resume hq fun path file hev => ?_)
    cases hev
    exact ho.elim

theorem Runs.inv (hr : Runs w env s s') (h : s.Inv w env) : s'.Inv w env := by
  induction hr with
  | refl => exact h
  | tail _ hs ih => exact hs.inv ih

end Inv

end TcaServer

end Issuance
end TrustedCa
