import TrustedCa.Proxy.PoolProtocol

/-!
# The bounds of the socket vendor's pool

`Start` takes the sizes of its two vectors from the backlog and then uses the slots 0 and 1 whatever
the backlog is. `bounds_iff`: the pool stays within its bounds in every run just when the backlog is
at least 2.

* `Left`: what a handler can leave. What all handlers keep is proved from it.
* `ClientSessionPool.fixed`: what no handler changes. It has the capacity of the pool, as far as it
  is more than the final size of the pool.
* `Bounded`: the pool within its bounds, in every run after `Start`.
-/

namespace TrustedCa
namespace Proxy
namespace SessionPool

open Spec (bind_eq_ok)

/-- What no handler changes: the request, the port, the final size of the pool and the capacity
beyond it. -/
def ClientSessionPool.fixed (s : ClientSessionPool) : Bytes 13 × UInt16 × Nat × Nat :=
  (s.proxyBindRequest, s.port, s.poolSize, max s.poolSize s.capacity)

section Handlers

variable {s s' : ClientSessionPool} {i : Nat}

/-- A pool below its final size has room for one more socket. -/
theorem emplaceBack_fixed (hlt : s.pool.length < s.poolSize) : s.emplaceBack.fixed = s.fixed := by
  have hmax : max s.poolSize (max s.capacity (s.pool.length + 1)) = max s.poolSize s.capacity := by
    omega
  simp only [ClientSessionPool.fixed, ClientSessionPool.emplaceBack, ClientSessionPool.pushBack, hmax]

/-- What a handler of slot `i` leaves that may start the operations `P` on its slot: the pool as it
was or stopped, the slot with a new socket, or the slot with its next operation, and with that
perhaps a new slot. -/
inductive Left (P : Pending → Prop) (s : ClientSessionPool) (i : Nat) : ClientSessionPool → Prop
  | same : Left P s i s
  | halted : Left P s i s.halt
  | restarted {sock : Nat} (acts : List Action) (n : Nat) : s.pool[i]? = some sock →
    Left P s i ({ s with log := s.log ++ acts, numberOfErrors := n }.restarted i sock)
  | begun {pending : Pending} (acts : List Action) (bufs : List MicroBuffer) : P pending →
    i < s.buffers.length →
    Left P s i ({ s with log := s.log ++ acts, buffers := bufs }.begin i pending)
  | grown {pending : Pending} : P pending → i < s.buffers.length → s.pool.length < s.poolSize →
    Left P s i (s.begin i pending).grown

theorem initiateSocket_left {P : Pending → Prop} (acts : List Action) (n : Nat)
    (heq : initiateSocket { s with log := s.log ++ acts, numberOfErrors := n } i = .ok s') :
    Left P s i s' := by
  let s₁ : ClientSessionPool := { s with log := s.log ++ acts, numberOfErrors := n }
  obtain ⟨sock, hsock, -⟩ := bind_eq_ok.mp heq
  have hpool : s₁.pool[i]? = some sock := pool_of_sock_eq_ok hsock
  have hrestarted : .ok s' = Except.ok (s₁.restarted i sock) :=
    heq.symm.trans (initiateSocket_eq hpool)
  cases hrestarted
  exact .restarted acts n hpool

/-- A slot with an error. -/
theorem fail_left {P : Pending → Prop} (heq : initiateSocket s.fail i = .ok s') : Left P s i s' := by
  refine initiateSocket_left [] (s.numberOfErrors + 1) ?_
  rw [List.append_nil]
  exact heq

theorem handleConnect_left {failed written : Bool}
    (heq : handleConnect s i failed written = .ok s') :
    Left (fun pending => ∃ sock, s.pool[i]? = some sock ∧
      pending = .read sock { resp := .first, whole := true }) s i s' := by
  obtain ⟨sock, hsock, heq⟩ := bind_eq_ok.mp heq
  split at heq
  · cases heq
    exact .same
  · split at heq
    · exact fail_left heq
    · split at heq
      · exact fail_left heq
      · obtain ⟨buf, hbuf, heq⟩ := bind_eq_ok.mp heq
        cases heq
        exact .begun [.request sock s.proxyBindRequest] s.buffers
          ⟨sock, pool_of_sock_eq_ok hsock, rfl⟩ (lt_of_buffer_eq_ok (s := s.act _) hbuf)

theorem handle1stResp_left {failed : Bool} (heq : handle1stResp s i failed = .ok s') :
    Left (fun pending => ∃ sock, s.pool[i]? = some sock ∧
      pending = .read sock { resp := .second, whole := true }) s i s' := by
  obtain ⟨sock, hsock, heq⟩ := bind_eq_ok.mp heq
  obtain ⟨buf, hbuf, heq⟩ := bind_eq_ok.mp heq
  have hpool := pool_of_sock_eq_ok hsock
  have hi := lt_of_buffer_eq_ok hbuf
  split at heq
  · cases heq
    exact .same
  · split at heq
    · exact fail_left heq
    · split at heq
      · exact fail_left heq
      · dsimp only at heq
        split at heq
        · next hgrow =>
          have hlt : i < s.pool.length := (List.getElem?_eq_some_iff.mp hpool).1
          have hlast : i + 1 = s.pool.length := by
            have hlast : i = s.pool.length - 1 := hgrow.1
            omega
          obtain ⟨next, hnext, heq⟩ := bind_eq_ok.mp heq
          have hnext' : (s.pool ++ [s.sockets])[i + 1]? = some next := pool_of_sock_eq_ok hnext
          rw [hlast, List.getElem?_concat_length] at hnext'
          rw [hlast, ← Option.some.inj hnext'] at heq
          cases heq
          exact .grown ⟨sock, hpool, rfl⟩ hi hgrow.2
        · cases heq
          have hbegun := Left.begun (s := s) (i := i) [] s.buffers
            (P := fun pending => ∃ sock, s.pool[i]? = some sock ∧
              pending = .read sock { resp := .second, whole := true }) ⟨sock, hpool, rfl⟩ hi
          rwa [List.append_nil] at hbegun

theorem handle2ndResp_left {bytesRead : Nat} {failed : Bool} {padding : Bytes 2}
    (heq : handle2ndResp s i bytesRead failed padding = .ok s') :
    Left (fun pending => pending = .wait) s i s' := by
  obtain ⟨buf, hbuf, heq⟩ := bind_eq_ok.mp heq
  split at heq
  · cases heq
    exact .same
  · split at heq
    · exact fail_left heq
    · cases heq
      have hbegun : Left (fun pending => pending = .wait) s i _ :=
        .begun [] (s.buffers.set i ((newConnResp buf).toBytes padding)) rfl
          (lt_of_buffer_eq_ok hbuf)
      rwa [List.append_nil] at hbegun

theorem handleSendFd_left {failed : Bool} {bytesSent : Int}
    (heq : handleSendFd s i failed bytesSent = .ok s') : Left (fun _ => False) s i s' := by
  obtain ⟨sock, -, heq⟩ := bind_eq_ok.mp heq
  obtain ⟨buf, -, heq⟩ := bind_eq_ok.mp heq
  split at heq
  · cases heq
    exact .same
  · split at heq
    · exact fail_left heq
    · split at heq
      · cases heq
        exact .halted
      · exact initiateSocket_left [.descriptor sock buf bytesSent] s.numberOfErrors heq

theorem Left.fixed {P : Pending → Prop} (hl : Left P s i s') : s'.fixed = s.fixed := by
  cases hl with
  | same => rfl
  | halted => rfl
  | restarted acts n hsock => rfl
  | begun acts bufs hp hi => rfl
  | grown hp hi hlt => exact emplaceBack_fixed (s := s.begin i _) hlt

/-- The operations after a handler. -/
theorem Left.ops {P : Pending → Prop} {Q : Op → Prop} (hl : Left P s i s') (hold : ∀ op ∈ s.ops, Q op)
    (hconnect : ∀ j, Q ⟨j, .connect s.sockets⟩)
    (hbegin : ∀ pending, P pending → i < s.buffers.length → Q ⟨i, pending⟩) :
    ∀ op ∈ s'.ops, Q op := by
  have hsnoc : ∀ {ops : List Op} {new : Op}, (∀ op ∈ ops, Q op) → Q new →
      ∀ op ∈ ops ++ [new], Q op := by
    intro ops new hops hnew op hop
    rcases List.mem_append.mp hop with hop | hop
    · exact hops op hop
    · rw [List.mem_singleton.mp hop]
      exact hnew
  cases hl with
  | same => exact hold
  | halted => exact hold
  | restarted acts n hsock => exact hsnoc hold (hconnect i)
  | begun acts bufs hp hi => exact hsnoc hold (hbegin _ hp hi)
  | grown hp hi hlt => exact hsnoc (hsnoc hold (hbegin _ hp hi)) (hconnect _)

theorem recv_fixed {k : Nat} {bytes : List Byte} {failed : Bool}
    (heq : recv s k bytes failed = some s') : s'.fixed = s.fixed := by
  obtain ⟨index, sock, r, buf, -, -, -, -, rfl⟩ := recv_eq_some heq
  rfl

theorem step_fixed {e : Event} (heq : step s e = some (.ok s')) : s'.fixed = s.fixed := by
  cases e with
  | connect k failed written =>
    simp only [step] at heq
    split at heq
    · exact (handleConnect_left (s := s.done k) (Option.some.inj heq)).fixed
    · cases heq
  | recv k bytes failed =>
    obtain ⟨s₁, hrecv, hok⟩ := Option.map_eq_some_iff.mp heq
    cases hok
    exact recv_fixed hrecv
  | resp k padding =>
    simp only [step] at heq
    split at heq
    · exact (handle1stResp_left (s := s.done k) (Option.some.inj heq)).fixed
    · exact (handle2ndResp_left (s := s.done k) (Option.some.inj heq)).fixed
    · cases heq
  | sendFd k failed bytesSent =>
    simp only [step] at heq
    split at heq
    · exact (handleSendFd_left (s := s.done k) (Option.some.inj heq)).fixed
    · cases heq
  | clientError =>
    cases heq
    unfold handleClientError
    split
    · rfl
    · rfl

theorem Runs.fixed (hr : Runs s s') : s'.fixed = s.fixed := by
  induction hr with
  | refl => rfl
  | step _ heq ih => exact (step_fixed heq).trans ih

end Handlers

/-! ## The bounds -/

/-- `Start` has bound a port, and it accepts the request to listen. -/
structure Accepts (env : StartEnv) (backlog : Int32) : Prop where
  bind : ∃ s, startBind env {} = (true, s)
  listenRequest : env.listenRequest = some { backlog := backlog }
  sendListenResponse : env.sendListenResponse = true
  backlog_nonneg : 0 ≤ backlog

/-- The capacity that `pool_.reserve(pool_size_)` leaves, after the `push_back` of the first
socket. -/
def ClientSessionPool.reserved (s : ClientSessionPool) : Nat := max 1 s.poolSize

/-- No index is out of range, in `Start` and in any run after it; the pool never exceeds its final
size, and its capacity never exceeds what was reserved. -/
def Bounded (env : StartEnv) : Prop :=
  ∃ s₀, start env {} = .ok (true, s₀) ∧ ∀ s, Runs s₀ s →
    (∀ e r, step s e = some r → ∃ s', r = .ok s') ∧
    s.pool.length ≤ s.poolSize ∧ s.capacity ≤ s.reserved

section Bounds

variable {env : StartEnv} {backlog : Int32}

/-- The number of slots for a backlog. -/
def slotsOf (backlog : Int32) : Nat :=
  (if kMaxConnections < backlog then kMaxConnections else backlog).toInt.toNat

/-- The pool when `Start` is about to use the slots 0 and 1. -/
def sized (port : UInt16) (resp : Bytes 12) (backlog : Int32) : ClientSessionPool :=
  { (bound port resp).act .listenResponse with
    poolSize := slotsOf backlog
    capacity := max 1 (slotsOf backlog)
    buffers := resize [] (slotsOf backlog) }

/-- `Start` on a request to listen that it accepts: it needs the buffer of slot 0. -/
theorem Accepts.start_eq (ha : Accepts env backlog) : ∃ port resp,
    start env {} = do
      let _ ← (sized port resp backlog).buffer 0
      return (true, listening (bound port resp) 0 1 backlog) := by
  obtain ⟨s, hbind⟩ := ha.bind
  obtain ⟨bindReq, resp, -, -, -, -, rfl⟩ := startBind_eq_true hbind
  have hneg : ¬ backlog < 0 := Int32.not_lt.mpr ha.backlog_nonneg
  refine ⟨bindReq.port, resp, ?_⟩
  rw [start, hbind]
  simp only [if_true, startListen, ha.listenRequest, ha.sendListenResponse, hneg]
  rfl

theorem sized_buffer (port : UInt16) (resp : Bytes 12) :
    (sized port resp backlog).buffer 0 =
      if slotsOf backlog = 0 then .error .outOfRange else .ok (arrayOf 24 []) := by
  have hbuffers : (sized port resp backlog).buffers =
      List.replicate (slotsOf backlog) (arrayOf 24 []) := by
    simp [sized, resize]
  rw [ClientSessionPool.buffer, hbuffers]
  cases slotsOf backlog with
  | zero => rfl
  | succ n => rfl

/-- A backlog below 2 is the number of slots. -/
theorem slotsOf_lt_two (h : ¬ 2 ≤ backlog) : slotsOf backlog < 2 := by
  have hlt := Int32.lt_iff_toInt_lt.mp (Int32.not_le.mp h)
  have h2 : (2 : Int32).toInt = 2 := by decide
  have hmax : ¬ kMaxConnections < backlog := by
    intro hgt
    have := Int32.lt_iff_toInt_lt.mp hgt
    have h128 : kMaxConnections.toInt = 128 := by decide
    omega
  rw [slotsOf, if_neg hmax]
  omega

theorem Bounded.of_two_le (ha : Accepts env backlog) (h : 2 ≤ backlog) : Bounded env := by
  obtain ⟨port, resp, hstart⟩ := ha.start_eq
  have hslots : 2 ≤ slotsOf backlog := two_le_poolSize h
  rw [sized_buffer, if_neg (by omega)] at hstart
  refine ⟨_, hstart, fun s hruns => ?_⟩
  have hs : Inv s := reachable_inv ha.listenRequest h ⟨_, hstart, hruns⟩
  refine ⟨fun e r heq => ?_, hs.size, ?_⟩
  · obtain ⟨s', hr, -⟩ := step_spec hs heq
    exact ⟨s', hr⟩
  · have hsize : s.poolSize = slotsOf backlog := congrArg (·.2.2.1) hruns.fixed
    have hcapacity : max s.poolSize s.capacity =
        max (slotsOf backlog) (max (max 1 (slotsOf backlog)) 2) := congrArg (·.2.2.2) hruns.fixed
    rw [ClientSessionPool.reserved]
    omega

/-- The pool of the socket vendor stays within its bounds, in every run, if and only if the backlog
is at least 2: with 0 `Start` uses a buffer that is not there, and with 1 it makes a slot too many. -/
theorem bounds_iff (ha : Accepts env backlog) : Bounded env ↔ 2 ≤ backlog := by
  refine ⟨fun ⟨s₀, hstart, hb⟩ => ?_, Bounded.of_two_le ha⟩
  by_contra hlt
  obtain ⟨port, resp, heq⟩ := ha.start_eq
  have hslots : slotsOf backlog < 2 := slotsOf_lt_two hlt
  rw [sized_buffer] at heq
  by_cases hzero : slotsOf backlog = 0
  · rw [if_pos hzero, hstart] at heq
    cases heq
  · rw [if_neg hzero, hstart] at heq
    cases heq
    have hsize : 2 ≤ slotsOf backlog := (hb _ (.refl _)).2.1
    omega

/-- A web server with the largest backlog. -/
theorem bounds_iff_webServer :
    Bounded { webServer with listenRequest := some { backlog := 0x7fffffff } } :=
  (bounds_iff ⟨⟨_, rfl⟩, rfl, rfl, by decide⟩).mpr (by decide)

/-- A backlog of 0, which `listen` allows: `Start` uses the buffer of slot 0, but there is none. -/
theorem bounds_backlogZero :
    ¬ ∀ (env : StartEnv) (backlog : Int32), Accepts env backlog → Bounded env := by
  intro h
  obtain ⟨s₀, hstart, -⟩ := h { webServer with listenRequest := some { backlog := 0 } } 0
    ⟨⟨_, rfl⟩, rfl, rfl, by decide⟩
  have hfault : start { webServer with listenRequest := some { backlog := 0 } } {} =
      .error .outOfRange := rfl
  rw [hfault] at hstart
  cases hstart

end Bounds

end SessionPool
end Proxy
end TrustedCa
