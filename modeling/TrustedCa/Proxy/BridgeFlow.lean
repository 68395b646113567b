import TrustedCa.Proxy.BridgeStreams
import TrustedCa.Spec.Except

/-!
# The flow through the bridge: flags, half-closes and back-pressure

While a bridge forwards, each direction keeps an invariant (`Flow`): the flags say which operations
are outstanding, a write is outstanding only on data, no read is outstanding on a source that has
ended, the sink is shut down exactly when the source has ended and the buffer is empty, and a sink
stops being writable only then or by a write error.

* `Flow.readStarted`, `Flow.writeStarted`: what `ForwardTraffic` does to a direction. After it,
  nothing that can be started is left (`Armed`).
* `Flow.committed`, `Flow.drained`: what the handlers of a read and a write do before.
* Before the forwarding a bridge has no flag set and nothing shut down (`Handshaking`). `Forwarded`
  are the states after `ForwardTraffic` has run for the first time.
-/

namespace TrustedCa
namespace Proxy
namespace Bridge

open Buffer (BasicBuffer Chan Fault Fifo Heap Pair SysBuf)
open Socks5 (Ctl)
open Spec

/-! ## One direction -/

/-- A direction of the forwarding. `ended`: the sink has been shut down for sending. `broken`: a write
to the sink has failed. -/
structure Flow (p : Pipe) (readable writable : Bool) (ended broken : Prop) : Prop where
  reading : p.reading = p.readOp.isSome
  writing : p.writing = p.writeOp.isSome
  nonempty : p.writeOp.isSome = true → 0 < p.buff.dataSize
  unread : readable = false → p.readOp = none
  flushed : ended ↔ readable = false ∧ p.buff.dataSize = 0
  cut : writable = false → broken ∨ ended

/-- What can be started on a direction has been started. -/
structure Armed (p : Pipe) (readable writable : Bool) : Prop where
  write : 0 < p.buff.dataSize → writable = true → p.writeOp.isSome = true
  read : readable = true → writable = true → p.readOp.isSome = true ∨ p.writeOp.isSome = true

section Flow

variable {p q : Pipe} {readable writable : Bool} {ended broken ended' broken' : Prop}

theorem Flow.congr (hf : Flow p readable writable ended broken) (he : ended' ↔ ended)
    (hb : broken' ↔ broken) : Flow p readable writable ended' broken' := by
  rwa [propext he, propext hb]

theorem Flow.readStarted (hf : Flow p readable writable ended broken)
    (hs : ReadStarted p q readable writable) :
    Flow q readable writable ended broken ∧ q.writeOp = p.writeOp ∧
      q.buff.dataSize = p.buff.dataSize ∧
      (readable = true → writable = true → p.buff.dataSize < kMaxBufferSize →
        q.readOp.isSome = true) := by
  unfold ReadStarted at hs
  split at hs
  · next hcond =>
    obtain ⟨b, bufs, hsize, rfl⟩ := hs
    simp only [Bool.and_eq_true] at hcond
    refine ⟨⟨rfl, hf.writing, ?_, ?_, ?_, hf.cut⟩, rfl, hsize, fun _ _ _ => rfl⟩
    · rw [hsize]
      exact hf.nonempty
    · intro hfalse
      rw [hcond.1.1.2] at hfalse
      cases hfalse
    · rw [hsize]
      exact hf.flushed
  · next hcond =>
    subst hs
    refine ⟨hf, rfl, rfl, fun hr hw hlt => ?_⟩
    rw [Option.isSome_iff_ne_none]
    simpa [hr, hw, hlt, hf.reading] using hcond

theorem Flow.writeStarted (hf : Flow p readable writable ended broken)
    (hs : WriteStarted p q writable) :
    Flow q readable writable ended broken ∧ q.readOp = p.readOp ∧
      q.buff.dataSize = p.buff.dataSize ∧
      (0 < p.buff.dataSize → writable = true → q.writeOp.isSome = true) := by
  unfold WriteStarted at hs
  split at hs
  · next hcond =>
    obtain ⟨b, bufs, hsize, rfl⟩ := hs
    simp only [Bool.and_eq_true, decide_eq_true_eq] at hcond
    refine ⟨⟨hf.reading, rfl, ?_, hf.unread, ?_, hf.cut⟩, rfl, hsize, fun _ _ => rfl⟩
    · intro _
      rw [hsize]
      exact hcond.2
    · rw [hsize]
      exact hf.flushed
  · next hcond =>
    subst hs
    refine ⟨hf, rfl, rfl, fun hpos hw => ?_⟩
    rw [Option.isSome_iff_ne_none]
    simpa [hw, hpos, hf.writing] using hcond

/-- With reads up to the limit and writes of all data, nothing is left to start. -/
theorem armed_of_started (hwrite : 0 < q.buff.dataSize → writable = true → q.writeOp.isSome = true)
    (hread : readable = true → writable = true → q.buff.dataSize < kMaxBufferSize →
      q.readOp.isSome = true) : Armed q readable writable := by
  refine ⟨hwrite, fun hr hw => ?_⟩
  by_cases hlt : q.buff.dataSize < kMaxBufferSize
  · exact .inl (hread hr hw hlt)
  · refine .inr (hwrite ?_ hw)
    have : 0 < kMaxBufferSize := by decide
    omega

/-- The handler of a read, before `ForwardTraffic`. -/
theorem Flow.committed {op : ReadOp} {bytes : List Byte} (failed : Bool)
    (hf : Flow p readable writable ended broken) (hop : p.readOp = some op)
    (hq : q = { p with buff := q.buff, readOp := none, received := p.received ++ bytes })
    (hsize : p.buff.dataSize ≤ q.buff.dataSize) :
    Flow { q with reading := false } (readable && !failed) writable
      (ended ∨ (failed = true ∧ q.buff.dataSize = 0)) broken := by
  have hreadable : readable = true := by
    by_contra hne
    rw [hf.unread (Bool.eq_false_of_not_eq_true hne)] at hop
    cases hop
  have hnot : ¬ ended := by
    intro he
    rw [(hf.flushed.mp he).1] at hreadable
    cases hreadable
  have hread : q.readOp = none := by rw [hq]
  have hwriting : q.writing = p.writing := by rw [hq]
  have hwrite : q.writeOp = p.writeOp := by rw [hq]
  refine ⟨?_, ?_, ?_, fun _ => hread, ?_, fun hw => (hf.cut hw).imp_right .inl⟩
  · rw [hread]
    rfl
  · rw [hwriting, hwrite]
    exact hf.writing
  · rw [hwrite]
    exact fun h => Nat.lt_of_lt_of_le (hf.nonempty h) hsize
  · simp [hreadable, hnot]

/-- The handler of a write, before `ForwardTraffic`. -/
theorem Flow.drained {op : WriteOp} {bytes : List Byte} (failed : Bool)
    (hf : Flow p readable writable ended broken) (hop : p.writeOp = some op)
    (hq : q = { p with
      buff := q.buff, writing := false, writeOp := none, sent := p.sent ++ bytes }) :
    Flow q readable (writable && !failed && (readable || q.buff.dataSize ≠ 0))
      (ended ∨ (readable = false ∧ q.buff.dataSize = 0)) (broken ∨ failed = true) := by
  have hnot : ¬ ended := by
    intro he
    have hpos := hf.nonempty (by rw [hop]; rfl)
    rw [(hf.flushed.mp he).2] at hpos
    exact absurd hpos (Nat.lt_irrefl 0)
  have hwriting : q.writing = false := by rw [hq]
  have hwrite : q.writeOp = none := by rw [hq]
  have hreading : q.reading = p.reading := by rw [hq]
  have hread : q.readOp = p.readOp := by rw [hq]
  refine ⟨?_, ?_, ?_, ?_, by simp [hnot], ?_⟩
  · rw [hreading, hread]
    exact hf.reading
  · rw [hwriting, hwrite]
    rfl
  · rw [hwrite]
    intro h
    cases h
  · rw [hread]
    exact hf.unread
  · intro hfalse
    simp only [Bool.and_eq_false_iff, Bool.not_eq_false', Bool.or_eq_false_iff,
      decide_eq_false_iff_not, not_not] at hfalse
    rcases hfalse with (hw | hfailed) | hdone
    · exact (hf.cut hw).imp .inl .inl
    · exact .inl (.inr hfailed)
    · exact .inr (.inr hdone)

/-- The kernel serves a read. -/
theorem Flow.recv {h h' : Heap} {bytes : List Byte} {ec : ErrorCode}
    (hf : Flow p readable writable ended broken) (hrecv : p.recv h bytes ec = some (h', q)) :
    Flow q readable writable ended broken ∧
      (Armed p readable writable → Armed q readable writable) := by
  obtain ⟨handler, buffers, hop, -, -, rfl⟩ := Pipe.recv_eq_some hrecv
  refine ⟨⟨?_, hf.writing, hf.nonempty, ?_, hf.flushed, hf.cut⟩, fun ha => ⟨ha.write, ?_⟩⟩
  · rw [hf.reading, hop]
    rfl
  · intro hr
    rw [hf.unread hr] at hop
    cases hop
  · exact fun _ _ => .inl rfl

/-- The kernel serves a write. -/
theorem Flow.send {h : Heap} {n : Nat} {ec : ErrorCode} (hf : Flow p readable writable ended broken)
    (hsend : p.send h n ec = some q) :
    Flow q readable writable ended broken ∧
      (Armed p readable writable → Armed q readable writable) := by
  obtain ⟨buffers, hop, -, rfl⟩ := Pipe.send_eq_some hsend
  refine ⟨⟨hf.reading, ?_, ?_, hf.unread, hf.flushed, hf.cut⟩, fun ha => ⟨?_, ?_⟩⟩
  · rw [hf.writing, hop]
    rfl
  · intro _
    exact hf.nonempty (by rw [hop]; rfl)
  · exact fun _ _ => rfl
  · exact fun _ _ => .inr rfl

end Flow

/-! ## The bridge -/

/-- Both directions keep their invariant, and the handshake waits for no connection. -/
structure Flows (s : ProxyBridge) : Prop where
  up : Flow s.upstream s.clientReadable s.destWritable (.destSend ∈ s.shutdowns)
    (.clientReceive ∈ s.shutdowns)
  down : Flow s.downstream s.destReadable s.clientWritable (.clientSend ∈ s.shutdowns)
    (.destReceive ∈ s.shutdowns)
  settled : ¬ (s.socks5State.state = .kWaitConnect ∨ s.socks5State.state = .kWaitAccept)

/-- The bridge forwards. -/
structure Flowing (s : ProxyBridge) : Prop extends Flows s where
  forwarding : Forwarding s
  upArmed : Armed s.upstream s.clientReadable s.destWritable
  downArmed : Armed s.downstream s.destReadable s.clientWritable

/-- What an event of the forwarding keeps: a shutdown is for ever, and the handshake calls nothing
more. -/
structure Onward (s s' : ProxyBridge) : Prop where
  shutdowns : s.shutdowns <+: s'.shutdowns
  calls : s'.socks5State.calls = s.socks5State.calls

theorem Onward.refl (s : ProxyBridge) : Onward s s := ⟨List.prefix_rfl, rfl⟩

theorem Onward.trans {s₁ s₂ s₃ : ProxyBridge} (h₁₂ : Onward s₁ s₂) (h₂₃ : Onward s₂ s₃) :
    Onward s₁ s₃ :=
  ⟨h₁₂.shutdowns.trans h₂₃.shutdowns, h₂₃.calls.trans h₁₂.calls⟩

section Handlers

variable {s s₀ : ProxyBridge}

/-- `ForwardTraffic` leaves nothing to start. -/
theorem forwardTraffic_flowing (honward : Onward s₀ s) (hf : Forwarding s) (hflows : Flows s) :
    ∃ s', forwardTraffic s = .ok s' ∧ Flowing s' ∧ Onward s₀ s' := by
  obtain ⟨s', heq, hf', h, up₁, up, down₁, down, rfl, hur, huw, hdw, hdr⟩ := forwardTraffic_rearmed hf
  obtain ⟨hup₁, -, husize₁, hread⟩ := hflows.up.readStarted hur
  obtain ⟨hup, hreadOp, husize, hwrite⟩ := hup₁.writeStarted huw
  obtain ⟨hdown₁, -, hdsize₁, hwrite'⟩ := hflows.down.writeStarted hdw
  obtain ⟨hdown, hwriteOp, hdsize, hread'⟩ := hdown₁.readStarted hdr
  refine ⟨_, heq, ⟨⟨hup, hdown, hflows.settled⟩, hf', armed_of_started ?_ ?_, armed_of_started ?_ ?_⟩,
    honward.shutdowns, honward.calls⟩
  · rw [husize]
    exact hwrite
  · rw [husize, husize₁, hreadOp]
    exact hread
  · rw [hdsize, hdsize₁, hwriteOp]
    exact hwrite'
  · rw [hdsize]
    exact hread'

/-- What has been received and is neither consumed nor sent is in the buffer. -/
theorem PipeInv.length_received {h : Heap} {p : Pipe} {d : Chan} {f g : Fifo} {pre : List Byte}
    (hi : PipeInv p pre f) (hp : Pair blockSize h p.chan d f g) :
    p.received.length = pre.length + (p.sent.length + p.buff.dataSize) := by
  have hsize : p.buff.dataSize = f.queue.length := hp.size
  rw [hi.stream, hsize, List.length_append, List.length_append]

/-- A read adds to the buffer. -/
theorem dataSize_le_of_received {h h' : Heap} {p p' : Pipe} {d d' : Chan} {f f' g g' : Fifo}
    {pre bytes : List Byte} (hi : PipeInv p pre f) (hp : Pair blockSize h p.chan d f g)
    (hi' : PipeInv p' pre f') (hp' : Pair blockSize h' p'.chan d' f' g')
    (hreceived : p'.received = p.received ++ bytes) (hsent : p'.sent = p.sent) :
    p.buff.dataSize ≤ p'.buff.dataSize := by
  have h₁ := hi.length_received hp
  have h₂ := hi'.length_received hp'
  rw [hreceived, hsent, List.length_append] at h₂
  omega

theorem clientReadHandler_flowing {op : ReadOp} {bytes : List Byte} {ec : ErrorCode}
    (hflow : Flowing s) (hop : s.upstream.readOp = some op) (hgot : op.got = some (bytes, ec)) :
    ∃ s', clientReadHandler s bytes ec = .ok s' ∧ Flowing s' ∧ Onward s s' := by
  obtain ⟨f, g, hc, hn⟩ := hflow.forwarding
  obtain ⟨h', p', f', heq, hp', hp, hi⟩ := commitRead_spec hc.pair hc.up hop hgot
  have hsize : s.upstream.buff.dataSize ≤ p'.buff.dataSize :=
    dataSize_le_of_received hc.up hc.pair (hi p'.reading) hp (by rw [hp']) (by rw [hp'])
  rw [clientReadHandler, heq]
  refine forwardTraffic_flowing ⟨List.prefix_append .., rfl⟩
    ⟨_, g, ⟨hp, hi false, hc.down, hc.wf⟩, ?_, hn.2⟩
    ⟨(hflow.up.committed ec.failed hop hp' hsize).congr ?_ ?_, hflow.down.congr ?_ ?_,
      hflow.settled⟩
  · intro op hop'
    rw [hp'] at hop'
    cases hop'
  all_goals simp

theorem destReadHandler_flowing {op : ReadOp} {bytes : List Byte} {ec : ErrorCode}
    (hflow : Flowing s) (hop : s.downstream.readOp = some op) (hgot : op.got = some (bytes, ec)) :
    ∃ s', destReadHandler s bytes ec = .ok s' ∧ Flowing s' ∧ Onward s s' := by
  obtain ⟨f, g, hc, hn⟩ := hflow.forwarding
  obtain ⟨h', p', f', heq, hp', hp, hi⟩ := commitRead_spec hc.pair.symm hc.down hop hgot
  have hsize : s.downstream.buff.dataSize ≤ p'.buff.dataSize :=
    dataSize_le_of_received hc.down hc.pair.symm (hi p'.reading) hp (by rw [hp']) (by rw [hp'])
  rw [destReadHandler, heq]
  refine forwardTraffic_flowing ⟨List.prefix_append .., rfl⟩
    ⟨f, _, ⟨hp.symm, hc.up, hi false, hc.wf⟩, hn.1, ?_⟩
    ⟨hflow.up.congr ?_ ?_, (hflow.down.committed ec.failed hop hp' hsize).congr ?_ ?_,
      hflow.settled⟩
  · intro op hop'
    rw [hp'] at hop'
    cases hop'
  all_goals simp

theorem clientWriteHandler_flowing {op : WriteOp} {bytes : List Byte} {ec : ErrorCode}
    (hflow : Flowing s) (hop : s.downstream.writeOp = some op)
    (htaken : op.taken = some (bytes, ec)) :
    ∃ s', clientWriteHandler s bytes ec = .ok s' ∧ Flowing s' ∧ Onward s s' := by
  obtain ⟨f, g, hc, hn⟩ := hflow.forwarding
  obtain ⟨h', p', f', heq, hp', hp, hi⟩ := drainWritten_spec hc.pair.symm hc.down hop htaken
  have hread : p'.readOp = s.downstream.readOp := by rw [hp']
  rw [clientWriteHandler, heq]
  refine forwardTraffic_flowing ⟨List.prefix_append .., rfl⟩
    ⟨f, _, ⟨hp.symm, hc.up, hi, hc.wf⟩, hn.1, hread ▸ hn.2⟩
    ⟨hflow.up.congr ?_ ?_, (hflow.down.drained ec.failed hop hp').congr ?_ ?_, hflow.settled⟩
  all_goals simp

theorem destWriteHandler_flowing {op : WriteOp} {bytes : List Byte} {ec : ErrorCode}
    (hflow : Flowing s) (hop : s.upstream.writeOp = some op)
    (htaken : op.taken = some (bytes, ec)) :
    ∃ s', destWriteHandler s bytes ec = .ok s' ∧ Flowing s' ∧ Onward s s' := by
  obtain ⟨f, g, hc, hn⟩ := hflow.forwarding
  obtain ⟨h', p', f', heq, hp', hp, hi⟩ := drainWritten_spec hc.pair hc.up hop htaken
  have hread : p'.readOp = s.upstream.readOp := by rw [hp']
  rw [destWriteHandler, heq]
  refine forwardTraffic_flowing ⟨List.prefix_append .., rfl⟩
    ⟨_, g, ⟨hp, hi, hc.down, hc.wf⟩, hread ▸ hn.1, hn.2⟩
    ⟨(hflow.up.drained ec.failed hop hp').congr ?_ ?_, hflow.down.congr ?_ ?_, hflow.settled⟩
  all_goals simp

end Handlers

/-! ## Before the forwarding -/

/-- Nothing but a read of the handshake is outstanding, and no flag has changed. -/
structure Handshaking (s : ProxyBridge) : Prop where
  clientReadable : s.clientReadable = true
  clientWritable : s.clientWritable = true
  destReadable : s.destReadable = true
  destWritable : s.destWritable = true
  shutdowns : s.shutdowns = []
  upFlags : s.upstream.reading = false ∧ s.upstream.writing = false
  downFlags : s.downstream.reading = false ∧ s.downstream.writing = false
  handler : ∀ op ∈ s.upstream.readOp, op.handler = .socks5Handshake
  upWrite : s.upstream.writeOp = none
  downRead : s.downstream.readOp = none
  downWrite : s.downstream.writeOp = none

section Handshaking

variable {s s' : ProxyBridge} {env : Env}

theorem handshaking_new (h : Heap) (i j : Nat) : Handshaking (.new h i j) :=
  ⟨rfl, rfl, rfl, rfl, rfl, ⟨rfl, rfl⟩, ⟨rfl, rfl⟩, nofun, rfl, rfl, rfl⟩

/-- A direction on which nothing has happened yet. -/
theorem flow_of_idle {p : Pipe} {ended broken : Prop} (hflags : p.reading = false ∧ p.writing = false)
    (hread : p.readOp = none) (hwrite : p.writeOp = none) (hended : ¬ ended) :
    Flow p true true ended broken := by
  refine ⟨?_, ?_, ?_, nofun, ?_, nofun⟩
  · rw [hflags.1, hread]
    rfl
  · rw [hflags.2, hwrite]
    rfl
  · rw [hwrite]
    intro h
    cases h
  · simp [hended]

/-- The forwarding starts on a bridge without a read of the handshake. -/
theorem Handshaking.flows (hh : Handshaking s) (hf : Forwarding s)
    (hsettled : ¬ (s.socks5State.state = .kWaitConnect ∨ s.socks5State.state = .kWaitAccept)) :
    Flows s := by
  obtain ⟨f, g, hc, hn⟩ := hf
  have hread : s.upstream.readOp = none := hc.up.readOp_none hh.upFlags.1 hn.1
  refine ⟨?_, ?_, hsettled⟩
  · rw [hh.clientReadable, hh.destWritable]
    exact flow_of_idle hh.upFlags hread hh.upWrite (by simp [hh.shutdowns])
  · rw [hh.destReadable, hh.clientWritable]
    exact flow_of_idle hh.downFlags hh.downRead hh.downWrite (by simp [hh.shutdowns])

/-- Whatever happens to the upstream buffer, its reads and the handshake. -/
theorem Handshaking.update (hh : Handshaking s) {h : Heap} {b : BasicBuffer} {readOp : Option ReadOp}
    {received consumed : List Byte} {ctl : Ctl} {n m : Nat}
    (hread : ∀ op ∈ readOp, op.handler = .socks5Handshake) :
    Handshaking { s with
      heap := h
      upstream := { s.upstream with buff := b, readOp := readOp, received := received }
      consumed := consumed
      socks5State := ctl
      connected := n
      accepted := m } :=
  ⟨hh.clientReadable, hh.clientWritable, hh.destReadable, hh.destWritable, hh.shutdowns, hh.upFlags,
    hh.downFlags, hread, hh.upWrite, hh.downRead, hh.downWrite⟩

theorem Handshaking.performSocks5Handshake (hh : Handshaking s)
    (heq : performSocks5Handshake s = .ok s') : Handshaking s' := by
  obtain ⟨⟨h, p⟩, hstart, hs'⟩ := bind_eq_ok.mp heq
  obtain ⟨⟨bufs, h₁, b⟩, -, hp⟩ := bind_eq_ok.mp hstart
  cases hp
  cases hs'
  refine hh.update fun op hop => ?_
  cases hop
  rfl

theorem Handshaking.socks5HandshakeHandler {bytes : List Byte} {ec : ErrorCode} (hh : Handshaking s)
    (heq : socks5HandshakeHandler s env bytes ec = .ok s') : Handshaking s' := by
  obtain ⟨⟨h, p⟩, hcommit, heq⟩ := bind_eq_ok.mp heq
  obtain ⟨⟨h₁, b⟩, -, hp⟩ := bind_eq_ok.mp hcommit
  cases hp
  dsimp only at heq
  split at heq
  · cases heq
    exact hh.update nofun
  · obtain ⟨result, -, heq⟩ := bind_eq_ok.mp heq
    cases result with
    | none => cases heq
    | some r =>
      dsimp only at heq
      split at heq
      · refine Handshaking.performSocks5Handshake (hh.update ?_) heq
        exact nofun
      · cases heq
        exact hh.update nofun

end Handshaking

/-! ## Runs -/

/-- The handler of the event calls `ForwardTraffic`. -/
def forwards (s : ProxyBridge) (env : Env) : Event → Bool
  | .clientRecv .. | .clientSend .. | .destRecv .. | .destSend .. => false
  | .clientRead => s.upstream.readOp.any fun op => op.handler = .forward
  | .clientWrite | .destRead | .destWrite => true
  | .connect ec | .accept ec =>
    !ec.failed && (Socks5.connectionSucceed env.callbacks s.socks5State).1

/-- The states of a bridge after `ForwardTraffic` has run. -/
inductive Forwarded (env : Env) : ProxyBridge → Prop
  | start {h : Heap} {i j : Nat} {s : ProxyBridge} : h.Fresh i j →
    forwardTraffic (.new h i j) = .ok s → Forwarded env s
  | first {s s' : ProxyBridge} {e : Event} : Reachable env s → step s env e = some (.ok s') →
    forwards s env e = true → Forwarded env s'
  | step {s s' : ProxyBridge} {e : Event} : Forwarded env s → step s env e = some (.ok s') →
    Forwarded env s'

section Runs

variable {s s' : ProxyBridge} {env : Env}

/-- Whatever happens to the handshake. -/
theorem Forwarding.update (hf : Forwarding s) {ctl : Ctl} {n m : Nat} (hwf : ctl.Wf) :
    Forwarding { s with socks5State := ctl, connected := n, accepted := m } := by
  obtain ⟨f, g, hc, hn⟩ := hf
  exact ⟨f, g, ⟨hc.pair, hc.up, hc.down, hwf⟩, hn⟩

theorem Flowing.update (hflow : Flowing s) {ctl : Ctl} {n m : Nat} (hwf : ctl.Wf)
    (hsettled : ¬ (ctl.state = .kWaitConnect ∨ ctl.state = .kWaitAccept)) :
    Flowing { s with socks5State := ctl, connected := n, accepted := m } :=
  ⟨⟨hflow.up, hflow.down, hsettled⟩, hflow.forwarding.update hwf, hflow.upArmed, hflow.downArmed⟩

theorem Ctl.fail_settled (c : Ctl) :
    ¬ (c.fail.state = .kWaitConnect ∨ c.fail.state = .kWaitAccept) := by
  simp [Ctl.fail]

/-- A connection that the bridge has not waited for. -/
theorem Flowing.established (hflow : Flowing s) (env : Env) :
    ∃ s', established s env = .ok s' ∧ Flowing s' ∧ Onward s s' := by
  rw [Bridge.established, Socks5.connectionSucceed_other hflow.settled]
  exact ⟨_, rfl, hflow.update trivial (Ctl.fail_settled _), List.prefix_rfl, rfl⟩

/-- A connection, while the handshake may be waiting for one. -/
theorem Handshaking.established (hh : Handshaking s) (hi : Inv s)
    (heq : established s env = .ok s') :
    Flowing s' ∨
      Handshaking s' ∧ (Socks5.connectionSucceed env.callbacks s.socks5State).1 = false := by
  unfold Bridge.established at heq
  by_cases hwait : s.socks5State.state = .kWaitConnect ∨ s.socks5State.state = .kWaitAccept
  · rw [Socks5.connectionSucceed_waiting hwait] at heq
    have hf : Forwarding s := by
      rcases hi with hf | ⟨f, g, -, hr⟩
      · exact hf
      · exact absurd hwait (not_or.mpr hr.state)
    generalize hctl : { (Socks5.reply env.callbacks s.socks5State
      (s.socks5State.state = .kWaitAccept)).2 with state := Socks5.HandshakeState.kSuccess } = ctl
      at heq
    have hwf : ctl.Wf := by
      rw [← hctl]
      trivial
    have hsettled : ¬ (ctl.state = .kWaitConnect ∨ ctl.state = .kWaitAccept) := by
      rw [← hctl]
      simp
    have hf₁ : Forwarding { s with socks5State := ctl } := hf.update hwf
    obtain ⟨s₁, heq₁, hflow, -⟩ := forwardTraffic_flowing (.refl _) hf₁
      (Handshaking.flows (hh.update hh.handler) hf₁ hsettled)
    have hforward : forwardTraffic { s with socks5State := ctl } = .ok s' := heq
    rw [heq₁] at hforward
    cases hforward
    exact .inl hflow
  · rw [Socks5.connectionSucceed_other hwait] at heq ⊢
    cases heq
    exact .inr ⟨hh.update hh.handler, rfl⟩

/-- One event while the bridge forwards. -/
theorem Flowing.step {e : Event} {r : Except Fault ProxyBridge} (hflow : Flowing s)
    (hs : step s env e = some r) : ∃ s', r = .ok s' ∧ Flowing s' ∧ Onward s s' := by
  cases happens_of_step hs with
  | clientRecv heq hr =>
    obtain ⟨hup, harmed⟩ := hflow.up.recv heq
    exact ⟨_, hr, ⟨⟨hup, hflow.down, hflow.settled⟩, hflow.forwarding.clientRecv heq,
      harmed hflow.upArmed, hflow.downArmed⟩, List.prefix_rfl, rfl⟩
  | destRecv heq hr =>
    obtain ⟨hdown, harmed⟩ := hflow.down.recv heq
    exact ⟨_, hr, ⟨⟨hflow.up, hdown, hflow.settled⟩, hflow.forwarding.destRecv heq, hflow.upArmed,
      harmed hflow.downArmed⟩, List.prefix_rfl, rfl⟩
  | clientSend heq hr =>
    obtain ⟨hdown, harmed⟩ := hflow.down.send heq
    exact ⟨_, hr, ⟨⟨hflow.up, hdown, hflow.settled⟩, hflow.forwarding.clientSend heq,
      hflow.upArmed, harmed hflow.downArmed⟩, List.prefix_rfl, rfl⟩
  | destSend heq hr =>
    obtain ⟨hup, harmed⟩ := hflow.up.send heq
    exact ⟨_, hr, ⟨⟨hup, hflow.down, hflow.settled⟩, hflow.forwarding.destSend heq,
      harmed hflow.upArmed, hflow.downArmed⟩, List.prefix_rfl, rfl⟩
  | handshakeRead hop hr =>
    obtain ⟨f, g, -, hn⟩ := hflow.forwarding
    cases hn.1 _ hop
  | clientRead hop hr =>
    rw [← hr]
    exact clientReadHandler_flowing hflow hop rfl
  | destRead hop hr =>
    rw [← hr]
    exact destReadHandler_flowing hflow hop rfl
  | clientWrite hop hr =>
    rw [← hr]
    exact clientWriteHandler_flowing hflow hop rfl
  | destWrite hop hr =>
    rw [← hr]
    exact destWriteHandler_flowing hflow hop rfl
  | failed hc hfail hr =>
    obtain ⟨f, g, hcore, -⟩ := hflow.forwarding
    exact ⟨_, hr, hflow.update hcore.wf hflow.settled, List.prefix_rfl, rfl⟩
  | @established _ _ n m hc hfail hr =>
    obtain ⟨f, g, hcore, -⟩ := hflow.forwarding
    have hflow' := hflow.update (n := n) (m := m) hcore.wf hflow.settled
    obtain ⟨s', heq, hflow'', honward⟩ := hflow'.established env
    exact ⟨s', hr.symm.trans heq, hflow'', honward.shutdowns, honward.calls⟩

/-- The handler of a connect or an accept forwards when the handshake has succeeded. -/
theorem Completes.forwards_eq {e : Event} {ec : ErrorCode} {n m : Nat} (hc : Completes s e ec n m) :
    forwards s env e =
      (!ec.failed && (Socks5.connectionSucceed env.callbacks s.socks5State).1) := by
  cases hc with
  | connect hlt => rfl
  | accept hlt => rfl

/-- The kernel serves a read of the handshake. -/
theorem Handshaking.recv {bytes : List Byte} {ec : ErrorCode} {h' : Heap} {p' : Pipe}
    (hh : Handshaking s) (heq : s.upstream.recv s.heap bytes ec = some (h', p')) :
    Handshaking { s with heap := h', upstream := p' } := by
  obtain ⟨handler, buffers, hop, -, -, rfl⟩ := Pipe.recv_eq_some heq
  refine hh.update ?_
  intro op hop'
  cases hop'
  exact hh.handler ⟨handler, buffers, none⟩ hop

/-- One event before the forwarding: it starts with an event that calls `ForwardTraffic`. -/
theorem Handshaking.step {e : Event} (hh : Handshaking s) (hi : Inv s)
    (hs : step s env e = some (.ok s')) :
    Flowing s' ∨ Handshaking s' ∧ forwards s env e = false := by
  cases happens_of_step hs with
  | clientRecv heq hr =>
    cases hr
    exact .inr ⟨hh.recv heq, rfl⟩
  | destRecv heq hr =>
    rw [Pipe.recv, hh.downRead] at heq
    cases heq
  | clientSend heq hr =>
    rw [Pipe.send, hh.downWrite] at heq
    cases heq
  | destSend heq hr =>
    rw [Pipe.send, hh.upWrite] at heq
    cases heq
  | handshakeRead hop hr =>
    refine .inr ⟨hh.socks5HandshakeHandler hr, ?_⟩
    rw [forwards, hop]
    rfl
  | clientRead hop hr => cases hh.handler _ hop
  | destRead hop hr =>
    rw [hh.downRead] at hop
    cases hop
  | clientWrite hop hr =>
    rw [hh.downWrite] at hop
    cases hop
  | destWrite hop hr =>
    rw [hh.upWrite] at hop
    cases hop
  | failed hc hfail hr =>
    cases hr
    rw [hc.forwards_eq, hfail]
    exact .inr ⟨hh.update hh.handler, rfl⟩
  | @established _ _ n m hc hfail hr =>
    have hh' : Handshaking { s with connected := n, accepted := m } := hh.update hh.handler
    rw [hc.forwards_eq, hfail]
    exact hh'.established (hi.completed n m) hr

theorem forwardTraffic_new_flowing {h : Heap} {i j : Nat} (hf : h.Fresh i j) :
    ∃ s, forwardTraffic (.new h i j) = .ok s ∧ Flowing s := by
  have hforward : Forwarding (.new h i j) :=
    ⟨{}, {}, core_new hf, by simp [NoHandshakeRead, ProxyBridge.new]⟩
  obtain ⟨s, heq, hflow, -⟩ := forwardTraffic_flowing (.refl _) hforward
    ((handshaking_new h i j).flows hforward (by simp [ProxyBridge.new]))
  exact ⟨s, heq, hflow⟩

theorem Reachable.phase (hr : Reachable env s) : Flowing s ∨ Handshaking s := by
  induction hr with
  | handshake _ heq => exact .inr ((handshaking_new _ _ _).performSocks5Handshake heq)
  | forward hf heq =>
    obtain ⟨s', heq', hflow⟩ := forwardTraffic_new_flowing hf
    rw [heq] at heq'
    cases heq'
    exact .inl hflow
  | step hr hs ih =>
    rcases ih with hflow | hh
    · obtain ⟨s', heq, hflow', -⟩ := hflow.step hs
      cases heq
      exact .inl hflow'
    · exact (hh.step hr.inv hs).imp_right And.left

/-- After `ForwardTraffic` has run, the bridge forwards for ever. -/
theorem Forwarded.flowing (hr : Forwarded env s) : Flowing s := by
  induction hr with
  | start hf heq =>
    obtain ⟨s', heq', hflow⟩ := forwardTraffic_new_flowing hf
    rw [heq] at heq'
    cases heq'
    exact hflow
  | first hr hs hforwards =>
    rcases hr.phase with hflow | hh
    · obtain ⟨s', heq, hflow', -⟩ := hflow.step hs
      cases heq
      exact hflow'
    · rcases hh.step hr.inv hs with hflow' | ⟨-, hno⟩
      · exact hflow'
      · rw [hforwards] at hno
        cases hno
  | step _ hs ih =>
    obtain ⟨s', heq, hflow', -⟩ := ih.step hs
    cases heq
    exact hflow'

end Runs

end Bridge
end Proxy
end TrustedCa
