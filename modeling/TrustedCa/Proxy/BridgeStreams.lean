import TrustedCa.Proxy.Bridge
import TrustedCa.Proxy.BufferWalk
import TrustedCa.Proxy.Socks5Source
import TrustedCa.Proxy.Socks5Success

/-!
# The proxy bridge loses and invents no byte

The invariant of a bridge (`Inv`) has a part for each direction (`PipeInv`): the bytes received are
the ones consumed by the handshake, then the ones sent, then the ones in the buffer. An outstanding
read knows what the kernel put at the front of its region, an outstanding write what it took from
the front of the queue.

* One lemma for each thing that happens to a pipe: `startRead_spec`, `commitRead_spec`, ...
* `forwardTraffic_spec` and `socks5HandshakeHandler_spec` are the two drivers.
* While a read of the handshake is outstanding nothing else is (`HandshakeRead`), and it is not
  outstanding when the forwarding starts, because a handshake that waits for a connection needs no
  bytes.
-/

namespace TrustedCa
namespace Proxy
namespace Bridge

open Buffer (BasicBuffer Chan Fault Fifo Heap Pair SysBuf)
open Socks5 (Ctl)
open Spec

/-- The buffer of a pipe with the buffers of its outstanding operations. -/
def Pipe.chan (p : Pipe) : Chan :=
  ⟨p.buff, p.readOp.map ReadOp.buffers, p.writeOp.map WriteOp.buffers⟩

/-- The streams through a pipe whose buffer holds `f`. -/
structure PipeInv (p : Pipe) (consumed : List Byte) (f : Fifo) : Prop where
  stream : p.received = consumed ++ (p.sent ++ f.queue)
  got : ∀ op ∈ p.readOp, ∀ x ∈ op.got, ∃ region ∈ f.resv,
    x.1.length ≤ region.length ∧ region.take x.1.length = x.1
  taken : ∀ op ∈ p.writeOp, ∀ x ∈ op.taken, ∃ n ∈ f.seen,
    x.1.length ≤ n ∧ f.queue.take x.1.length = x.1
  reading : p.reading = false → ∀ op ∈ p.readOp, op.handler = .socks5Handshake
  writing : p.writing = false → p.writeOp = none

section Pipe

variable {h : Heap} {p : Pipe} {d : Chan} {f g : Fifo} {pre : List Byte}

/-- A read is started when none is outstanding. -/
theorem startRead_spec (handler : ReadHandler) {size : Nat}
    (hp : Pair blockSize h p.chan d f g) (hi : PipeInv p pre f) (hnone : p.readOp = none)
    (hsize : 0 < size) :
    ∃ h' p' bufs f', p.startRead h handler size = .ok (h', p') ∧
      p' = { p with buff := p'.buff, readOp := some ⟨handler, bufs, none⟩ } ∧
      p'.buff.dataSize = p.buff.dataSize ∧ Pair blockSize h' p'.chan d f' g ∧
      ∀ r, (handler = .forward → r = true) → PipeInv { p' with reading := r } pre f' := by
  have hregion : p.chan.region = none := by rw [Pipe.chan, hnone]; rfl
  obtain ⟨ret, h', b', bytes, heq, hp'⟩ := hp.reserveAtLeast hregion hsize
  have heq' : Buffer.reserveAtLeast blockSize h p.buff size = .ok (ret, h', b') := heq
  refine ⟨h', { p with buff := b', readOp := some ⟨handler, ret, none⟩ }, ret, _, ?_, rfl,
    hp'.size.trans hp.size.symm, hp', ?_⟩
  · rw [Pipe.startRead, heq']
    rfl
  · intro r hr
    refine ⟨hi.stream, ?_, hi.taken, ?_, hi.writing⟩
    · intro op hop x hx
      obtain rfl : (⟨handler, ret, none⟩ : ReadOp) = op := by simpa using hop
      cases hx
    · intro hfalse op hop
      obtain rfl : (⟨handler, ret, none⟩ : ReadOp) = op := by simpa using hop
      cases handler with
      | socks5Handshake => rfl
      | forward =>
        have : r = true := hr rfl
        rw [show r = false from hfalse] at this
        cases this

/-- A write is started when none is outstanding. -/
theorem startWrite_spec (hp : Pair blockSize h p.chan d f g) (hi : PipeInv p pre f)
    (hnone : p.writeOp = none) :
    ∃ p' bufs f', p.startWrite h = .ok p' ∧
      p' = { p with buff := p'.buff, writing := true, writeOp := some ⟨bufs, none⟩ } ∧
      p'.buff.dataSize = p.buff.dataSize ∧ Pair blockSize h p'.chan d f' g ∧ PipeInv p' pre f' := by
  have hview : p.chan.view = none := by rw [Pipe.chan, hnone]; rfl
  obtain ⟨ret, b', heq, -, hp'⟩ := hp.peek hview
  have heq' : Buffer.peek h p.buff = .ok (ret, b') := heq
  refine ⟨{ p with buff := b', writing := true, writeOp := some ⟨ret, none⟩ }, ret, _, ?_, rfl,
    hp'.size.trans hp.size.symm, hp', ⟨hi.stream, hi.got, ?_, hi.reading, ?_⟩⟩
  · rw [Pipe.startWrite, heq']
    rfl
  · intro op hop x hx
    obtain rfl : (⟨ret, none⟩ : WriteOp) = op := by simpa using hop
    cases hx
  · intro hfalse
    cases hfalse

/-- The handler of a read appends what the kernel had put into the region. -/
theorem commitRead_spec {op : ReadOp} {bytes : List Byte} {ec : ErrorCode}
    (hp : Pair blockSize h p.chan d f g) (hi : PipeInv p pre f) (hop : p.readOp = some op)
    (hgot : op.got = some (bytes, ec)) :
    ∃ h' p' f', p.commitRead h bytes = .ok (h', p') ∧
      p' = { p with buff := p'.buff, readOp := none, received := p.received ++ bytes } ∧
      Pair blockSize h' p'.chan d f' g ∧ ∀ r, PipeInv { p' with reading := r } pre f' := by
  obtain ⟨region, hregion, hlen, htake⟩ := hi.got op hop _ hgot
  obtain ⟨h', b', heq, hp'⟩ := hp.commit hregion hlen
  have heq' : Buffer.commit blockSize h p.buff bytes.length = .ok (h', b') := heq
  rw [htake] at hp'
  refine ⟨h', { p with buff := b', readOp := none, received := p.received ++ bytes }, _, ?_, rfl, hp',
    ?_⟩
  · rw [Pipe.commitRead, heq']
    rfl
  · intro r
    refine ⟨?_, ?_, ?_, ?_, hi.writing⟩
    · simp only [hi.stream, List.append_assoc]
    · intro op hop
      simp at hop
    · intro op hop x hx
      obtain ⟨n, hn, hle, hpre⟩ := hi.taken op hop x hx
      refine ⟨n, hn, hle, ?_⟩
      have hq : x.1.length ≤ f.queue.length := by
        rw [← hpre]
        exact List.length_take_le' ..
      rw [List.take_append_of_le_length hq]
      exact hpre
    · intro _ op hop
      simp at hop

/-- The handler of a write removes what the kernel had taken from the front. -/
theorem drainWritten_spec {op : WriteOp} {bytes : List Byte} {ec : ErrorCode}
    (hp : Pair blockSize h p.chan d f g) (hi : PipeInv p pre f) (hop : p.writeOp = some op)
    (htaken : op.taken = some (bytes, ec)) :
    ∃ h' p' f', p.drainWritten h bytes = .ok (h', p') ∧
      p' = { p with
        buff := p'.buff, writing := false, writeOp := none, sent := p.sent ++ bytes } ∧
      Pair blockSize h' p'.chan d f' g ∧ PipeInv p' pre f' := by
  obtain ⟨n, hn, hle, htake⟩ := hi.taken op hop _ htaken
  obtain ⟨h', b', heq, hp'⟩ := hp.drain hn hle
  have heq' : Buffer.drain blockSize h p.buff bytes.length = .ok (h', b') := heq
  refine ⟨h', { p with
    buff := b', writing := false, writeOp := none, sent := p.sent ++ bytes }, _, ?_, rfl, hp',
    ⟨?_, hi.got, ?_, hi.reading, ?_⟩⟩
  · rw [Pipe.drainWritten, heq']
    rfl
  · have hq : bytes ++ f.queue.drop bytes.length = f.queue := by
      conv_rhs => rw [← List.take_append_drop bytes.length f.queue, htake]
    simp only [hi.stream, List.append_assoc, hq]
  · intro op hop
    simp at hop
  · intro _
    rfl

/-- When the kernel can serve a read, and what it does then. -/
theorem Pipe.recv_eq_some {p' : Pipe} {h' : Heap} {bytes : List Byte} {ec : ErrorCode}
    (hrecv : p.recv h bytes ec = some (h', p')) :
    ∃ handler buffers, p.readOp = some ⟨handler, buffers, none⟩ ∧
      bytes.length ≤ Gather.total buffers ∧ h' = h.scatter buffers bytes ∧
      p' = { p with readOp := some ⟨handler, buffers, some (bytes, ec)⟩ } := by
  unfold Pipe.recv at hrecv
  split at hrecv
  · next handler buffers hop =>
    split at hrecv
    · next hlen =>
      cases hrecv
      exact ⟨handler, buffers, hop, hlen, rfl, rfl⟩
    · cases hrecv
  · cases hrecv

/-- When the kernel can serve a write, and what it does then. -/
theorem Pipe.send_eq_some {p' : Pipe} {n : Nat} {ec : ErrorCode}
    (hsend : p.send h n ec = some p') :
    ∃ buffers, p.writeOp = some ⟨buffers, none⟩ ∧ n ≤ Gather.total buffers ∧
      p' = { p with writeOp := some ⟨buffers, some ((h.read buffers).take n, ec)⟩ } := by
  unfold Pipe.send at hsend
  split at hsend
  · next buffers hop =>
    split at hsend
    · next hlen =>
      cases hsend
      exact ⟨buffers, hop, hlen, rfl⟩
    · cases hsend
  · cases hsend

/-- The kernel serves a read. -/
theorem recv_spec {bytes : List Byte} {ec : ErrorCode} {h' : Heap} {p' : Pipe}
    (hp : Pair blockSize h p.chan d f g) (hi : PipeInv p pre f)
    (hrecv : p.recv h bytes ec = some (h', p')) :
    ∃ f', Pair blockSize h' p'.chan d f' g ∧ PipeInv p' pre f' ∧
      p'.readOp.map ReadOp.handler = p.readOp.map ReadOp.handler ∧ p'.writeOp = p.writeOp ∧
      p'.sent = p.sent := by
  obtain ⟨handler, buffers, hop, hlen, rfl, rfl⟩ := Pipe.recv_eq_some hrecv
  have hregion : p.chan.region = some buffers := by rw [Pipe.chan, hop]; rfl
  refine ⟨{ f with resv := some (bytes ++ (h.read buffers).drop bytes.length) }, ?_,
    ⟨hi.stream, ?_, hi.taken, ?_, hi.writing⟩, ?_, rfl, rfl⟩
  · have hp' := hp.scatter hregion hlen
    rw [Pipe.chan, hop] at hp'
    exact hp'
  · intro op hop' x hx
    obtain rfl : (⟨handler, buffers, some (bytes, ec)⟩ : ReadOp) = op := by simpa using hop'
    obtain rfl : (bytes, ec) = x := by simpa using hx
    refine ⟨_, rfl, ?_, List.take_left⟩
    rw [List.length_append]
    exact Nat.le_add_right ..
  · intro hfalse op hop'
    obtain rfl : (⟨handler, buffers, some (bytes, ec)⟩ : ReadOp) = op := by simpa using hop'
    exact hi.reading hfalse ⟨handler, buffers, none⟩ hop
  · rw [hop]
    rfl

/-- The kernel serves a write. -/
theorem send_spec {n : Nat} {ec : ErrorCode} {p' : Pipe} (hp : Pair blockSize h p.chan d f g)
    (hi : PipeInv p pre f) (hsend : p.send h n ec = some p') :
    Pair blockSize h p'.chan d f g ∧ PipeInv p' pre f ∧ p'.readOp = p.readOp ∧
      (p.writeOp = none → p'.writeOp = none) := by
  obtain ⟨buffers, hop, hlen, rfl⟩ := Pipe.send_eq_some hsend
  have hview : p.chan.view = some buffers := by rw [Pipe.chan, hop]; rfl
  obtain ⟨others, ⟨full, rest, free, hr⟩, -⟩ := hp.left
  obtain ⟨-, hle, hpre⟩ := hr.view buffers hview
  have hseen : f.seen = some (Gather.total buffers) := by
    rw [hr.seen]
    exact congrArg (Option.map Gather.total) hview
  have hread : h.read buffers = f.queue.take (Gather.total buffers) := hpre
  refine ⟨?_, ⟨hi.stream, hi.got, ?_, hi.reading, ?_⟩, rfl, ?_⟩
  · rw [Pipe.chan, hop] at hp
    exact hp
  · intro op hop' x hx
    obtain rfl : (⟨buffers, some ((h.read buffers).take n, ec)⟩ : WriteOp) = op := by
      simpa using hop'
    obtain rfl : ((h.read buffers).take n, ec) = x := by simpa using hx
    have hx : (h.read buffers).take n = f.queue.take n := by
      rw [hread, List.take_take, Nat.min_eq_left hlen]
    have hlen' : (f.queue.take n).length = n := by
      rw [List.length_take]
      omega
    refine ⟨_, hseen, ?_, ?_⟩
    · simp only [hx, hlen']
      exact hlen
    · simp only [hx, hlen']
  · intro hfalse
    rw [hi.writing hfalse] at hop
    cases hop
  · intro hnone
    rw [hnone] at hop
    cases hop

/-- Without a read of the handshake, the flag says whether a read is outstanding. -/
theorem PipeInv.readOp_none (hi : PipeInv p pre f) (hreading : p.reading = false)
    (hforward : ∀ op ∈ p.readOp, op.handler = .forward) : p.readOp = none := by
  cases hop : p.readOp with
  | none => rfl
  | some op =>
    have h₁ := hi.reading hreading op hop
    rw [hforward op hop] at h₁
    cases h₁

end Pipe

/-! ## Forwarding -/

/-- A read is started on a pipe with room whose source is readable and whose sink is writable. -/
def ReadStarted (p p' : Pipe) (readable writable : Bool) : Prop :=
  if !p.reading && readable && writable && p.buff.dataSize < kMaxBufferSize then
    ∃ b bufs, b.dataSize = p.buff.dataSize ∧
      p' = { p with buff := b, reading := true, readOp := some ⟨.forward, bufs, none⟩ }
  else p' = p

/-- A write is started on a pipe with data whose sink is writable. -/
def WriteStarted (p p' : Pipe) (writable : Bool) : Prop :=
  if !p.writing && writable && 0 < p.buff.dataSize then
    ∃ b bufs, b.dataSize = p.buff.dataSize ∧
      p' = { p with buff := b, writing := true, writeOp := some ⟨bufs, none⟩ }
  else p' = p

/-- What `ForwardTraffic` starts. -/
def Rearmed (s s' : ProxyBridge) : Prop :=
  ∃ h up₁ up down₁ down, s' = { s with heap := h, upstream := up, downstream := down } ∧
    ReadStarted s.upstream up₁ s.clientReadable s.destWritable ∧
    WriteStarted up₁ up s.destWritable ∧
    WriteStarted s.downstream down₁ s.clientWritable ∧
    ReadStarted down₁ down s.destReadable s.clientWritable

/-- The part of the invariant that does not depend on the phase. -/
structure Core (s : ProxyBridge) (f g : Fifo) : Prop where
  pair : Pair blockSize s.heap s.upstream.chan s.downstream.chan f g
  up : PipeInv s.upstream s.consumed f
  down : PipeInv s.downstream [] g
  wf : s.socks5State.Wf

/-- No read of the handshake is outstanding. -/
def NoHandshakeRead (s : ProxyBridge) : Prop :=
  (∀ op ∈ s.upstream.readOp, op.handler = .forward) ∧
    ∀ op ∈ s.downstream.readOp, op.handler = .forward

/-- The bridge is in order, and `ForwardTraffic` may run. -/
def Forwarding (s : ProxyBridge) : Prop := ∃ f g, Core s f g ∧ NoHandshakeRead s

section Forward

variable {s : ProxyBridge}

theorem readClient_spec (hf : Forwarding s) :
    ∃ s' h p, readClient s = .ok s' ∧ Forwarding s' ∧ s' = { s with heap := h, upstream := p } ∧
      ReadStarted s.upstream p s.clientReadable s.destWritable := by
  obtain ⟨f, g, hc, hn⟩ := hf
  unfold readClient ReadStarted
  split
  · next hcond =>
    simp only [Bool.and_eq_true, Bool.not_eq_true'] at hcond
    have hnone := hc.up.readOp_none hcond.1.1.1 hn.1
    obtain ⟨h', p', bufs, f', heq, hp', hsize, hp, hi⟩ :=
      startRead_spec .forward hc.pair hc.up hnone (by decide : 0 < kReadSize)
    refine ⟨{ s with heap := h', upstream := { p' with reading := true } }, h',
      { p' with reading := true }, by rw [heq]; rfl,
      ⟨_, g, ⟨hp, hi true fun _ => rfl, hc.down, hc.wf⟩, ?_, hn.2⟩, rfl, p'.buff, bufs, hsize,
      by rw [hp']⟩
    intro op hop
    rw [hp'] at hop
    cases hop
    rfl
  · exact ⟨s, s.heap, s.upstream, rfl, ⟨f, g, hc, hn⟩, rfl, rfl⟩

theorem readDest_spec (hf : Forwarding s) :
    ∃ s' h p, readDest s = .ok s' ∧ Forwarding s' ∧ s' = { s with heap := h, downstream := p } ∧
      ReadStarted s.downstream p s.destReadable s.clientWritable := by
  obtain ⟨f, g, hc, hn⟩ := hf
  unfold readDest ReadStarted
  split
  · next hcond =>
    simp only [Bool.and_eq_true, Bool.not_eq_true'] at hcond
    have hnone := hc.down.readOp_none hcond.1.1.1 hn.2
    obtain ⟨h', p', bufs, f', heq, hp', hsize, hp, hi⟩ :=
      startRead_spec .forward hc.pair.symm hc.down hnone (by decide : 0 < kReadSize)
    refine ⟨{ s with heap := h', downstream := { p' with reading := true } }, h',
      { p' with reading := true }, by rw [heq]; rfl,
      ⟨f, _, ⟨hp.symm, hc.up, hi true fun _ => rfl, hc.wf⟩, hn.1, ?_⟩, rfl, p'.buff, bufs, hsize,
      by rw [hp']⟩
    intro op hop
    rw [hp'] at hop
    cases hop
    rfl
  · exact ⟨s, s.heap, s.downstream, rfl, ⟨f, g, hc, hn⟩, rfl, rfl⟩

theorem writeClient_spec (hf : Forwarding s) :
    ∃ s' p, writeClient s = .ok s' ∧ Forwarding s' ∧ s' = { s with downstream := p } ∧
      WriteStarted s.downstream p s.clientWritable := by
  obtain ⟨f, g, hc, hn⟩ := hf
  unfold writeClient WriteStarted
  split
  · next hcond =>
    simp only [Bool.and_eq_true, Bool.not_eq_true'] at hcond
    obtain ⟨p', bufs, f', heq, hp', hsize, hp, hi⟩ :=
      startWrite_spec hc.pair.symm hc.down (hc.down.writing hcond.1.1)
    refine ⟨{ s with downstream := p' }, p', by rw [heq]; rfl,
      ⟨f, _, ⟨hp.symm, hc.up, hi, hc.wf⟩, hn.1, ?_⟩, rfl, p'.buff, bufs, hsize, hp'⟩
    rw [hp']
    exact hn.2
  · exact ⟨s, s.downstream, rfl, ⟨f, g, hc, hn⟩, rfl, rfl⟩

theorem writeDest_spec (hf : Forwarding s) :
    ∃ s' p, writeDest s = .ok s' ∧ Forwarding s' ∧ s' = { s with upstream := p } ∧
      WriteStarted s.upstream p s.destWritable := by
  obtain ⟨f, g, hc, hn⟩ := hf
  unfold writeDest WriteStarted
  split
  · next hcond =>
    simp only [Bool.and_eq_true, Bool.not_eq_true'] at hcond
    obtain ⟨p', bufs, f', heq, hp', hsize, hp, hi⟩ :=
      startWrite_spec hc.pair hc.up (hc.up.writing hcond.1.1)
    refine ⟨{ s with upstream := p' }, p', by rw [heq]; rfl,
      ⟨_, g, ⟨hp, hi, hc.down, hc.wf⟩, ?_, hn.2⟩, rfl, p'.buff, bufs, hsize, hp'⟩
    rw [hp']
    exact hn.1
  · exact ⟨s, s.upstream, rfl, ⟨f, g, hc, hn⟩, rfl, rfl⟩

/-- `ForwardTraffic` starts reads and writes only. -/
theorem forwardTraffic_rearmed (hf : Forwarding s) :
    ∃ s', forwardTraffic s = .ok s' ∧ Forwarding s' ∧ Rearmed s s' := by
  obtain ⟨s₁, k₁, p₁, h₁, hf₁, rfl, hup₁⟩ := readClient_spec hf
  obtain ⟨s₂, p₂, h₂, hf₂, rfl, hdown₁⟩ := writeClient_spec hf₁
  obtain ⟨s₃, k₃, p₃, h₃, hf₃, rfl, hdown₂⟩ := readDest_spec hf₂
  obtain ⟨s₄, p₄, h₄, hf₄, rfl, hup₂⟩ := writeDest_spec hf₃
  refine ⟨_, ?_, hf₄, k₃, p₁, p₄, p₂, p₃, rfl, hup₁, hup₂, hdown₁, hdown₂⟩
  simp only [forwardTraffic, bind, Except.bind, h₁, h₂, h₃, h₄]

theorem forwardTraffic_spec (hf : Forwarding s) :
    ∃ s', forwardTraffic s = .ok s' ∧ Forwarding s' := by
  obtain ⟨s', heq, hf', -⟩ := forwardTraffic_rearmed hf
  exact ⟨s', heq, hf'⟩

/-- The handler of a client read, before `ForwardTraffic`. -/
theorem Forwarding.clientCommitted {op : ReadOp} {bytes : List Byte} {ec : ErrorCode}
    (hf : Forwarding s) (hop : s.upstream.readOp = some op) (hgot : op.got = some (bytes, ec)) :
    ∃ h' p', s.upstream.commitRead s.heap bytes = .ok (h', p') ∧ ∀ readable downs, Forwarding
      { s with
        heap := h'
        upstream := { p' with reading := false }
        clientReadable := readable
        shutdowns := downs } := by
  obtain ⟨f, g, hc, hn⟩ := hf
  obtain ⟨h', p', f', heq, hp', hp, hi⟩ := commitRead_spec hc.pair hc.up hop hgot
  refine ⟨h', p', heq, fun _ _ => ⟨_, g, ⟨hp, hi false, hc.down, hc.wf⟩, ?_, hn.2⟩⟩
  intro op hop'
  rw [hp'] at hop'
  cases hop'

/-- The handler of a destination read, before `ForwardTraffic`. -/
theorem Forwarding.destCommitted {op : ReadOp} {bytes : List Byte} {ec : ErrorCode}
    (hf : Forwarding s) (hop : s.downstream.readOp = some op) (hgot : op.got = some (bytes, ec)) :
    ∃ h' p', s.downstream.commitRead s.heap bytes = .ok (h', p') ∧ ∀ readable downs, Forwarding
      { s with
        heap := h'
        downstream := { p' with reading := false }
        destReadable := readable
        shutdowns := downs } := by
  obtain ⟨f, g, hc, hn⟩ := hf
  obtain ⟨h', p', f', heq, hp', hp, hi⟩ := commitRead_spec hc.pair.symm hc.down hop hgot
  refine ⟨h', p', heq, fun _ _ => ⟨f, _, ⟨hp.symm, hc.up, hi false, hc.wf⟩, hn.1, ?_⟩⟩
  intro op hop'
  rw [hp'] at hop'
  cases hop'

/-- The handler of a client write, before `ForwardTraffic`. -/
theorem Forwarding.clientDrained {op : WriteOp} {bytes : List Byte} {ec : ErrorCode}
    (hf : Forwarding s) (hop : s.downstream.writeOp = some op)
    (htaken : op.taken = some (bytes, ec)) :
    ∃ h' p', s.downstream.drainWritten s.heap bytes = .ok (h', p') ∧ ∀ writable downs, Forwarding
      { s with heap := h', downstream := p', clientWritable := writable, shutdowns := downs } := by
  obtain ⟨f, g, hc, hn⟩ := hf
  obtain ⟨h', p', f', heq, hp', hp, hi⟩ := drainWritten_spec hc.pair.symm hc.down hop htaken
  have hread : p'.readOp = s.downstream.readOp := by rw [hp']
  exact ⟨h', p', heq, fun _ _ => ⟨f, _, ⟨hp.symm, hc.up, hi, hc.wf⟩, hn.1, hread ▸ hn.2⟩⟩

/-- The handler of a destination write, before `ForwardTraffic`. -/
theorem Forwarding.destDrained {op : WriteOp} {bytes : List Byte} {ec : ErrorCode}
    (hf : Forwarding s) (hop : s.upstream.writeOp = some op)
    (htaken : op.taken = some (bytes, ec)) :
    ∃ h' p', s.upstream.drainWritten s.heap bytes = .ok (h', p') ∧ ∀ writable downs, Forwarding
      { s with heap := h', upstream := p', destWritable := writable, shutdowns := downs } := by
  obtain ⟨f, g, hc, hn⟩ := hf
  obtain ⟨h', p', f', heq, hp', hp, hi⟩ := drainWritten_spec hc.pair hc.up hop htaken
  have hread : p'.readOp = s.upstream.readOp := by rw [hp']
  exact ⟨h', p', heq, fun _ _ => ⟨_, g, ⟨hp, hi, hc.down, hc.wf⟩, hread ▸ hn.1, hn.2⟩⟩

theorem clientReadHandler_spec {op : ReadOp} {bytes : List Byte} {ec : ErrorCode}
    (hf : Forwarding s) (hop : s.upstream.readOp = some op) (hgot : op.got = some (bytes, ec)) :
    ∃ s', clientReadHandler s bytes ec = .ok s' ∧ Forwarding s' := by
  obtain ⟨h', p', heq, hf'⟩ := hf.clientCommitted hop hgot
  rw [clientReadHandler, heq]
  exact forwardTraffic_spec (hf' ..)

theorem destReadHandler_spec {op : ReadOp} {bytes : List Byte} {ec : ErrorCode}
    (hf : Forwarding s) (hop : s.downstream.readOp = some op) (hgot : op.got = some (bytes, ec)) :
    ∃ s', destReadHandler s bytes ec = .ok s' ∧ Forwarding s' := by
  obtain ⟨h', p', heq, hf'⟩ := hf.destCommitted hop hgot
  rw [destReadHandler, heq]
  exact forwardTraffic_spec (hf' ..)

theorem clientWriteHandler_spec {op : WriteOp} {bytes : List Byte} {ec : ErrorCode}
    (hf : Forwarding s) (hop : s.downstream.writeOp = some op)
    (htaken : op.taken = some (bytes, ec)) :
    ∃ s', clientWriteHandler s bytes ec = .ok s' ∧ Forwarding s' := by
  obtain ⟨h', p', heq, hf'⟩ := hf.clientDrained hop htaken
  rw [clientWriteHandler, heq]
  exact forwardTraffic_spec (hf' ..)

theorem destWriteHandler_spec {op : WriteOp} {bytes : List Byte} {ec : ErrorCode}
    (hf : Forwarding s) (hop : s.upstream.writeOp = some op)
    (htaken : op.taken = some (bytes, ec)) :
    ∃ s', destWriteHandler s bytes ec = .ok s' ∧ Forwarding s' := by
  obtain ⟨h', p', heq, hf'⟩ := hf.destDrained hop htaken
  rw [destWriteHandler, heq]
  exact forwardTraffic_spec (hf' ..)

end Forward

/-! ## The handshake -/

/-- Nothing but a read of the handshake is outstanding. -/
structure HandshakeRead (s : ProxyBridge) : Prop where
  handler : ∀ op ∈ s.upstream.readOp, op.handler = .socks5Handshake
  writeOp : s.upstream.writeOp = none
  downRead : s.downstream.readOp = none
  downWrite : s.downstream.writeOp = none
  sent : s.upstream.sent = []
  state : s.socks5State.state ≠ .kWaitConnect ∧ s.socks5State.state ≠ .kWaitAccept

/-- The invariant of a bridge. -/
def Inv (s : ProxyBridge) : Prop := Forwarding s ∨ ∃ f g, Core s f g ∧ HandshakeRead s

section Handshake

variable {s : ProxyBridge} {env : Env} {f g : Fifo}

/-- A handshake that lacks bytes waits for no connection. -/
theorem ne_wait_of_required {c : Ctl} {n : Nat} (hw : c.Wf) (hlt : n < c.requiredSize) :
    c.state ≠ .kWaitConnect ∧ c.state ≠ .kWaitAccept := by
  constructor <;>
  · intro hs
    simp only [Ctl.Wf, hs] at hw
    omega

/-- `PerformSocks5Handshake`, and the end of its handler. -/
theorem performSocks5Handshake_spec (hc : Core s f g) (hread : s.upstream.readOp = none)
    (hwrite : s.upstream.writeOp = none) (hdr : s.downstream.readOp = none)
    (hdw : s.downstream.writeOp = none) (hsent : s.upstream.sent = [])
    (hstate : s.socks5State.state ≠ .kWaitConnect ∧ s.socks5State.state ≠ .kWaitAccept) :
    ∃ s', performSocks5Handshake s = .ok s' ∧ Inv s' ∧ ∃ h b op,
      s' = { s with heap := h, upstream := { s.upstream with buff := b, readOp := some op } } := by
  obtain ⟨h', p', bufs, f', heq, hp', -, hp, hi⟩ :=
    startRead_spec .socks5Handshake hc.pair hc.up hread Nat.one_pos
  refine ⟨{ s with heap := h', upstream := p' }, by rw [performSocks5Handshake, heq]; rfl, .inr
    ⟨f', g, ⟨hp, hi p'.reading (fun h => by cases h), hc.down, hc.wf⟩, ?_, ?_, hdr, hdw, ?_, hstate⟩,
    h', p'.buff, ⟨.socks5Handshake, bufs, none⟩, by rw [hp']⟩
  · intro op hop
    rw [hp'] at hop
    cases hop
    rfl
  · rw [hp']
    exact hwrite
  · rw [hp']
    exact hsent

/-- The block buffer behaves like the queue that it holds, in the view of a handshake that started
with the memory `h`. `others` are the blocks of the downstream buffer. -/
def FedBy (h : Heap) (i : Nat) (others : List Buffer.Addr) (stream : List Byte) (st : Fed)
    (q : List Byte) : Prop :=
  Buffer.Untouched h st.heap i others ∧ st.buff.freelist = i ∧
    Buffer.Refines blockSize ⟨st.heap, st.buff, none, none⟩ { queue := q } others ∧
    st.consumed ++ q = stream

/-- `CopyOut` of a buffer that holds a queue. -/
theorem bufferSource_copyOut {st : Fed} {region : Option (List SysBuf)} {f : Fifo}
    {full rest free others : List Buffer.Addr} (n : Nat)
    (hr : Buffer.Rep blockSize ⟨st.heap, st.buff, region, none⟩ f full rest free others) :
    ∃ h' b' full' free', bufferSource.copyOut st n
        = .ok (f.queue.take n, ⟨h', b', st.consumed ++ f.queue.take n⟩) ∧
      Buffer.Frame st.heap h' st.buff.freelist others ∧ b'.freelist = st.buff.freelist ∧
      Buffer.Rep blockSize ⟨h', b', region, none⟩ { f with queue := f.queue.drop n }
        full' rest free' others := by
  obtain ⟨h', b', full', free', heq, hframe, hfl, hr'⟩ := hr.copyOut n rfl
  have heq' : Buffer.copyOut blockSize st.heap st.buff n = .ok (f.queue.take n, h', b') := heq
  refine ⟨h', b', full', free', ?_, hframe, hfl, hr'⟩
  simp only [bufferSource, heq', bind, Except.bind, pure, Except.pure]

theorem bufferSource_simulates (h : Heap) (i : Nat) (others : List Buffer.Addr)
    (stream : List Byte) : Socks5.Simulates bufferSource (FedBy h i others stream) where
  dataSize hR := by
    obtain ⟨-, -, ⟨full, rest, free, hr⟩, -⟩ := hR
    exact hr.size
  copyOut {st q} n hR := by
    obtain ⟨hun, hfl, ⟨full, rest, free, hr⟩, hstream⟩ := hR
    obtain ⟨h', b', full', free', heq, hframe, hfl', hr'⟩ := bufferSource_copyOut n hr
    refine ⟨_, heq, hun.trans ?_, hfl'.trans hfl, ⟨_, _, _, hr'⟩, ?_⟩
    · rw [← hfl]
      exact hframe.untouched
    · rw [List.append_assoc, List.take_append_drop]
      exact hstream

/-- It does so without blocks or bytes being added to it. -/
theorem bufferSource_shrinks (h : Heap) (i : Nat) (others : List Buffer.Addr) (stream : List Byte)
    (blocks size : Nat) : Socks5.Simulates bufferSource fun st q =>
      FedBy h i others stream st q ∧ st.buff.blockCnt ≤ blocks ∧ q.length ≤ size where
  dataSize hR := (bufferSource_simulates h i others stream).dataSize hR.1
  copyOut {st q} n hR := by
    obtain ⟨hR, hcnt, hlen⟩ := hR
    obtain ⟨st', heq, hR'⟩ := (bufferSource_simulates h i others stream).copyOut n hR
    refine ⟨st', heq, hR', ?_, Nat.le_trans (by rw [List.length_drop]; exact Nat.sub_le ..) hlen⟩
    obtain ⟨⟨bytes, h', b'⟩, hcopy, heq⟩ := bind_eq_ok.mp heq
    cases heq
    exact Nat.le_trans (Buffer.copyOut_members hcopy) hcnt

/-- The loop of the handshake takes its bytes off the front of the upstream buffer, and off
nothing else. -/
theorem handshakeLoop_spec (env : Env) (hc : Core s f g) (hread : s.upstream.readOp = none)
    (hwrite : s.upstream.writeOp = none) (hsent : s.upstream.sent = []) :
    ∃ st r f', Socks5.proceedLoop bufferSource env.callbacks 7
        ⟨s.socks5State, ⟨s.heap, s.upstream.buff, s.consumed⟩⟩ = .ok (some ⟨r, st⟩) ∧
      Socks5.finish env.callbacks ⟨s.socks5State, f.queue⟩ = ⟨r, f'.queue⟩ ∧
      st.buff.dataSize = f'.queue.length ∧
      (st.buff.blockCnt ≤ s.upstream.buff.blockCnt ∧ f'.queue.length ≤ f.queue.length) ∧
      Core { s with
        heap := st.heap
        upstream := { s.upstream with buff := st.buff }
        consumed := st.consumed
        socks5State := r } f' g := by
  obtain ⟨others, ⟨full, rest, free, hr⟩, hback⟩ := hc.pair.left
  have hresv : f.resv = none := by rw [hr.resv]; simp [Pipe.chan, Chan.at, hread]
  have hseen : f.seen = none := by rw [hr.seen]; simp [Pipe.chan, Chan.at, hwrite]
  have hchan : s.upstream.chan = ⟨s.upstream.buff, none, none⟩ := by simp [Pipe.chan, hread, hwrite]
  have hfed : FedBy s.heap s.upstream.buff.freelist others (s.consumed ++ f.queue)
      ⟨s.heap, s.upstream.buff, s.consumed⟩ f.queue := by
    refine ⟨Buffer.Untouched.refl .., rfl, ⟨full, rest, free, ?_⟩, rfl⟩
    rw [hchan] at hr
    obtain ⟨q, resv, seen⟩ := f
    obtain rfl : resv = none := hresv
    obtain rfl : seen = none := hseen
    exact hr
  have hloop : Socks5.loop env.callbacks 7 ⟨s.socks5State, f.queue⟩ = some _ :=
    Socks5.loop_eq_finish hc.wf (Socks5.HandshakeState.rank_le _)
  have hwf : (Socks5.finish env.callbacks ⟨s.socks5State, f.queue⟩).ctl.Wf :=
    Socks5.finish_wf hc.wf
  generalize Socks5.finish env.callbacks ⟨s.socks5State, f.queue⟩ = r at hloop hwf
  obtain ⟨st, heq, ⟨hun, hfl, href, hstream⟩, hless⟩ :=
    (bufferSource_shrinks s.heap s.upstream.buff.freelist others _ _ _).proceedLoop
      ⟨hfed, Nat.le_refl _, Nat.le_refl _⟩ hloop
  have hsize : st.buff.dataSize = r.buffer.length := by
    obtain ⟨_, _, _, hr'⟩ := href
    exact hr'.size
  refine ⟨st, r.ctl, { queue := r.buffer }, heq, rfl, hsize, hless, ?_, ⟨?_, ?_, ?_, hc.up.reading,
    hc.up.writing⟩, hc.down, hwf⟩
  · have hp : Pair blockSize st.heap ⟨st.buff, none, none⟩ s.downstream.chan
        { queue := r.buffer } g := hback hfl hun href
    simpa only [Pipe.chan, hread, hwrite, Option.map_none] using hp
  · have hold := hc.up.stream
    rw [hsent, List.nil_append, ← hstream] at hold
    simpa only [hsent, List.nil_append] using hold
  · intro op hop
    rw [hread] at hop
    cases hop
  · intro op hop
    rw [hwrite] at hop
    cases hop

/-- What `Socks5HandshakeHandler` does with the bytes of its read: after an error it does nothing
more, else the loop runs over all bytes that are there, and a read is started if it lacks bytes. -/
structure Proceeded (env : Env) (s : ProxyBridge) (bytes : List Byte) (ec : ErrorCode)
    (s' : ProxyBridge) : Prop where
  received : s'.upstream.received = s.upstream.received ++ bytes
  completed : s'.connected = s.connected ∧ s'.accepted = s.accepted
  cut : ec.failed = true → s'.socks5State = s.socks5State ∧ s'.upstream.readOp = none
  looped : ec.failed = false → ∀ q, s.upstream.received = s.consumed ++ q →
    ∃ q', s'.upstream.received = s'.consumed ++ q' ∧
      Socks5.finish env.callbacks ⟨s.socks5State, q ++ bytes⟩ = ⟨s'.socks5State, q'⟩ ∧
      (s'.upstream.readOp.isSome = true ↔ q'.length < s'.socks5State.requiredSize)

/-- `Socks5HandshakeHandler`. -/
theorem socks5HandshakeHandler_spec {op : ReadOp} {bytes : List Byte} {ec : ErrorCode}
    (hc : Core s f g) (hh : HandshakeRead s) (hop : s.upstream.readOp = some op)
    (hgot : op.got = some (bytes, ec)) :
    ∃ s', socks5HandshakeHandler s env bytes ec = .ok s' ∧ Inv s' ∧ Proceeded env s bytes ec s' := by
  obtain ⟨h', p', f', heq, hp', hp, hi⟩ := commitRead_spec hc.pair hc.up hop hgot
  have hc₁ : Core { s with heap := h', upstream := p' } f' g := ⟨hp, hi p'.reading, hc.down, hc.wf⟩
  have hread : p'.readOp = none := by rw [hp']
  have hwrite : p'.writeOp = none := by rw [hp']; exact hh.writeOp
  have hsent : p'.sent = [] := by rw [hp']; exact hh.sent
  have hreceived : p'.received = s.upstream.received ++ bytes := by rw [hp']
  have hidle : ∀ {p : Pipe}, p.readOp = none → ∀ op ∈ p.readOp, op.handler = .forward := by
    intro p hp op hop
    rw [hp] at hop
    cases hop
  rw [socks5HandshakeHandler, heq]
  by_cases hfail : ec.failed
  · refine ⟨{ s with heap := h', upstream := p' }, ?_,
      .inl ⟨f', g, hc₁, hidle hread, hidle hh.downRead⟩, hreceived, ⟨rfl, rfl⟩,
      fun _ => ⟨rfl, hread⟩, fun h => absurd hfail (by simp [h])⟩
    simp only [bind, Except.bind, hfail, if_true]
    rfl
  · obtain ⟨st, r, f₂, hloop, hfinish, hsize, -, hc₂⟩ := handshakeLoop_spec env hc₁ hread hwrite hsent
    have hqueue : ∀ q, s.upstream.received = s.consumed ++ q → f'.queue = q ++ bytes := by
      intro q hq
      have hstream := hc₁.up.stream
      simp only [hsent, List.nil_append, hreceived, hq, List.append_assoc] at hstream
      exact (List.append_cancel_left hstream).symm
    have hstream₂ : p'.received = st.consumed ++ f₂.queue := by
      simpa only [hsent, List.nil_append] using hc₂.up.stream
    simp only [bind, Except.bind, hfail, Bool.false_eq_true, if_false, hloop]
    by_cases hlack : Socks5.insufficientBuffer bufferSource ⟨r, st⟩
    · simp only [hlack, if_true]
      have hlt : f₂.queue.length < r.requiredSize := by
        simpa [Socks5.insufficientBuffer, bufferSource, hsize] using hlack
      obtain ⟨s', heq', hinv, h₂, b, op', rfl⟩ := performSocks5Handshake_spec hc₂ hread hwrite
        hh.downRead hh.downWrite hsent (ne_wait_of_required hc₂.wf hlt)
      refine ⟨_, heq', hinv, hreceived, ⟨rfl, rfl⟩, fun h => absurd h hfail, fun _ q hq => ?_⟩
      exact ⟨f₂.queue, hstream₂, hqueue q hq ▸ hfinish, fun _ => hlt, fun _ => rfl⟩
    · simp only [hlack, Bool.false_eq_true, if_false]
      have hge : ¬ f₂.queue.length < r.requiredSize := by
        simpa [Socks5.insufficientBuffer, bufferSource, hsize] using hlack
      refine ⟨_, rfl, .inl ⟨f₂, g, hc₂, hidle hread, hidle hh.downRead⟩, hreceived, ⟨rfl, rfl⟩,
        fun h => absurd h hfail, fun _ q hq => ?_⟩
      refine ⟨f₂.queue, hstream₂, hqueue q hq ▸ hfinish, fun hsome => ?_, fun hlt => absurd hlt hge⟩
      rw [hread] at hsome
      cases hsome

theorem HandshakeRead.not_waiting (hh : HandshakeRead s) :
    ¬ (s.socks5State.state = .kWaitConnect ∨ s.socks5State.state = .kWaitAccept) :=
  not_or.mpr hh.state

/-- Only a handshake that was waiting for a connection lets the forwarding start. -/
theorem Inv.succeeded (hi : Inv s)
    (hs : (Socks5.connectionSucceed env.callbacks s.socks5State).1 = true) :
    Forwarding { s with
      socks5State := (Socks5.connectionSucceed env.callbacks s.socks5State).2 } := by
  rcases hi with ⟨f, g, hc, hn⟩ | ⟨f, g, hc, hh⟩
  · exact ⟨f, g, ⟨hc.pair, hc.up, hc.down, Socks5.connectionSucceed_wf ..⟩, hn⟩
  · rw [Socks5.connectionSucceed_other hh.not_waiting] at hs
    cases hs

/-- A connection is there: the forwarding starts if the handshake was waiting for it. -/
theorem established_spec (hi : Inv s) : ∃ s', established s env = .ok s' ∧ Inv s' := by
  unfold established
  cases hs : (Socks5.connectionSucceed env.callbacks s.socks5State).1 with
  | true =>
    obtain ⟨s', heq, hf⟩ := forwardTraffic_spec (hi.succeeded hs)
    exact ⟨s', by simpa only [hs, if_true] using heq, .inl hf⟩
  | false =>
    refine ⟨_, by simp only [hs, Bool.false_eq_true, if_false]; rfl, ?_⟩
    rcases hi with ⟨f, g, hc, hn⟩ | ⟨f, g, hc, hh⟩
    · exact .inl ⟨f, g, ⟨hc.pair, hc.up, hc.down, Socks5.connectionSucceed_wf ..⟩, hn⟩
    · refine .inr ⟨f, g, ⟨hc.pair, hc.up, hc.down, Socks5.connectionSucceed_wf ..⟩, hh.handler, hh.writeOp,
        hh.downRead, hh.downWrite, hh.sent, ?_⟩
      rw [Socks5.connectionSucceed_other hh.not_waiting]
      simp [Ctl.fail]

end Handshake

/-! ## Runs -/

section Runs

variable {s : ProxyBridge} {env : Env}

/-- Serving a read does not change its handler. -/
theorem handler_of_map {o o' : Option ReadOp} {x : ReadHandler}
    (heq : o'.map ReadOp.handler = o.map ReadOp.handler) (hall : ∀ op ∈ o, op.handler = x) :
    ∀ op ∈ o', op.handler = x := by
  intro op hop
  rw [Option.mem_def] at hop
  rw [hop, Option.map_some] at heq
  obtain ⟨op', hop', hx⟩ := Option.map_eq_some_iff.mp heq.symm
  rw [← hx]
  exact hall op' hop'

theorem Forwarding.clientRecv {bytes : List Byte} {ec : ErrorCode} {h' : Heap} {p' : Pipe}
    (hf : Forwarding s) (heq : s.upstream.recv s.heap bytes ec = some (h', p')) :
    Forwarding { s with heap := h', upstream := p' } := by
  obtain ⟨f, g, hc, hn⟩ := hf
  obtain ⟨f', hp, hi, hmap, -, -⟩ := recv_spec hc.pair hc.up heq
  exact ⟨f', g, ⟨hp, hi, hc.down, hc.wf⟩, handler_of_map hmap hn.1, hn.2⟩

theorem Forwarding.destRecv {bytes : List Byte} {ec : ErrorCode} {h' : Heap} {p' : Pipe}
    (hf : Forwarding s) (heq : s.downstream.recv s.heap bytes ec = some (h', p')) :
    Forwarding { s with heap := h', downstream := p' } := by
  obtain ⟨f, g, hc, hn⟩ := hf
  obtain ⟨g', hp, hi, hmap, -, -⟩ := recv_spec hc.pair.symm hc.down heq
  exact ⟨f, g', ⟨hp.symm, hc.up, hi, hc.wf⟩, hn.1, handler_of_map hmap hn.2⟩

theorem Forwarding.clientSend {n : Nat} {ec : ErrorCode} {p' : Pipe} (hf : Forwarding s)
    (heq : s.downstream.send s.heap n ec = some p') : Forwarding { s with downstream := p' } := by
  obtain ⟨f, g, hc, hn⟩ := hf
  obtain ⟨hp, hi, hread, -⟩ := send_spec hc.pair.symm hc.down heq
  exact ⟨f, g, ⟨hp.symm, hc.up, hi, hc.wf⟩, hn.1, hread ▸ hn.2⟩

theorem Forwarding.destSend {n : Nat} {ec : ErrorCode} {p' : Pipe} (hf : Forwarding s)
    (heq : s.upstream.send s.heap n ec = some p') : Forwarding { s with upstream := p' } := by
  obtain ⟨f, g, hc, hn⟩ := hf
  obtain ⟨hp, hi, hread, -⟩ := send_spec hc.pair hc.up heq
  exact ⟨f, g, ⟨hp, hi, hc.down, hc.wf⟩, hread ▸ hn.1, hn.2⟩

theorem clientRecv_spec {bytes : List Byte} {ec : ErrorCode} {h' : Heap} {p' : Pipe} (hi : Inv s)
    (heq : s.upstream.recv s.heap bytes ec = some (h', p')) :
    Inv { s with heap := h', upstream := p' } := by
  rcases hi with hf | ⟨f, g, hc, hh⟩
  · exact .inl (hf.clientRecv heq)
  · obtain ⟨f', hp, hi, hmap, hw, hsent⟩ := recv_spec hc.pair hc.up heq
    exact .inr ⟨f', g, ⟨hp, hi, hc.down, hc.wf⟩, handler_of_map hmap hh.handler,
      hw.trans hh.writeOp, hh.downRead, hh.downWrite, hsent.trans hh.sent, hh.state⟩

theorem destRecv_spec {bytes : List Byte} {ec : ErrorCode} {h' : Heap} {p' : Pipe} (hi : Inv s)
    (heq : s.downstream.recv s.heap bytes ec = some (h', p')) :
    Inv { s with heap := h', downstream := p' } := by
  rcases hi with hf | ⟨f, g, hc, hh⟩
  · exact .inl (hf.destRecv heq)
  · rw [Pipe.recv, hh.downRead] at heq
    cases heq

theorem clientSend_spec {n : Nat} {ec : ErrorCode} {p' : Pipe} (hi : Inv s)
    (heq : s.downstream.send s.heap n ec = some p') : Inv { s with downstream := p' } := by
  rcases hi with hf | ⟨f, g, hc, hh⟩
  · exact .inl (hf.clientSend heq)
  · rw [Pipe.send, hh.downWrite] at heq
    cases heq

theorem destSend_spec {n : Nat} {ec : ErrorCode} {p' : Pipe} (hi : Inv s)
    (heq : s.upstream.send s.heap n ec = some p') : Inv { s with upstream := p' } := by
  rcases hi with hf | ⟨f, g, hc, hh⟩
  · exact .inl (hf.destSend heq)
  · rw [Pipe.send, hh.writeOp] at heq
    cases heq

/-- The bridge is forwarding when an operation of the forwarding is outstanding. -/
theorem Inv.forwarding (hi : Inv s)
    (hop : (∃ op ∈ s.upstream.readOp, op.handler = .forward) ∨ s.upstream.writeOp ≠ none ∨
      s.downstream.readOp ≠ none ∨ s.downstream.writeOp ≠ none) : Forwarding s := by
  rcases hi with hf | ⟨f, g, hc, hh⟩
  · exact hf
  · rcases hop with ⟨op, hop, hfw⟩ | h | h | h
    · rw [hh.handler op hop] at hfw
      cases hfw
    · exact absurd hh.writeOp h
    · exact absurd hh.downRead h
    · exact absurd hh.downWrite h

theorem Inv.completed (hi : Inv s) (n m : Nat) : Inv { s with connected := n, accepted := m } := by
  rcases hi with ⟨f, g, hc, hn⟩ | ⟨f, g, hc, hh⟩
  · exact .inl ⟨f, g, ⟨hc.pair, hc.up, hc.down, hc.wf⟩, hn⟩
  · exact .inr ⟨f, g, ⟨hc.pair, hc.up, hc.down, hc.wf⟩, hh.handler, hh.writeOp, hh.downRead,
      hh.downWrite, hh.sent, hh.state⟩

/-- A connect or an accept of the handshake completes, with the numbers of both after it. -/
inductive Completes (s : ProxyBridge) : Event → ErrorCode → Nat → Nat → Prop
  | connect {ec : ErrorCode} : s.connected < connects s.socks5State →
    Completes s (.connect ec) ec (s.connected + 1) s.accepted
  | accept {ec : ErrorCode} : s.accepted < accepts s.socks5State →
    Completes s (.accept ec) ec s.connected (s.accepted + 1)

/-- How an event can happen and what its result `r` is. -/
inductive Happens (s : ProxyBridge) (env : Env) (r : Except Fault ProxyBridge) : Event → Prop
  | clientRecv {bytes : List Byte} {ec : ErrorCode} {h' : Heap} {p' : Pipe} :
    s.upstream.recv s.heap bytes ec = some (h', p') → r = .ok { s with heap := h', upstream := p' } →
    Happens s env r (.clientRecv bytes ec)
  | destRecv {bytes : List Byte} {ec : ErrorCode} {h' : Heap} {p' : Pipe} :
    s.downstream.recv s.heap bytes ec = some (h', p') →
    r = .ok { s with heap := h', downstream := p' } → Happens s env r (.destRecv bytes ec)
  | clientSend {n : Nat} {ec : ErrorCode} {p' : Pipe} : s.downstream.send s.heap n ec = some p' →
    r = .ok { s with downstream := p' } → Happens s env r (.clientSend n ec)
  | destSend {n : Nat} {ec : ErrorCode} {p' : Pipe} : s.upstream.send s.heap n ec = some p' →
    r = .ok { s with upstream := p' } → Happens s env r (.destSend n ec)
  | handshakeRead {bufs : List SysBuf} {bytes : List Byte} {ec : ErrorCode} :
    s.upstream.readOp = some ⟨.socks5Handshake, bufs, some (bytes, ec)⟩ →
    socks5HandshakeHandler s env bytes ec = r → Happens s env r .clientRead
  | clientRead {bufs : List SysBuf} {bytes : List Byte} {ec : ErrorCode} :
    s.upstream.readOp = some ⟨.forward, bufs, some (bytes, ec)⟩ →
    clientReadHandler s bytes ec = r → Happens s env r .clientRead
  | destRead {handler : ReadHandler} {bufs : List SysBuf} {bytes : List Byte} {ec : ErrorCode} :
    s.downstream.readOp = some ⟨handler, bufs, some (bytes, ec)⟩ →
    destReadHandler s bytes ec = r → Happens s env r .destRead
  | clientWrite {bufs : List SysBuf} {bytes : List Byte} {ec : ErrorCode} :
    s.downstream.writeOp = some ⟨bufs, some (bytes, ec)⟩ →
    clientWriteHandler s bytes ec = r → Happens s env r .clientWrite
  | destWrite {bufs : List SysBuf} {bytes : List Byte} {ec : ErrorCode} :
    s.upstream.writeOp = some ⟨bufs, some (bytes, ec)⟩ →
    destWriteHandler s bytes ec = r → Happens s env r .destWrite
  | failed {e : Event} {ec : ErrorCode} {n m : Nat} : Completes s e ec n m → ec.failed = true →
    r = .ok { s with connected := n, accepted := m } → Happens s env r e
  | established {e : Event} {ec : ErrorCode} {n m : Nat} : Completes s e ec n m →
    ec.failed = false → established { s with connected := n, accepted := m } env = r →
    Happens s env r e

theorem happens_of_completes {e : Event} {ec : ErrorCode} {n m : Nat}
    {r : Except Fault ProxyBridge} (hc : Completes s e ec n m)
    (hr : (if ec.failed then pure { s with connected := n, accepted := m }
      else established { s with connected := n, accepted := m } env) = r) : Happens s env r e := by
  cases hfail : ec.failed with
  | true =>
    rw [hfail, if_pos rfl] at hr
    exact .failed hc hfail hr.symm
  | false =>
    rw [hfail, if_neg Bool.false_ne_true] at hr
    exact .established hc hfail hr

theorem happens_of_step {e : Event} {r : Except Fault ProxyBridge} (hs : step s env e = some r) :
    Happens s env r e := by
  cases e with
  | clientRecv bytes ec =>
    obtain ⟨_, heq, hr⟩ := Option.map_eq_some_iff.mp hs
    exact .clientRecv heq hr.symm
  | destRecv bytes ec =>
    obtain ⟨_, heq, hr⟩ := Option.map_eq_some_iff.mp hs
    exact .destRecv heq hr.symm
  | clientSend n ec =>
    obtain ⟨_, heq, hr⟩ := Option.map_eq_some_iff.mp hs
    exact .clientSend heq hr.symm
  | destSend n ec =>
    obtain ⟨_, heq, hr⟩ := Option.map_eq_some_iff.mp hs
    exact .destSend heq hr.symm
  | clientRead =>
    simp only [step] at hs
    split at hs
    · next hop => exact .handshakeRead hop (Option.some.inj hs)
    · next hop => exact .clientRead hop (Option.some.inj hs)
    · cases hs
  | destRead =>
    simp only [step] at hs
    split at hs
    · next hop => exact .destRead hop (Option.some.inj hs)
    · cases hs
  | clientWrite =>
    simp only [step] at hs
    split at hs
    · next hop => exact .clientWrite hop (Option.some.inj hs)
    · cases hs
  | destWrite =>
    simp only [step] at hs
    split at hs
    · next hop => exact .destWrite hop (Option.some.inj hs)
    · cases hs
  | connect ec =>
    simp only [step] at hs
    split at hs
    · next hlt => exact happens_of_completes (.connect hlt) (Option.some.inj hs)
    · cases hs
  | accept ec =>
    simp only [step] at hs
    split at hs
    · next hlt => exact happens_of_completes (.accept hlt) (Option.some.inj hs)
    · cases hs

/-- One event: no handler faults, and the invariant is kept. -/
theorem step_spec {e : Event} {r : Except Fault ProxyBridge} (hi : Inv s)
    (hs : step s env e = some r) : ∃ s', r = .ok s' ∧ Inv s' := by
  cases happens_of_step hs with
  | clientRecv heq hr => exact ⟨_, hr, clientRecv_spec hi heq⟩
  | destRecv heq hr => exact ⟨_, hr, destRecv_spec hi heq⟩
  | clientSend heq hr => exact ⟨_, hr, clientSend_spec hi heq⟩
  | destSend heq hr => exact ⟨_, hr, destSend_spec hi heq⟩
  | handshakeRead hop hr =>
    rcases hi with ⟨f, g, hc, hn⟩ | ⟨f, g, hc, hh⟩
    · cases hn.1 _ hop
    · obtain ⟨s', heq, hinv, -⟩ := socks5HandshakeHandler_spec hc hh hop rfl
      exact ⟨s', hr.symm.trans heq, hinv⟩
  | clientRead hop hr =>
    obtain ⟨s', heq, hf⟩ := clientReadHandler_spec (hi.forwarding (.inl ⟨_, hop, rfl⟩)) hop rfl
    exact ⟨s', hr.symm.trans heq, .inl hf⟩
  | destRead hop hr =>
    have hne : s.downstream.readOp ≠ none := by rw [hop]; simp
    obtain ⟨s', heq, hf⟩ := destReadHandler_spec (hi.forwarding (.inr (.inr (.inl hne)))) hop rfl
    exact ⟨s', hr.symm.trans heq, .inl hf⟩
  | clientWrite hop hr =>
    have hne : s.downstream.writeOp ≠ none := by rw [hop]; simp
    obtain ⟨s', heq, hf⟩ := clientWriteHandler_spec (hi.forwarding (.inr (.inr (.inr hne)))) hop rfl
    exact ⟨s', hr.symm.trans heq, .inl hf⟩
  | destWrite hop hr =>
    have hne : s.upstream.writeOp ≠ none := by rw [hop]; simp
    obtain ⟨s', heq, hf⟩ := destWriteHandler_spec (hi.forwarding (.inr (.inl hne))) hop rfl
    exact ⟨s', hr.symm.trans heq, .inl hf⟩
  | failed hc hfail hr => exact ⟨_, hr, hi.completed _ _⟩
  | established hc hfail hr =>
    obtain ⟨s', heq, hi'⟩ := established_spec (hi.completed _ _)
    exact ⟨s', hr.symm.trans heq, hi'⟩

theorem core_new {h : Heap} {i j : Nat} (hf : h.Fresh i j) : Core (.new h i j) {} {} := by
  have hpipe : ∀ n, PipeInv { buff := { freelist := n } } [] {} := by
    intro n
    refine ⟨rfl, ?_, ?_, ?_, fun _ => rfl⟩ <;> simp
  exact ⟨Buffer.pair_new hf, hpipe i, hpipe j, rfl⟩

theorem performSocks5Handshake_new {h : Heap} {i j : Nat} (hf : h.Fresh i j) :
    ∃ s, performSocks5Handshake (.new h i j) = .ok s ∧ Inv s ∧ ∃ h' b op,
      s = { ProxyBridge.new h i j with
        heap := h', upstream := { buff := b, readOp := some op } } :=
  performSocks5Handshake_spec (core_new hf) rfl rfl rfl rfl rfl (by simp [ProxyBridge.new])

theorem forwardTraffic_new {h : Heap} {i j : Nat} (hf : h.Fresh i j) :
    ∃ s, forwardTraffic (.new h i j) = .ok s ∧ Inv s := by
  obtain ⟨s, heq, hs⟩ := forwardTraffic_spec
    ⟨{}, {}, core_new hf, by simp [NoHandshakeRead, ProxyBridge.new]⟩
  exact ⟨s, heq, .inl hs⟩

theorem Reachable.inv (hr : Reachable env s) : Inv s := by
  induction hr with
  | handshake hf heq =>
    obtain ⟨s', heq', hi, -⟩ := performSocks5Handshake_new hf
    rw [heq] at heq'
    cases heq'
    exact hi
  | forward hf heq =>
    obtain ⟨s', heq', hi⟩ := forwardTraffic_new hf
    rw [heq] at heq'
    cases heq'
    exact hi
  | step _ heq ih =>
    obtain ⟨s', heq', hi⟩ := step_spec ih heq
    cases heq'
    exact hi

/-- Streams are preserved: at every moment, the bytes received from the client are the bytes that
the handshake consumed, then the bytes sent to the destination, then the content of the upstream
buffer; and the bytes received from the destination are the bytes sent to the client and the
content of the downstream buffer. No handler faults. -/
theorem streams_preserved (hr : Reachable env s) :
    (∃ content, Buffer.contents s.heap s.upstream.buff = .ok content ∧
      s.upstream.received = s.consumed ++ (s.upstream.sent ++ content)) ∧
    (∃ content, Buffer.contents s.heap s.downstream.buff = .ok content ∧
      s.downstream.received = s.downstream.sent ++ content) ∧
    ∀ e r, step s env e = some r → ∃ s', r = .ok s' := by
  obtain ⟨f, g, hc⟩ : ∃ f g, Core s f g := by
    rcases hr.inv with ⟨f, g, hc, -⟩ | ⟨f, g, hc, -⟩ <;> exact ⟨f, g, hc⟩
  obtain ⟨_, ⟨_, _, _, hup⟩, -⟩ := hc.pair.left
  obtain ⟨_, ⟨_, _, _, hdown⟩, -⟩ := hc.pair.symm.left
  refine ⟨⟨f.queue, hup.contents_eq, hc.up.stream⟩, ⟨g.queue, hdown.contents_eq, hc.down.stream⟩, ?_⟩
  intro e r hs
  obtain ⟨s', heq, -⟩ := step_spec hr.inv hs
  exact ⟨s', heq⟩

/-- A run of events. -/
def runEvents (env : Env) (s : ProxyBridge) : List Event → Option ProxyBridge
  | [] => some s
  | e :: es =>
    match step s env e with
    | some (.ok s') => runEvents env s' es
    | _ => none

theorem Reachable.runEvents {es : List Event} {s' : ProxyBridge} (hr : Reachable env s)
    (hrun : Bridge.runEvents env s es = some s') : Reachable env s' := by
  induction es generalizing s with
  | nil =>
    cases hrun
    exact hr
  | cons e es ih =>
    rw [Bridge.runEvents] at hrun
    split at hrun
    · next heq => exact ih (hr.step heq) hrun
    · cases hrun

end Runs

/-- Sockets that accept every response. -/
def Env.open : Env where
  write _ _ := true
  endpoint _ _ := some (.inet (arrayOf 4 [127, 0, 0, 1]) (arrayOf 2 [0, 80]))
  acceptor _ port := some port

/-- A handshake in two reads, of which the second brings four bytes of traffic. Two of these are
written to the destination before a write error, and the client sends two more meanwhile. -/
def handshakeAndTraffic : List Event :=
  [.clientRecv [5, 1, 0, 5, 1] .success, .clientRead,
    .clientRecv [0, 1, 127, 0, 0, 1, 0, 80, 21, 22, 23, 24] .success, .clientRead,
    .connect .success, .destSend 2 .other, .clientRecv [25, 26] .success, .destWrite, .clientRead]

theorem fresh_empty : Heap.empty.Fresh 0 0 := .inl ⟨rfl, Buffer.Heap.empty_valid 0⟩

/-- A run that ends as it should. -/
theorem exists_run (env : Env) (start : Except Fault ProxyBridge) (es : List Event)
    (P : ProxyBridge → Prop) [DecidablePred P]
    (hrun : (start.toOption.bind fun s => runEvents env s es).any fun s => P s) :
    ∃ s₀ s, start = .ok s₀ ∧ runEvents env s₀ es = some s ∧ P s := by
  obtain ⟨s, hs, hP⟩ := (Option.any_eq_true _ _).mp hrun
  obtain ⟨s₀, h₀, hrun₀⟩ := Option.bind_eq_some_iff.mp hs
  exact ⟨s₀, s, toOption_eq_some.mp h₀, hrun₀, of_decide_eq_true hP⟩

theorem streams_preserved_handshakeAndTraffic :
    ∃ s, Reachable .open s ∧ s.consumed = [5, 1, 0, 5, 1, 0, 1, 127, 0, 0, 1, 0, 80] ∧
      s.upstream.sent = [21, 22] ∧ ∃ content, Buffer.contents s.heap s.upstream.buff = .ok content ∧
        s.upstream.received = s.consumed ++ (s.upstream.sent ++ content) := by
  obtain ⟨s₀, s, h₀, hs, hconsumed, hsent⟩ := exists_run .open
    (performSocks5Handshake (.new .empty 0 0)) handshakeAndTraffic
    (fun s => s.consumed = [5, 1, 0, 5, 1, 0, 1, 127, 0, 0, 1, 0, 80] ∧
      s.upstream.sent = [21, 22]) (by decide +kernel)
  have hr : Reachable .open s := (Reachable.handshake fresh_empty h₀).runEvents hs
  exact ⟨s, hr, hconsumed, hsent, (streams_preserved hr).1⟩

end Bridge
end Proxy
end TrustedCa
