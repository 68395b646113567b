import TrustedCa.Proxy.BridgeStreams
import TrustedCa.Proxy.Reservation

/-!
# A bridge buffers a bounded number of bytes

A read is started on at most `kMaxBufferSize - 1` bytes of data, and `ReserveAtLeast` gives it less
than a block more than it asks for. While it is outstanding the data only shrinks, so the data and
what the read may still add stay below `bufferLimit` (`Within`).

Drained bytes leave a gap in the head block, and blocks of an earlier reservation stay behind the
data. Both are counted when blocks are appended, which happens only when the free space is less
than what the read asks for: so 12 blocks are enough.
-/

namespace TrustedCa
namespace Proxy
namespace Bridge

open Buffer (Accounted BasicBuffer Chan Fault Fifo Heap Pair SysBuf)
open Socks5 (Callbacks Ctl)
open Spec

/-- The data when the last read was started, and the largest reservation for it. -/
def bufferLimit : Nat := kMaxBufferSize - 1 + (kReadSize - 1) + blockSize.capacity

def blockLimit : Nat := 12

/-- The size of the region of an outstanding read. -/
def Pipe.reserved (p : Pipe) : Nat := (p.readOp.map fun op => Gather.total op.buffers).getD 0

/-- The data of a pipe stays within the limit, whatever an outstanding read adds to it. -/
structure Within (p : Pipe) : Prop where
  data : p.buff.dataSize + p.reserved ≤ bufferLimit
  blocks : p.buff.blockCnt ≤ blockLimit

section Pipe

variable {h h' : Heap} {p p' : Pipe} {d : Chan} {f g : Fifo} {pre bytes : List Byte}

/-- What the kernel has put into the region of a read fits into it. -/
theorem PipeInv.got_le {op : ReadOp} {ec : ErrorCode} (hi : PipeInv p pre f)
    (hp : Pair blockSize h p.chan d f g) (hop : p.readOp = some op)
    (hgot : op.got = some (bytes, ec)) : bytes.length ≤ Gather.total op.buffers := by
  obtain ⟨region, hregion, hlen, -⟩ := hi.got op hop _ hgot
  obtain ⟨others, ⟨full, rest, free, hr⟩, -⟩ := hp.left
  obtain ⟨bufs, hbufs, rfl⟩ := hr.region_of_resv hregion
  obtain rfl : op.buffers = bufs := by
    have hchan : p.chan.region = some bufs := hbufs
    rw [Pipe.chan, hop] at hchan
    exact Option.some.inj hchan
  rwa [Heap.length_read] at hlen

theorem startRead_within {handler : ReadHandler} {size : Nat}
    (hp : Pair blockSize h p.chan d f g) (hnone : p.readOp = none) (hsize : 0 < size)
    (hle : size ≤ kReadSize) (hlt : p.buff.dataSize < kMaxBufferSize) (hw : Within p)
    (heq : p.startRead h handler size = .ok (h', p')) : Within p' := by
  have hregion : p.chan.region = none := by rw [Pipe.chan, hnone]; rfl
  obtain ⟨⟨ret, h₁, b⟩, hres, heq⟩ := bind_eq_ok.mp heq
  cases heq
  obtain ⟨others, ⟨full, rest, free, hr⟩, -⟩ := hp.left
  obtain ⟨ret', h₁', b', hres', -, htot, hresv⟩ := hr.reserveAtLeast_reserved hregion hsize
  have hsame : Buffer.reserveAtLeast blockSize h p.buff size = .ok (ret', h₁', b') := hres'
  rw [hres] at hsame
  cases hsame
  have hcap : blockSize.capacity = 4072 := rfl
  have hdata : b.dataSize = p.buff.dataSize := hresv.data
  unfold kMaxBufferSize at hlt
  unfold kReadSize at hle
  refine ⟨?_, hresv.blockCnt_le hr hw.blocks ?_⟩
  · show b.dataSize + Gather.total ret ≤ bufferLimit
    unfold bufferLimit kMaxBufferSize kReadSize
    omega
  · show p.buff.dataSize + size + 2 * blockSize.capacity ≤ (blockLimit + 1) * blockSize.capacity
    unfold blockLimit
    omega

theorem startWrite_within (hw : Within p) (heq : p.startWrite h = .ok p') : Within p' := by
  obtain ⟨⟨ret, b⟩, hpeek, heq⟩ := bind_eq_ok.mp heq
  cases heq
  obtain rfl := Buffer.peek_members hpeek
  exact ⟨hw.data, hw.blocks⟩

theorem commitRead_within {op : ReadOp} {ec : ErrorCode} (hp : Pair blockSize h p.chan d f g)
    (hi : PipeInv p pre f) (hop : p.readOp = some op) (hgot : op.got = some (bytes, ec))
    (hw : Within p) (heq : p.commitRead h bytes = .ok (h', p')) : Within p' := by
  have hregion : p.chan.region = some op.buffers := by rw [Pipe.chan, hop]; rfl
  have hlen := hi.got_le hp hop hgot
  obtain ⟨⟨h₁, b⟩, hcommit, heq⟩ := bind_eq_ok.mp heq
  cases heq
  obtain ⟨others, ⟨full, rest, free, hr⟩, -⟩ := hp.left
  obtain ⟨hdata, hcnt⟩ := hr.commit_members hregion hlen hcommit
  have hreserved : p.reserved = Gather.total op.buffers := by rw [Pipe.reserved, hop]; rfl
  have hbound := hw.data
  refine ⟨?_, Nat.le_trans (Nat.le_of_eq hcnt) hw.blocks⟩
  show b.dataSize + 0 ≤ bufferLimit
  have hdata' : b.dataSize = p.buff.dataSize + bytes.length := hdata
  omega

theorem drainWritten_within (hw : Within p) (heq : p.drainWritten h bytes = .ok (h', p')) :
    Within p' := by
  obtain ⟨⟨h₁, b⟩, hdrain, heq⟩ := bind_eq_ok.mp heq
  cases heq
  obtain ⟨hdata, hcnt⟩ := Buffer.drain_members hdrain
  have hbound := hw.data
  refine ⟨?_, Nat.le_trans hcnt hw.blocks⟩
  show b.dataSize + p.reserved ≤ bufferLimit
  omega

theorem recv_within {ec : ErrorCode} (hw : Within p) (heq : p.recv h bytes ec = some (h', p')) :
    Within p' := by
  obtain ⟨handler, buffers, hop, -, -, rfl⟩ := Pipe.recv_eq_some heq
  have hbound := hw.data
  rw [Pipe.reserved, hop] at hbound
  exact ⟨hbound, hw.blocks⟩

theorem send_within {n : Nat} {ec : ErrorCode} (hw : Within p) (heq : p.send h n ec = some p') :
    Within p' := by
  obtain ⟨buffers, -, -, rfl⟩ := Pipe.send_eq_some heq
  exact ⟨hw.data, hw.blocks⟩

end Pipe

/-! ## The bridge -/

/-- Both buffers stay within the limits, and the handshake never waits for more than the methods of
a greeting. -/
structure Bounded (s : ProxyBridge) : Prop where
  up : Within s.upstream
  down : Within s.downstream
  required : s.socks5State.requiredSize ≤ 255

section Forward

variable {s s' : ProxyBridge}

theorem readClient_bounded (hf : Forwarding s) (hb : Bounded s) (heq : readClient s = .ok s') :
    Bounded s' := by
  obtain ⟨f, g, hc, hn⟩ := hf
  unfold readClient at heq
  split at heq
  · next hcond =>
    simp only [Bool.and_eq_true, Bool.not_eq_true', decide_eq_true_eq] at hcond
    obtain ⟨⟨h, p⟩, hstart, heq⟩ := bind_eq_ok.mp heq
    cases heq
    have hw := startRead_within hc.pair (hc.up.readOp_none hcond.1.1.1 hn.1) (by decide)
      (Nat.le_refl _) hcond.2 hb.up hstart
    exact ⟨⟨hw.data, hw.blocks⟩, hb.down, hb.required⟩
  · cases heq
    exact hb

theorem readDest_bounded (hf : Forwarding s) (hb : Bounded s) (heq : readDest s = .ok s') :
    Bounded s' := by
  obtain ⟨f, g, hc, hn⟩ := hf
  unfold readDest at heq
  split at heq
  · next hcond =>
    simp only [Bool.and_eq_true, Bool.not_eq_true', decide_eq_true_eq] at hcond
    obtain ⟨⟨h, p⟩, hstart, heq⟩ := bind_eq_ok.mp heq
    cases heq
    have hw := startRead_within hc.pair.symm (hc.down.readOp_none hcond.1.1.1 hn.2) (by decide)
      (Nat.le_refl _) hcond.2 hb.down hstart
    exact ⟨hb.up, ⟨hw.data, hw.blocks⟩, hb.required⟩
  · cases heq
    exact hb

theorem writeClient_bounded (hb : Bounded s) (heq : writeClient s = .ok s') : Bounded s' := by
  unfold writeClient at heq
  split at heq
  · obtain ⟨p, hstart, heq⟩ := bind_eq_ok.mp heq
    cases heq
    exact ⟨hb.up, startWrite_within hb.down hstart, hb.required⟩
  · cases heq
    exact hb

theorem writeDest_bounded (hb : Bounded s) (heq : writeDest s = .ok s') : Bounded s' := by
  unfold writeDest at heq
  split at heq
  · obtain ⟨p, hstart, heq⟩ := bind_eq_ok.mp heq
    cases heq
    exact ⟨startWrite_within hb.up hstart, hb.down, hb.required⟩
  · cases heq
    exact hb

theorem forwardTraffic_bounded (hf : Forwarding s) (hb : Bounded s)
    (heq : forwardTraffic s = .ok s') : Bounded s' := by
  obtain ⟨s₁, _, _, h₁, hf₁, -⟩ := readClient_spec hf
  obtain ⟨s₂, _, h₂, hf₂, -⟩ := writeClient_spec hf₁
  obtain ⟨s₃, _, _, h₃, hf₃, -⟩ := readDest_spec hf₂
  simp only [forwardTraffic, bind, Except.bind, h₁, h₂, h₃] at heq
  have hb₂ := writeClient_bounded (readClient_bounded hf hb h₁) h₂
  exact writeDest_bounded (readDest_bounded hf₂ hb₂ h₃) heq

variable {bytes : List Byte} {ec : ErrorCode}

theorem clientReadHandler_bounded {op : ReadOp} (hf : Forwarding s) (hb : Bounded s)
    (hop : s.upstream.readOp = some op) (hgot : op.got = some (bytes, ec))
    (heq : clientReadHandler s bytes ec = .ok s') : Bounded s' := by
  obtain ⟨h', p', hcommit, hf'⟩ := hf.clientCommitted hop hgot
  obtain ⟨f, g, hc, -⟩ := hf
  have hw := commitRead_within hc.pair hc.up hop hgot hb.up hcommit
  rw [clientReadHandler, hcommit] at heq
  exact forwardTraffic_bounded (hf' ..) ⟨⟨hw.data, hw.blocks⟩, hb.down, hb.required⟩ heq

theorem destReadHandler_bounded {op : ReadOp} (hf : Forwarding s) (hb : Bounded s)
    (hop : s.downstream.readOp = some op) (hgot : op.got = some (bytes, ec))
    (heq : destReadHandler s bytes ec = .ok s') : Bounded s' := by
  obtain ⟨h', p', hcommit, hf'⟩ := hf.destCommitted hop hgot
  obtain ⟨f, g, hc, -⟩ := hf
  have hw := commitRead_within hc.pair.symm hc.down hop hgot hb.down hcommit
  rw [destReadHandler, hcommit] at heq
  exact forwardTraffic_bounded (hf' ..) ⟨hb.up, ⟨hw.data, hw.blocks⟩, hb.required⟩ heq

theorem clientWriteHandler_bounded {op : WriteOp} (hf : Forwarding s) (hb : Bounded s)
    (hop : s.downstream.writeOp = some op) (htaken : op.taken = some (bytes, ec))
    (heq : clientWriteHandler s bytes ec = .ok s') : Bounded s' := by
  obtain ⟨h', p', hdrain, hf'⟩ := hf.clientDrained hop htaken
  rw [clientWriteHandler, hdrain] at heq
  exact forwardTraffic_bounded (hf' ..) ⟨hb.up, drainWritten_within hb.down hdrain, hb.required⟩ heq

theorem destWriteHandler_bounded {op : WriteOp} (hf : Forwarding s) (hb : Bounded s)
    (hop : s.upstream.writeOp = some op) (htaken : op.taken = some (bytes, ec))
    (heq : destWriteHandler s bytes ec = .ok s') : Bounded s' := by
  obtain ⟨h', p', hdrain, hf'⟩ := hf.destDrained hop htaken
  rw [destWriteHandler, hdrain] at heq
  exact forwardTraffic_bounded (hf' ..) ⟨drainWritten_within hb.up hdrain, hb.down, hb.required⟩ heq

end Forward

/-! ## The handshake -/

section Handshake

variable {cb : Callbacks} {c : Ctl}

theorem required_reply (isBind : Bool) :
    (Socks5.reply cb c isBind).2.requiredSize = c.requiredSize := by
  show (Socks5.createResp cb c isBind).2.requiredSize = c.requiredSize
  unfold Socks5.createResp
  split
  · rfl
  · dsimp only
    split <;> rfl

theorem required_connectionSucceed (cb : Callbacks) (c : Ctl) :
    (Socks5.connectionSucceed cb c).2.requiredSize = c.requiredSize := by
  by_cases hwait : c.state = .kWaitConnect ∨ c.state = .kWaitAccept
  · rw [Socks5.connectionSucceed_waiting hwait]
    exact required_reply _
  · rw [Socks5.connectionSucceed_other hwait]
    rfl

/-- No transition of the handshake asks for more bytes than the methods of a greeting. -/
theorem required_onGroup (hc : c.requiredSize ≤ 255) (bytes : List Byte) :
    (c.onGroup cb bytes).2.requiredSize ≤ 255 := by
  cases hs : c.state <;> simp only [Ctl.onGroup, hs]
  case kGreetingHeader =>
    have hlt := (bytes.getD 1 0).toNat_lt
    unfold Socks5.onGreetingHeader
    split
    · exact hc
    · exact Nat.le_of_lt_succ hlt
  case kGreetingMethods =>
    unfold Socks5.onGreetingMethods
    dsimp only
    split
    · split
      · exact (by decide : 4 ≤ 255)
      · exact hc
    · exact hc
  case kRequestHeader =>
    unfold Socks5.onRequestHeader
    dsimp only
    repeat' split
    all_goals first
      | exact hc
      | exact (by decide : 6 ≤ 255)
      | exact (by decide : 18 ≤ 255)
  case kRequestAddrV4 | kRequestAddrV6 =>
    unfold Socks5.onRequestAddr
    split
    · exact Nat.zero_le _
    · dsimp only
      split <;> exact Nat.zero_le _
  case kRequestBind =>
    unfold Socks5.onRequestBind
    dsimp only
    split
    · exact Nat.zero_le _
    · split <;> exact Nat.zero_le _
  case kResponse =>
    rw [Socks5.onResponse_eq]
    split
    · exact (by decide : 1 ≤ 255)
    · exact (required_reply false).trans_le hc
  case kFail => exact Nat.zero_le _
  all_goals exact hc

variable {s s' : ProxyBridge} {env : Env} {f g : Fifo} {bytes : List Byte} {ec : ErrorCode}

theorem performSocks5Handshake_bounded (hc : Core s f g) (hread : s.upstream.readOp = none)
    (hlt : s.upstream.buff.dataSize < kMaxBufferSize) (hb : Bounded s)
    (heq : performSocks5Handshake s = .ok s') : Bounded s' := by
  obtain ⟨⟨h, p⟩, hstart, heq⟩ := bind_eq_ok.mp heq
  cases heq
  exact ⟨startRead_within hc.pair hread Nat.one_pos (by decide) hlt hb.up hstart, hb.down,
    hb.required⟩

theorem socks5HandshakeHandler_bounded {op : ReadOp} (hc : Core s f g) (hh : HandshakeRead s)
    (hb : Bounded s) (hop : s.upstream.readOp = some op) (hgot : op.got = some (bytes, ec))
    (heq : socks5HandshakeHandler s env bytes ec = .ok s') : Bounded s' := by
  obtain ⟨h', p', f', hcommit, hp', hp, hi⟩ := commitRead_spec hc.pair hc.up hop hgot
  have hw := commitRead_within hc.pair hc.up hop hgot hb.up hcommit
  have hread : p'.readOp = none := by rw [hp']
  have hwrite : p'.writeOp = none := by rw [hp']; exact hh.writeOp
  have hsent : p'.sent = [] := by rw [hp']; exact hh.sent
  have hc₁ : Core { s with heap := h', upstream := p' } f' g := ⟨hp, hi p'.reading, hc.down, hc.wf⟩
  rw [socks5HandshakeHandler, hcommit] at heq
  by_cases hfail : ec.failed
  · simp only [bind, Except.bind, hfail, if_true] at heq
    cases heq
    exact ⟨hw, hb.down, hb.required⟩
  · obtain ⟨st, r, f₂, hloop, hfinish, hsize, ⟨hcnt, hlen⟩, hc₂⟩ :=
      handshakeLoop_spec env hc₁ hread hwrite hsent
    have hrequired : r.requiredSize ≤ 255 := by
      have hkept : (Socks5.finish env.callbacks ⟨s.socks5State, f'.queue⟩).ctl.requiredSize ≤ 255 :=
        Socks5.finish_induct (P := fun c => c.requiredSize ≤ 255)
          (fun _ g _ h => required_onGroup h g) hc.wf hb.required
      rw [hfinish] at hkept
      exact hkept
    have hshrunk : Within { p' with buff := st.buff } := by
      have hold : p'.buff.dataSize = f'.queue.length := hp.size
      have hdata := hw.data
      refine ⟨?_, Nat.le_trans hcnt hw.blocks⟩
      show st.buff.dataSize + p'.reserved ≤ bufferLimit
      omega
    simp only [bind, Except.bind, hfail, Bool.false_eq_true, if_false, hloop] at heq
    by_cases hlack : Socks5.insufficientBuffer bufferSource ⟨r, st⟩
    · simp only [hlack, if_true] at heq
      have hlt : st.buff.dataSize < r.requiredSize := by
        simpa [Socks5.insufficientBuffer, bufferSource] using hlack
      have hroom : st.buff.dataSize < kMaxBufferSize :=
        Nat.lt_trans (Nat.lt_of_lt_of_le hlt hrequired) (by decide)
      exact performSocks5Handshake_bounded hc₂ hread hroom ⟨hshrunk, hb.down, hrequired⟩ heq
    · simp only [hlack, Bool.false_eq_true, if_false] at heq
      cases heq
      exact ⟨hshrunk, hb.down, hrequired⟩

theorem established_bounded (hi : Inv s) (hb : Bounded s) (heq : established s env = .ok s') :
    Bounded s' := by
  have hb' : Bounded { s with
      socks5State := (Socks5.connectionSucceed env.callbacks s.socks5State).2 } :=
    ⟨hb.up, hb.down, (required_connectionSucceed _ _).trans_le hb.required⟩
  unfold established at heq
  dsimp only at heq
  split at heq
  · next hsucceed => exact forwardTraffic_bounded (hi.succeeded hsucceed) hb' heq
  · cases heq
    exact hb'

end Handshake

/-! ## Runs -/

section Runs

variable {s s' : ProxyBridge} {env : Env}

theorem bounded_new (h : Heap) (i j : Nat) : Bounded (.new h i j) :=
  ⟨⟨Nat.zero_le _, Nat.zero_le _⟩, ⟨Nat.zero_le _, Nat.zero_le _⟩, (by decide : 2 ≤ 255)⟩

/-- One event. -/
theorem Bounded.step {e : Event} (hi : Inv s) (hb : Bounded s)
    (hs : step s env e = some (.ok s')) : Bounded s' := by
  cases happens_of_step hs with
  | clientRecv heq hr =>
    cases hr
    exact ⟨recv_within hb.up heq, hb.down, hb.required⟩
  | destRecv heq hr =>
    cases hr
    exact ⟨hb.up, recv_within hb.down heq, hb.required⟩
  | clientSend heq hr =>
    cases hr
    exact ⟨hb.up, send_within hb.down heq, hb.required⟩
  | destSend heq hr =>
    cases hr
    exact ⟨send_within hb.up heq, hb.down, hb.required⟩
  | handshakeRead hop hr =>
    rcases hi with ⟨f, g, hc, hn⟩ | ⟨f, g, hc, hh⟩
    · cases hn.1 _ hop
    · exact socks5HandshakeHandler_bounded hc hh hb hop rfl hr
  | clientRead hop hr =>
    exact clientReadHandler_bounded (hi.forwarding (.inl ⟨_, hop, rfl⟩)) hb hop rfl hr
  | destRead hop hr =>
    have hne : s.downstream.readOp ≠ none := by rw [hop]; simp
    exact destReadHandler_bounded (hi.forwarding (.inr (.inr (.inl hne)))) hb hop rfl hr
  | clientWrite hop hr =>
    have hne : s.downstream.writeOp ≠ none := by rw [hop]; simp
    exact clientWriteHandler_bounded (hi.forwarding (.inr (.inr (.inr hne)))) hb hop rfl hr
  | destWrite hop hr =>
    have hne : s.upstream.writeOp ≠ none := by rw [hop]; simp
    exact destWriteHandler_bounded (hi.forwarding (.inr (.inl hne))) hb hop rfl hr
  | failed hc hfail hr =>
    cases hr
    exact ⟨hb.up, hb.down, hb.required⟩
  | @established _ _ n m hc hfail hr =>
    have hb' : Bounded { s with connected := n, accepted := m } := ⟨hb.up, hb.down, hb.required⟩
    exact established_bounded (hi.completed n m) hb' hr

theorem Reachable.bounded (hr : Reachable env s) : Bounded s := by
  induction hr with
  | handshake hf heq =>
    have hpos : 0 < kMaxBufferSize := by decide
    exact performSocks5Handshake_bounded (core_new hf) rfl hpos (bounded_new ..) heq
  | forward hf heq =>
    have hforward : Forwarding (.new _ _ _) :=
      ⟨{}, {}, core_new hf, by simp [NoHandshakeRead, ProxyBridge.new]⟩
    exact forwardTraffic_bounded hforward (bounded_new ..) heq
  | step hr hs ih => exact ih.step hr.inv hs

/-- A buffer of a bridge: its chain, its data and its blocks. -/
def AtMost (h : Heap) (b : BasicBuffer) (size blocks : Nat) : Prop :=
  ∃ ns, Accounted blockSize h b ns ∧ b.dataSize ≤ size ∧ ns.length ≤ blocks

theorem Within.atMost {h : Heap} {p : Pipe} {d : Chan} {f g : Fifo} (hw : Within p)
    (hp : Pair blockSize h p.chan d f g) : AtMost h p.buff bufferLimit blockLimit := by
  obtain ⟨others, ⟨full, rest, free, hr⟩, -⟩ := hp.left
  have hacc : Accounted blockSize h p.buff (full ++ rest) := hr.accounted
  exact ⟨_, hacc, Nat.le_trans (Nat.le_add_right ..) hw.data, hacc.count ▸ hw.blocks⟩

/-- In every reachable state of a bridge each of its two buffers holds at most 45030 bytes of data,
in at most 12 blocks. -/
theorem buffers_bounded (hr : Reachable env s) :
    AtMost s.heap s.upstream.buff 45030 12 ∧ AtMost s.heap s.downstream.buff 45030 12 := by
  obtain ⟨f, g, hc⟩ : ∃ f g, Core s f g := by
    rcases hr.inv with ⟨f, g, hc, -⟩ | ⟨f, g, hc, -⟩ <;> exact ⟨f, g, hc⟩
  have hb := hr.bounded
  exact ⟨hb.up.atMost hc.pair, hb.down.atMost hc.pair.symm⟩

/-- After a handshake and some traffic. -/
theorem buffers_bounded_handshakeAndTraffic :
    ∃ s, Reachable .open s ∧ s.upstream.buff.dataSize = 4 ∧
      AtMost s.heap s.upstream.buff 45030 12 ∧ AtMost s.heap s.downstream.buff 45030 12 := by
  obtain ⟨s₀, s, h₀, hs, hsize⟩ := exists_run .open (performSocks5Handshake (.new .empty 0 0))
    handshakeAndTraffic (fun s => s.upstream.buff.dataSize = 4) (by decide +kernel)
  have hr : Reachable .open s := (Reachable.handshake fresh_empty h₀).runEvents hs
  exact ⟨s, hr, hsize, buffers_bounded hr⟩

end Runs

end Bridge
end Proxy
end TrustedCa
