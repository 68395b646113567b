import TrustedCa.Proxy.BufferChain
import TrustedCa.Proxy.Socks5

/-!
# The proxy bridge (`proxy/src/proxy_bridge.{h,cc}`)

A `ProxyBridge` moves bytes between a client socket and a destination socket through two block
buffers. A `Pipe` is one direction: `upstream` is `upstream_buff_` with the flags `reading_client_`
and `writing_dest_`, `downstream` is `downstream_buff_` with `reading_dest_` and `writing_client_`.

* An asynchronous operation has two moments. The kernel fills the buffers of a read, or takes the
  bytes of a write, at some moment after it was started (`recv`, `send`), with any number of bytes
  up to the size of the buffers and any error code. Its handler runs later. Handlers run one at a
  time (the strand), and `step` is one such moment or one handler.
* `Pipe.received` and `Pipe.sent` record the bytes of the operations whose handlers have run, as
  the kernel saw them. `consumed` are the bytes that the SOCKS5 handshake copied out.
* The handshake's callbacks are those of `SetSocks5StateCallbacks`: `Env` is what the sockets
  answer. Socket options, cancellations and logging have no effect on the members; an operation
  that they cancel ends with an error code, and any operation may. `shutdowns` records the
  shutdowns of the sockets.
-/

namespace TrustedCa
namespace Proxy
namespace Bridge

open Buffer (BasicBuffer BlockSize Fault Heap SysBuf)
open Socks5 (CallbackStatus Ctl)

/-- `Buffer`, that is `BasicBuffer<4096>`. -/
def blockSize : BlockSize := ⟨4096, by decide⟩

def kMaxBufferSize : Nat := 32 * 1024

def kReadSize : Nat := 8 * 1024

/-- `boost::system::error_code`, as far as the handlers look at it. -/
inductive ErrorCode where
  | success | eof | other
  deriving DecidableEq

def ErrorCode.failed : ErrorCode → Bool
  | .success => false
  | .eof | .other => true

/-- The handler that a read was started with. -/
inductive ReadHandler where
  | socks5Handshake | forward
  deriving DecidableEq

/-- An outstanding `async_read_some`. `got` is what the kernel put into the buffers. -/
structure ReadOp where
  handler : ReadHandler
  buffers : List SysBuf
  got : Option (List Byte × ErrorCode) := none

/-- An outstanding `async_write_some`. `taken` is what the kernel took from the buffers. -/
structure WriteOp where
  buffers : List SysBuf
  taken : Option (List Byte × ErrorCode) := none

/-- `client_sock_.shutdown` and `dest_sock_.shutdown`, of the sending or the receiving side. -/
inductive Shutdown where
  | clientSend | clientReceive | destSend | destReceive
  deriving DecidableEq

/-- One direction of the traffic. -/
structure Pipe where
  buff : BasicBuffer
  reading : Bool := false
  writing : Bool := false
  readOp : Option ReadOp := none
  writeOp : Option WriteOp := none
  received : List Byte := []
  sent : List Byte := []

/-- A `ProxyBridge` as its constructor sets it. `connected` and `accepted` count the connects and
accepts that have completed. -/
structure ProxyBridge where
  heap : Heap
  upstream : Pipe
  downstream : Pipe
  socks5State : Ctl := {}
  consumed : List Byte := []
  clientReadable : Bool := true
  clientWritable : Bool := true
  destReadable : Bool := true
  destWritable : Bool := true
  connected : Nat := 0
  accepted : Nat := 0
  shutdowns : List Shutdown := []

/-- The constructor, with the freelists `i` and `j` of the two buffers. -/
def ProxyBridge.new (h : Heap) (i j : Nat) : ProxyBridge where
  heap := h
  upstream := { buff := { freelist := i } }
  downstream := { buff := { freelist := j } }

/-- What the sockets answer to the handshake: whether a response is written, the endpoint of the
destination socket, and the port of an acceptor. -/
structure Env where
  write : List Socks5.Call → List Byte → Bool
  endpoint : List Socks5.Call → Bool → Option Sockaddr
  acceptor : List Socks5.Call → UInt16 → Option UInt16

/-- `SetSocks5StateCallbacks`. -/
def Env.callbacks (env : Env) : Socks5.Callbacks where
  response calls data := if env.write calls data then .kStatusOK else .kStatusFail
  connect := some fun _ _ => .kStatusInProgress
  destAddress := some fun calls remote =>
    match env.endpoint calls remote with
    | some addr => (.kStatusOK, addr)
    | none => (.kStatusFail, .other 0)
  bind calls port :=
    match env.acceptor calls port with
    | some port => (.kStatusOK, port)
    | none => (.kStatusFail, port)

section Pipes

variable (h : Heap) (p : Pipe)

/-- `ReserveAtLeast` and `async_read_some`. -/
def Pipe.startRead (handler : ReadHandler) (size : Nat) : Except Fault (Heap × Pipe) := do
  let (buffers, h, b) ← Buffer.reserveAtLeast blockSize h p.buff size
  return (h, { p with buff := b, readOp := some ⟨handler, buffers, none⟩ })

/-- `Peek` and `async_write_some`. -/
def Pipe.startWrite : Except Fault Pipe := do
  let (buffers, b) ← Buffer.peek h p.buff
  return { p with buff := b, writing := true, writeOp := some ⟨buffers, none⟩ }

/-- `Commit` of the bytes that a read has got, in the read's handler. -/
def Pipe.commitRead (bytes : List Byte) : Except Fault (Heap × Pipe) := do
  let (h, b) ← Buffer.commit blockSize h p.buff bytes.length
  return (h, { p with buff := b, readOp := none, received := p.received ++ bytes })

/-- `Drain` of the bytes that a write has taken, in the write's handler. -/
def Pipe.drainWritten (bytes : List Byte) : Except Fault (Heap × Pipe) := do
  let (h, b) ← Buffer.drain blockSize h p.buff bytes.length
  return (h, { p with buff := b, writing := false, writeOp := none, sent := p.sent ++ bytes })

/-- The kernel puts bytes into the buffers of an outstanding read. -/
def Pipe.recv (bytes : List Byte) (ec : ErrorCode) : Option (Heap × Pipe) :=
  match p.readOp with
  | some ⟨handler, buffers, none⟩ =>
    if bytes.length ≤ Spec.Gather.total buffers then
      some (h.scatter buffers bytes, { p with readOp := some ⟨handler, buffers, some (bytes, ec)⟩ })
    else none
  | _ => none

/-- The kernel takes the first `n` bytes of the buffers of an outstanding write. -/
def Pipe.send (n : Nat) (ec : ErrorCode) : Option Pipe :=
  match p.writeOp with
  | some ⟨buffers, none⟩ =>
    if n ≤ Spec.Gather.total buffers then
      some { p with writeOp := some ⟨buffers, some ((h.read buffers).take n, ec)⟩ }
    else none
  | _ => none

end Pipes

variable (s : ProxyBridge)

/-! ## The handshake -/

/-- `PerformSocks5Handshake`. -/
def performSocks5Handshake : Except Fault ProxyBridge := do
  let (h, p) ← s.upstream.startRead s.heap .socks5Handshake 1
  return { s with heap := h, upstream := p }

/-- The upstream buffer, as `Proceed` sees it, and the bytes copied out of it. -/
structure Fed where
  heap : Heap
  buff : BasicBuffer
  consumed : List Byte

/-- The block buffer as a source of the handshake. -/
def bufferSource : Socks5.Source (Except Fault) Fed where
  dataSize st := st.buff.dataSize
  copyOut st n := do
    let (bytes, h, b) ← Buffer.copyOut blockSize st.heap st.buff n
    return (bytes, ⟨h, b, st.consumed ++ bytes⟩)

/-- `Socks5HandshakeHandler`. Seven iterations are enough for its loop: every `Proceed` that
returns true moves on to a later state. -/
def socks5HandshakeHandler (env : Env) (bytes : List Byte) (ec : ErrorCode) :
    Except Fault ProxyBridge := do
  let (h, p) ← s.upstream.commitRead s.heap bytes
  let s := { s with heap := h, upstream := p }
  if ec.failed then
    return s
  match ← Socks5.proceedLoop bufferSource env.callbacks 7
      ⟨s.socks5State, ⟨s.heap, s.upstream.buff, s.consumed⟩⟩ with
  | none => .error .outOfFuel
  | some r =>
    let s := { s with
      heap := r.buffer.heap
      upstream := { s.upstream with buff := r.buffer.buff }
      consumed := r.buffer.consumed
      socks5State := r.ctl }
    -- If we need to read more data to proceed, schedule reading.
    if Socks5.insufficientBuffer bufferSource r then performSocks5Handshake s else return s

/-! ## Forwarding -/

/-- The first block of `ForwardTraffic`: read the client. -/
def readClient : Except Fault ProxyBridge :=
  if !s.upstream.reading && s.clientReadable && s.destWritable
      && s.upstream.buff.dataSize < kMaxBufferSize then do
    let (h, p) ← s.upstream.startRead s.heap .forward kReadSize
    return { s with heap := h, upstream := { p with reading := true } }
  else
    return s

/-- The second block of `ForwardTraffic`: write to the client. -/
def writeClient : Except Fault ProxyBridge :=
  if !s.downstream.writing && s.clientWritable && 0 < s.downstream.buff.dataSize then do
    let p ← s.downstream.startWrite s.heap
    return { s with downstream := p }
  else
    return s

/-- The third block of `ForwardTraffic`: read the destination. -/
def readDest : Except Fault ProxyBridge :=
  if !s.downstream.reading && s.destReadable && s.clientWritable
      && s.downstream.buff.dataSize < kMaxBufferSize then do
    let (h, p) ← s.downstream.startRead s.heap .forward kReadSize
    return { s with heap := h, downstream := { p with reading := true } }
  else
    return s

/-- The fourth block of `ForwardTraffic`: write to the destination. -/
def writeDest : Except Fault ProxyBridge :=
  if !s.upstream.writing && s.destWritable && 0 < s.upstream.buff.dataSize then do
    let p ← s.upstream.startWrite s.heap
    return { s with upstream := p }
  else
    return s

/-- `ForwardTraffic`. -/
def forwardTraffic : Except Fault ProxyBridge := do
  let s ← readClient s
  let s ← writeClient s
  let s ← readDest s
  writeDest s

/-- `ClientReadHandler`. -/
def clientReadHandler (bytes : List Byte) (ec : ErrorCode) : Except Fault ProxyBridge := do
  let (h, p) ← s.upstream.commitRead s.heap bytes
  forwardTraffic { s with
    heap := h
    upstream := { p with reading := false }
    clientReadable := s.clientReadable && !ec.failed
    shutdowns := s.shutdowns ++
      if ec.failed && p.buff.dataSize == 0 then [.destSend] else [] }

/-- `ClientWriteHandler`. -/
def clientWriteHandler (bytes : List Byte) (ec : ErrorCode) : Except Fault ProxyBridge := do
  let (h, p) ← s.downstream.drainWritten s.heap bytes
  forwardTraffic { s with
    heap := h
    downstream := p
    clientWritable := s.clientWritable && !ec.failed && (s.destReadable || p.buff.dataSize ≠ 0)
    shutdowns := s.shutdowns ++ ((if ec.failed then [.destReceive] else []) ++
      if !s.destReadable && p.buff.dataSize == 0 then [.clientSend] else []) }

/-- `DestReadHandler`. -/
def destReadHandler (bytes : List Byte) (ec : ErrorCode) : Except Fault ProxyBridge := do
  let (h, p) ← s.downstream.commitRead s.heap bytes
  forwardTraffic { s with
    heap := h
    downstream := { p with reading := false }
    destReadable := s.destReadable && !ec.failed
    shutdowns := s.shutdowns ++
      if ec.failed && p.buff.dataSize == 0 then [.clientSend] else [] }

/-- `DestWriteHandler`. -/
def destWriteHandler (bytes : List Byte) (ec : ErrorCode) : Except Fault ProxyBridge := do
  let (h, p) ← s.upstream.drainWritten s.heap bytes
  forwardTraffic { s with
    heap := h
    upstream := p
    destWritable := s.destWritable && !ec.failed && (s.clientReadable || p.buff.dataSize ≠ 0)
    shutdowns := s.shutdowns ++ ((if ec.failed then [.clientReceive] else []) ++
      if !s.clientReadable && p.buff.dataSize == 0 then [.destSend] else []) }

/-- `ConnectHandler` and `AcceptInboundConnection` once there is a connection: the end of the
handshake, then the forwarding. -/
def established (env : Env) : Except Fault ProxyBridge :=
  let (succeeded, ctl) := Socks5.connectionSucceed env.callbacks s.socks5State
  let s := { s with socks5State := ctl }
  if succeeded then forwardTraffic s else return s

/-- `ConnectHandler`. -/
def connectHandler (env : Env) (ec : ErrorCode) : Except Fault ProxyBridge :=
  let s := { s with connected := s.connected + 1 }
  if ec.failed then return s else established s env

/-- The handler of `async_accept`. A failed accept only cancels the wait for the client. -/
def acceptHandler (env : Env) (ec : ErrorCode) : Except Fault ProxyBridge :=
  let s := { s with accepted := s.accepted + 1 }
  if ec.failed then return s else established s env

/-! ## Runs -/

/-- What may happen next: the kernel serves an outstanding read or write, or a handler runs. -/
inductive Event where
  | clientRecv (bytes : List Byte) (ec : ErrorCode)
  | clientSend (n : Nat) (ec : ErrorCode)
  | destRecv (bytes : List Byte) (ec : ErrorCode)
  | destSend (n : Nat) (ec : ErrorCode)
  | clientRead
  | clientWrite
  | destRead
  | destWrite
  | connect (ec : ErrorCode)
  | accept (ec : ErrorCode)

/-- The connects that the handshake has started. -/
def connects (c : Ctl) : Nat :=
  c.calls.countP fun | .connect _ _ => true | _ => false

/-- The accepts that the handshake has started. -/
def accepts (c : Ctl) : Nat :=
  c.calls.countP fun | .bind _ .kStatusOK => true | _ => false

/-- One event; `none` when it cannot happen. -/
def step (env : Env) : Event → Option (Except Fault ProxyBridge)
  | .clientRecv bytes ec =>
    (s.upstream.recv s.heap bytes ec).map fun (h, p) => .ok { s with heap := h, upstream := p }
  | .destRecv bytes ec =>
    (s.downstream.recv s.heap bytes ec).map fun (h, p) => .ok { s with heap := h, downstream := p }
  | .clientSend n ec => (s.downstream.send s.heap n ec).map fun p => .ok { s with downstream := p }
  | .destSend n ec => (s.upstream.send s.heap n ec).map fun p => .ok { s with upstream := p }
  | .clientRead =>
    match s.upstream.readOp with
    | some ⟨.socks5Handshake, _, some (bytes, ec)⟩ => some (socks5HandshakeHandler s env bytes ec)
    | some ⟨.forward, _, some (bytes, ec)⟩ => some (clientReadHandler s bytes ec)
    | _ => none
  | .destRead =>
    match s.downstream.readOp with
    | some ⟨_, _, some (bytes, ec)⟩ => some (destReadHandler s bytes ec)
    | _ => none
  | .clientWrite =>
    match s.downstream.writeOp with
    | some ⟨_, some (bytes, ec)⟩ => some (clientWriteHandler s bytes ec)
    | _ => none
  | .destWrite =>
    match s.upstream.writeOp with
    | some ⟨_, some (bytes, ec)⟩ => some (destWriteHandler s bytes ec)
    | _ => none
  | .connect ec =>
    if s.connected < connects s.socks5State then some (connectHandler s env ec) else none
  | .accept ec =>
    if s.accepted < accepts s.socks5State then some (acceptHandler s env ec) else none

/-- The states of a bridge that was started with `PerformSocks5Handshake` or with
`ForwardTraffic`. -/
inductive Reachable (env : Env) : ProxyBridge → Prop
  | handshake {h : Heap} {i j : Nat} {s : ProxyBridge} : h.Fresh i j →
    performSocks5Handshake (.new h i j) = .ok s → Reachable env s
  | forward {h : Heap} {i j : Nat} {s : ProxyBridge} : h.Fresh i j →
    forwardTraffic (.new h i j) = .ok s → Reachable env s
  | step {s s' : ProxyBridge} {e : Event} : Reachable env s → step s env e = some (.ok s') →
    Reachable env s'

end Bridge
end Proxy
end TrustedCa
