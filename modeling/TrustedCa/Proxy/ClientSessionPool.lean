import TrustedCa.Proxy.SocketVendor

/-!
# The socket vendor's pool (`proxy/src/client_session_pool.{h,cc}`)

A `ClientSessionPool` serves one listening socket of an application. Each slot of its pool is a
connection to the proxy with a BIND request; when the proxy reports an inbound connection on it, the
descriptor of the slot's socket goes to the application and the slot starts again.

* A socket is a number, new for every `Socket` object. `ops` are the outstanding asynchronous
  operations, each with the index that was bound into its handler. An event names an operation by its
  position, so nothing is assumed about how many operations a slot has.
* A read has several moments. The kernel puts bytes into the slot's buffer (`recv`) until the read
  ends: `async_read` when all bytes are there or with an error, `async_read_some` with the first
  ones. Its handler (`resp`) runs later. Handlers run one at a time.
* Blocking calls take their outcome from `StartEnv`, or from the event. An access behind the end of a
  vector is a `Fault`.
* `log` records what others can see: the messages to the application, the requests to the proxy and
  the sockets that were closed. The sockets that `Stop` closes are left out: afterwards every handler
  returns at once.
-/

namespace TrustedCa
namespace Proxy
namespace SessionPool

open SocketVendor (BindRequest ListenRequest NewConnectionResponse)

def k2ndBindResponseSize : Nat := 22

def kMaxConnections : Int32 := 128

/-- `MicroBuffer`, of `kMicroBufferSize` bytes. -/
abbrev MicroBuffer := Bytes 24

/-- An index behind the end of a vector. -/
inductive Fault where
  | outOfRange
  deriving DecidableEq

/-- Which reply of the proxy a read waits for, and with it the handler of the read. -/
inductive Resp where
  | first | second
  deriving DecidableEq

/-- The size of the buffer of a read. -/
def Resp.size : Resp → Nat
  | .first => 12
  | .second => k2ndBindResponseSize

/-- A read: `async_read` (`whole`) or `async_read_some`, the bytes that have arrived, and, once it
has ended, whether with an error. -/
structure Read where
  resp : Resp
  whole : Bool
  bytes : List Byte := []
  ended : Option Bool := none
  deriving DecidableEq

/-- An asynchronous operation: on a socket of the pool, or `async_wait` on the client's socket. -/
inductive Pending where
  | connect (sock : Nat)
  | read (sock : Nat) (r : Read)
  | wait
  deriving DecidableEq

/-- An outstanding operation with the index bound into its handler. -/
structure Op where
  index : Nat
  pending : Pending
  deriving DecidableEq

/-- What others can see of the pool. -/
inductive Action where
  | bindResponse (port : UInt16)
  | listenResponse
  | request (sock : Nat) (bytes : Bytes 13)
  | descriptor (sock : Nat) (data : MicroBuffer) (bytesSent : Int)
  | close (sock : Nat)
  deriving DecidableEq

/-- A `ClientSessionPool` as its constructor sets it. `sockets` counts the sockets made so far. -/
structure ClientSessionPool where
  pool : List Nat := []
  capacity : Nat := 0
  buffers : List MicroBuffer := []
  proxyBindRequest : Bytes 13 := arrayOf 13 []
  numberOfErrors : Nat := 0
  poolSize : Nat := 0
  port : UInt16 := 0
  stop : Bool := false
  ops : List Op := []
  sockets : Nat := 0
  log : List Action := []

section Access

variable (s : ClientSessionPool)

/-- `pool_[index]`. -/
def ClientSessionPool.sock (index : Nat) : Except Fault Nat :=
  match s.pool[index]? with
  | some sock => .ok sock
  | none => .error .outOfRange

/-- `buffers_[index].data`. -/
def ClientSessionPool.buffer (index : Nat) : Except Fault MicroBuffer :=
  match s.buffers[index]? with
  | some data => .ok data
  | none => .error .outOfRange

/-- `pool_.push_back(std::move(sock))`. -/
def ClientSessionPool.pushBack (sock : Nat) : ClientSessionPool :=
  { s with pool := s.pool ++ [sock], capacity := max s.capacity (s.pool.length + 1) }

/-- `pool_.emplace_back(executor)`: a new socket at the end. -/
def ClientSessionPool.emplaceBack : ClientSessionPool :=
  { s.pushBack s.sockets with sockets := s.sockets + 1 }

/-- Start an operation. -/
def ClientSessionPool.begin (index : Nat) (pending : Pending) : ClientSessionPool :=
  { s with ops := s.ops ++ [⟨index, pending⟩] }

/-- Do something that others can see. -/
def ClientSessionPool.act (action : Action) : ClientSessionPool :=
  { s with log := s.log ++ [action] }

/-- `number_of_errors_++`. -/
def ClientSessionPool.fail : ClientSessionPool :=
  { s with numberOfErrors := s.numberOfErrors + 1 }

end Access

/-! ## `Start` -/

/-- The greeting and the BIND request for `0.0.0.0` and port 0. -/
def bindReqTemplate : Bytes 13 :=
  ⟨[0x05, 0x01, 0x00, 0x05, 0x02, 0x00, 0x01, 0x00, 0x00, 0x00, 0x00, 0x00, 0x00], rfl⟩

theorem fillPort_length (req : Bytes 13) (port : Bytes 2) :
    (req.val.take 11 ++ port.val).length = 13 := by
  simp [req.property, port.property]

/-- Fill in the port, the last two bytes of a request. -/
def fillPort (req : Bytes 13) (port : Bytes 2) : Bytes 13 :=
  ⟨req.val.take 11 ++ port.val, fillPort_length req port⟩

/-- What the blocking calls of `Start` answer: the request of the application to bind (`none` when
the read fails), whether the connect and the write to the proxy succeed, the reply of the proxy to
the request, whether the responses to the application are sent, and its request to listen. -/
structure StartEnv where
  bindRequest : Option BindRequest
  connect : Bool
  write : Bool
  reply : Bytes 13 → Option (Bytes 12)
  sendBindResponse : Bool
  listenRequest : Option ListenRequest
  sendListenResponse : Bool

/-- `Start` up to the end of the bind call. -/
def startBind (env : StartEnv) (s : ClientSessionPool) : Bool × ClientSessionPool :=
  let s := { s with pool := [] }
  match env.bindRequest with
  | none => (false, s)
  | some bindReq =>
    if bindReq.type ≠ .kBindRequest then
      (false, s)
    else
      let first := s.sockets
      let s := { s with sockets := s.sockets + 1 }
      if !env.connect then
        (false, s)
      else
        let s := { s with proxyBindRequest := fillPort bindReqTemplate (htons bindReq.port) }
        if !env.write then
          (false, s)
        else
          let s := s.act (.request first s.proxyBindRequest)
          match env.reply s.proxyBindRequest with
          | none => (false, s)
          | some proxyRespBuf =>
            if proxyRespBuf.val.getD 3 0 ≠ 0x00 then
              (false, s)
            else
              -- The port bound by the proxy is put into the request for the pool to use.
              let port := arrayOf 2 (proxyRespBuf.val.drop 10)
              let s := { s with
                proxyBindRequest := fillPort s.proxyBindRequest port, port := ntohs port }
              if !env.sendBindResponse then
                (false, s)
              else
                (true, (s.act (.bindResponse s.port)).pushBack first)

/-- `buffers_.resize(n)`. -/
def resize (buffers : List MicroBuffer) (n : Nat) : List MicroBuffer :=
  (buffers ++ List.replicate n (arrayOf 24 [])).take n

/-- `Start` from the listen call on. -/
def startListen (env : StartEnv) (s : ClientSessionPool) :
    Except Fault (Bool × ClientSessionPool) :=
  match env.listenRequest with
  | none => return (false, s)
  | some listenReq =>
    if listenReq.type ≠ .kListenRequest then
      return (false, s)
    else if !env.sendListenResponse then
      return (false, s)
    else
      let s := s.act .listenResponse
      if listenReq.backlog < 0 then
        return (false, s)
      else do
        let backlog :=
          if kMaxConnections < listenReq.backlog then kMaxConnections else listenReq.backlog
        let s := { s with
          poolSize := backlog.toInt.toNat
          capacity := max s.capacity backlog.toInt.toNat
          buffers := resize s.buffers backlog.toInt.toNat }
        -- The first slot has already run the connect and the first response.
        let sock ← s.sock 0
        let _ ← s.buffer 0
        let s := s.begin 0 (.read sock { resp := .second, whole := false })
        let s := s.emplaceBack
        let sock ← s.sock 1
        return (true, s.begin 1 (.connect sock))

/-- `Start`. -/
def start (env : StartEnv) (s : ClientSessionPool) : Except Fault (Bool × ClientSessionPool) :=
  let (bound, s) := startBind env s
  if bound then startListen env s else return (false, s)

/-! ## The handlers -/

section Handlers

variable (s : ClientSessionPool) (index : Nat)

/-- `InitiateSocket`. -/
def initiateSocket : Except Fault ClientSessionPool := do
  let sock ← s.sock index
  let s := s.act (.close sock)
  let s := { s with pool := s.pool.set index s.sockets, sockets := s.sockets + 1 }
  let sock ← s.sock index
  return s.begin index (.connect sock)

/-- `HandleConnect`. `written`: the request could be written. -/
def handleConnect (failed written : Bool) : Except Fault ClientSessionPool := do
  let sock ← s.sock index
  if s.stop then
    return s
  if failed then
    initiateSocket s.fail index
  else if !written then
    initiateSocket s.fail index
  else do
    let s := s.act (.request sock s.proxyBindRequest)
    let _ ← s.buffer index
    return s.begin index (.read sock { resp := .first, whole := true })

/-- `Handle1stResp`. -/
def handle1stResp (failed : Bool) : Except Fault ClientSessionPool := do
  let sock ← s.sock index
  let buf ← s.buffer index
  if s.stop then
    return s
  if failed then
    initiateSocket s.fail index
  else if buf.val.getD 3 0 ≠ 0x00 then
    initiateSocket s.fail index
  else do
    let s := s.begin index (.read sock { resp := .second, whole := true })
    -- If this is the last socket in the pool, and the pool is not hydrated yet, continue.
    if index = s.pool.length - 1 ∧ s.pool.length < s.poolSize then
      let s := s.emplaceBack
      let nextSock ← s.sock (index + 1)
      return s.begin (index + 1) (.connect nextSock)
    else
      return s

/-- The response that `Handle2ndResp` builds: the address from byte 4 and the port from byte 20. -/
def newConnResp (buf : MicroBuffer) : NewConnectionResponse where
  addr := arrayOf 16 ((buf.val.drop 4).take 16)
  port := arrayOf 2 ((buf.val.drop 20).take 2)

/-- `Handle2ndResp`. `padding` are the last bytes of the response in memory. -/
def handle2ndResp (bytesRead : Nat) (failed : Bool) (padding : Bytes 2) :
    Except Fault ClientSessionPool := do
  let buf ← s.buffer index
  if s.stop then
    return s
  if failed ∨ bytesRead < k2ndBindResponseSize ∨ buf.val.getD 1 0 ≠ 0x00 then
    initiateSocket s.fail index
  else
    let s := { s with buffers := s.buffers.set index ((newConnResp buf).toBytes padding) }
    return s.begin index .wait

/-- `Stop`. -/
def ClientSessionPool.halt : ClientSessionPool := { s with stop := true }

/-- `HandleSendFd`. `bytesSent` is what `sendmsg` returns. -/
def handleSendFd (failed : Bool) (bytesSent : Int) : Except Fault ClientSessionPool := do
  let sock ← s.sock index
  let buf ← s.buffer index
  if s.stop then
    return s
  if failed then
    initiateSocket s.fail index
  else if bytesSent ≤ 0 then
    return s.halt
  else
    initiateSocket (s.act (.descriptor sock buf bytesSent)) index

/-- `HandleClientError`. -/
def handleClientError : ClientSessionPool := if s.stop then s else s.halt

end Handlers

/-! ## Runs -/

/-- What may happen next, at the operation with position `k`: its connect is done, the kernel puts
bytes into its buffer, its read has ended, or its wait is done. -/
inductive Event where
  | connect (k : Nat) (failed written : Bool)
  | recv (k : Nat) (bytes : List Byte) (failed : Bool)
  | resp (k : Nat) (padding : Bytes 2)
  | sendFd (k : Nat) (failed : Bool) (bytesSent : Int)
  | clientError

/-- The position of the operation that an event is about. -/
def Event.position : Event → Option Nat
  | .connect k _ _ | .recv k _ _ | .resp k _ | .sendFd k _ _ => some k
  | .clientError => none

/-- A read after more bytes or an error. -/
def Read.recv (r : Read) (bytes : List Byte) (failed : Bool) : Read :=
  { r with
    bytes := r.bytes ++ bytes
    ended := if failed || !r.whole || (r.bytes ++ bytes).length == r.resp.size then some failed
      else none }

/-- A buffer after `bytes` were copied to position `pos`. -/
def copyTo (buf : MicroBuffer) (pos : Nat) (bytes : List Byte) : MicroBuffer :=
  arrayOf 24 (buf.val.take pos ++ bytes ++ buf.val.drop (pos + bytes.length))

section Step

variable (s : ClientSessionPool)

/-- The operation at position `k` is done. -/
def ClientSessionPool.done (k : Nat) : ClientSessionPool := { s with ops := s.ops.eraseIdx k }

/-- The kernel puts bytes into the buffer of a read that has not ended. -/
def recv (k : Nat) (bytes : List Byte) (failed : Bool) : Option ClientSessionPool :=
  match s.ops[k]? with
  | some ⟨index, .read sock r⟩ =>
    match r.ended, s.buffers[index]? with
    | none, some buf =>
      if (r.bytes ++ bytes).length ≤ r.resp.size then
        some { s with
          buffers := s.buffers.set index (copyTo buf r.bytes.length bytes)
          ops := s.ops.set k ⟨index, .read sock (r.recv bytes failed)⟩ }
      else none
    | _, _ => none
  | _ => none

/-- One event; `none` when it cannot happen. -/
def step : Event → Option (Except Fault ClientSessionPool)
  | .connect k failed written =>
    match s.ops[k]? with
    | some ⟨index, .connect _⟩ => some (handleConnect (s.done k) index failed written)
    | _ => none
  | .recv k bytes failed => (recv s k bytes failed).map .ok
  | .resp k padding =>
    match s.ops[k]? with
    | some ⟨index, .read _ ⟨.first, _, _, some failed⟩⟩ =>
      some (handle1stResp (s.done k) index failed)
    | some ⟨index, .read _ ⟨.second, _, bytes, some failed⟩⟩ =>
      some (handle2ndResp (s.done k) index bytes.length failed padding)
    | _ => none
  | .sendFd k failed bytesSent =>
    match s.ops[k]? with
    | some ⟨index, .wait⟩ => some (handleSendFd (s.done k) index failed bytesSent)
    | _ => none
  | .clientError => some (.ok (handleClientError s))

end Step

/-- A run of events. -/
inductive Runs : ClientSessionPool → ClientSessionPool → Prop
  | refl (s : ClientSessionPool) : Runs s s
  | step {s s₁ s₂ : ClientSessionPool} {e : Event} : Runs s s₁ → step s₁ e = some (.ok s₂) →
    Runs s s₂

/-- The states of a pool that was started. -/
def Reachable (env : StartEnv) (s : ClientSessionPool) : Prop :=
  ∃ s₀, start env {} = .ok (true, s₀) ∧ Runs s₀ s

end SessionPool
end Proxy
end TrustedCa
