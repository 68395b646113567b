import TrustedCa.Proxy.Protocol

/-!
# The SOCKS5 handshake state machine (`proxy/src/socks5_state.{h,cc}`)

`proceed` is one state transition of `Socks5State::Proceed` and `connectionSucceed` is
`Socks5State::ConnectionSucceed`. `proceed` is written over any buffer with a data size and a
`CopyOut` (`Source`): `listSource` is a plain byte queue, and the block buffer of
`proxy/src/buffer.h` is another instance.

* The four callbacks are functions of the calls made so far (`Callbacks`), so every sequence of
  callback results is covered. `Ctl.calls` is the record of the calls, with what each returned.
  The code tests the connect and the destination address callback for null, hence the `Option`s;
  it calls the bind callback and the last response unguarded, so these two are always set.
* Each case of the `switch` first copies its bytes out of the buffer and then decides; the
  decision (`onGreetingHeader`, ...) sees only those bytes.
* `proceedLoop` is the handshake loop `while (state != kSuccess && Proceed(buffer)) {}` with a
  bound on its iterations; `none` means that the bound was too small.
-/

namespace TrustedCa
namespace Proxy
namespace Socks5

inductive HandshakeState where
  | kGreetingHeader | kGreetingMethods | kRequestHeader | kRequestAddrV4 | kRequestAddrV6
  | kRequestBind | kWaitConnect | kWaitAccept | kResponse | kSuccess | kFail
  deriving DecidableEq

inductive CallbackStatus where
  | kStatusOK | kStatusInProgress | kStatusFail
  deriving DecidableEq

/-- A call of one of the callbacks and its result. -/
inductive Call where
  | response (data : List Byte) (ret : CallbackStatus)
  | connect (addr : Sockaddr) (ret : CallbackStatus)
  | destAddress (remote : Bool) (ret : CallbackStatus)
  | bind (port : UInt16) (ret : CallbackStatus)
  deriving DecidableEq

/-- The callbacks. Each sees the calls made before it. The destination address callback fills in
an address, and the bind callback may change the port. -/
structure Callbacks where
  response : List Call → List Byte → CallbackStatus
  connect : Option (List Call → Sockaddr → CallbackStatus)
  destAddress : Option (List Call → Bool → CallbackStatus × Sockaddr)
  bind : List Call → UInt16 → CallbackStatus × UInt16

/-- A `Socks5State` as its constructor sets it, and the callback calls that it made. -/
structure Ctl where
  state : HandshakeState := .kGreetingHeader
  requiredSize : Nat := 2
  calls : List Call := []
  deriving DecidableEq

namespace Ctl

def fail (c : Ctl) : Ctl := { c with state := .kFail }

def goTo (c : Ctl) (s : HandshakeState) (n : Nat) : Ctl := { c with state := s, requiredSize := n }

def log (c : Ctl) (k : Call) : Ctl := { c with calls := c.calls ++ [k] }

end Ctl

section Decisions

variable (cb : Callbacks)

/-- `response_callback_(data, size)`. -/
def callResponse (c : Ctl) (data : List Byte) : CallbackStatus × Ctl :=
  let ret := cb.response c.calls data
  (ret, c.log (.response data ret))

/-- The response template with REP = 0x01 and zero address and port. -/
def errRespTemplate : List Byte := [0x05, 0x01, 0x00, 0x01, 0x00, 0x00, 0x00, 0x00, 0x00, 0x00]

/-- `Socks5State::CreateResp`. -/
def createResp (c : Ctl) (isBind : Bool) : List Byte × Ctl :=
  match cb.destAddress with
  | none => (errRespTemplate, c)
  | some f =>
    let ret := f c.calls isBind
    let c := c.log (.destAddress isBind ret.1)
    if ret.1 = .kStatusOK then ([0x05, 0x00, 0x00] ++ fillAddrPort ret.2, c)
    else (errRespTemplate, c)

/-- The end of the `switch`: `return state_ != kFail`. -/
def afterSwitch (c : Ctl) : Bool × Ctl := (c.state ≠ .kFail, c)

def onGreetingHeader (c : Ctl) (greeting : List Byte) : Bool × Ctl :=
  if greeting.getD 0 0 ≠ 0x05 ∨ greeting.getD 1 0 = 0 then afterSwitch c.fail
  else afterSwitch (c.goTo .kGreetingMethods (greeting.getD 1 0).toNat)

def kGreetingResp : List Byte := [0x05, 0x00]

def onGreetingMethods (c : Ctl) (methods : List Byte) : Bool × Ctl :=
  -- `memchr`: only "no auth" is supported.
  if 0x00 ∈ methods then
    let sent := callResponse cb c kGreetingResp
    if sent.1 = .kStatusOK then afterSwitch (sent.2.goTo .kRequestHeader 4)
    else afterSwitch sent.2.fail
  else
    afterSwitch c.fail

def onRequestHeader (c : Ctl) (header : List Byte) : Bool × Ctl :=
  let atyp := header.getD 3 0
  if header.getD 0 0 ≠ 0x05 ∨ header.getD 2 0 ≠ 0x00 then
    afterSwitch c.fail
  else if header.getD 1 0 = 0x01 then -- CONNECT
    if atyp = 0x01 then afterSwitch (c.goTo .kRequestAddrV4 6)
    else if atyp = 0x03 then afterSwitch c.fail
    else if atyp = 0x04 then afterSwitch (c.goTo .kRequestAddrV6 (16 + 2))
    else afterSwitch c.fail
  else if header.getD 1 0 = 0x02 then -- BIND
    if atyp = 0x01 then afterSwitch (c.goTo .kRequestBind 6)
    else if atyp = 0x03 then afterSwitch c.fail
    else if atyp = 0x04 then afterSwitch (c.goTo .kRequestBind (16 + 2))
    else afterSwitch c.fail
  else
    afterSwitch c.fail

/-- `kRequestAddrV4` and `kRequestAddrV6` once the address is read. -/
def onRequestAddr (c : Ctl) (addr : Sockaddr) : Bool × Ctl :=
  match cb.connect with
  | none => afterSwitch (c.goTo .kWaitConnect 0)
  | some f =>
    let ret := f c.calls addr
    let c := c.log (.connect addr ret)
    match ret with
    | .kStatusOK => afterSwitch (c.goTo .kResponse 0)
    | .kStatusInProgress => (false, c.goTo .kWaitConnect 0)
    | .kStatusFail => afterSwitch (c.goTo .kFail 0)

/-- `bind_resp` with the bound port filled in. -/
def bindResp (port : UInt16) : List Byte :=
  [0x05, 0x00, 0x00, 0x01, 0x00, 0x00, 0x00, 0x00] ++ (htons port).val

def onRequestBind (c : Ctl) (port : UInt16) : Bool × Ctl :=
  let c := c.goTo c.state 0
  let ret := cb.bind c.calls port
  let c := c.log (.bind port ret.1)
  if ret.1 = .kStatusFail then
    afterSwitch c.fail
  else
    let sent := callResponse cb c (bindResp ret.2)
    if sent.1 = .kStatusFail then afterSwitch sent.2.fail else (false, sent.2.goTo .kWaitAccept 0)

def onResponse (c : Ctl) : Bool × Ctl :=
  let resp := createResp cb c false
  let sent := callResponse cb resp.2 resp.1
  if sent.1 = .kStatusOK then afterSwitch (sent.2.goTo .kSuccess 1) else afterSwitch sent.2.fail

/-- `Socks5State::ConnectionSucceed`. A failed response sets `kFail`, and the statement after it
sets `kSuccess` again. -/
def connectionSucceed (c : Ctl) : Bool × Ctl :=
  if c.state = .kWaitConnect ∨ c.state = .kWaitAccept then
    let resp := createResp cb c (c.state = .kWaitAccept)
    let sent := callResponse cb resp.2 resp.1
    let c := if sent.1 = .kStatusOK then sent.2 else sent.2.fail
    let c := { c with state := .kSuccess }
    (c.state = .kSuccess, c)
  else
    (false, c.fail)

end Decisions

/-- What `Proceed` uses of a buffer: `data_size` and `CopyOut`. -/
structure Source (m : Type → Type) (β : Type) where
  dataSize : β → Nat
  copyOut : β → Nat → m (List Byte × β)

/-- A plain byte queue. -/
def listSource : Source Id (List Byte) where
  dataSize q := q.length
  copyOut q n := (q.take n, q.drop n)

/-- A `Socks5State` with the buffer it is fed from. -/
structure Run (β : Type) where
  ctl : Ctl := {}
  buffer : β

section Proceed

variable {m : Type → Type} [Monad m] {β : Type} (S : Source m β) (cb : Callbacks)

/-- The `InsufficientBuffer` test. -/
def insufficientBuffer (r : Run β) : Bool := S.dataSize r.buffer < r.ctl.requiredSize

/-- The outcome of a case of the `switch`, with the buffer that its `CopyOut`s left. -/
def decided (d : Bool × Ctl) (buffer : β) : Bool × Run β := (d.1, ⟨d.2, buffer⟩)

/-- `Socks5State::Proceed`. -/
def proceed (r : Run β) : m (Bool × Run β) :=
  if insufficientBuffer S r then
    pure (false, r)
  else
    match r.ctl.state with
    | .kGreetingHeader => do
      let (greeting, buffer) ← S.copyOut r.buffer 2
      return decided (onGreetingHeader r.ctl greeting) buffer
    | .kGreetingMethods => do
      let (methods, buffer) ← S.copyOut r.buffer r.ctl.requiredSize
      return decided (onGreetingMethods cb r.ctl methods) buffer
    | .kRequestHeader => do
      let (header, buffer) ← S.copyOut r.buffer 4
      return decided (onRequestHeader r.ctl header) buffer
    | .kRequestAddrV4 => do
      let (addr, buffer) ← S.copyOut r.buffer 4
      let (port, buffer) ← S.copyOut buffer 2
      return decided (onRequestAddr cb r.ctl (.inet (arrayOf 4 addr) (arrayOf 2 port))) buffer
    | .kRequestAddrV6 => do
      let (addr, buffer) ← S.copyOut r.buffer 16
      let (port, buffer) ← S.copyOut buffer 2
      return decided (onRequestAddr cb r.ctl (.inet6 (arrayOf 16 addr) (arrayOf 2 port))) buffer
    | .kRequestBind => do
      -- The address is discarded: the proxy binds to `[::]`.
      let (_, buffer) ← S.copyOut r.buffer (r.ctl.requiredSize - 2)
      let (port, buffer) ← S.copyOut buffer 2
      return decided (onRequestBind cb r.ctl (ntohs (arrayOf 2 port))) buffer
    | .kWaitConnect | .kWaitAccept => pure (false, r)
    | .kResponse => pure (decided (onResponse cb r.ctl) r.buffer)
    | .kSuccess => pure (false, r)
    | .kFail => pure (false, { r with ctl := r.ctl.goTo .kFail 0 })

/-- `while (state != kSuccess && Proceed(buffer)) {}`, with a bound on the iterations. -/
def proceedLoop : Nat → Run β → m (Option (Run β))
  | 0, _ => pure none
  | n + 1, r =>
    if r.ctl.state = .kSuccess then
      pure (some r)
    else do
      let (more, r) ← proceed S cb r
      if more then proceedLoop n r else pure (some r)

end Proceed

end Socks5
end Proxy
end TrustedCa
