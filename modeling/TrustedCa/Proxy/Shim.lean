import TrustedCa.Proxy.Preload
import TrustedCa.Proxy.StatusFlags

/-!
# A process under the preloaded library (`proxy/src/preload.cc`)

The library gives the application TCP sockets that it does not have. `connect` turns an IP socket
into a VSOCK connection to the proxy, `bind` turns it into a UNIX connection to the socket vendor,
and `epoll_ctl` turns it into a VSOCK socket before it is registered, all under the number of the
application's descriptor.

* A `Process` is a table of descriptors, the open files that they refer to, and what is registered
  with `epoll`. Open files are numbered and never removed. A descriptor is registered together with
  the file that it refers to at that time.
* `Kernel` is what the calls below one call of the library answer. The answers of `getsockopt` and
  `getpeername` follow from the files. A connect succeeds with an address of the socket's own
  family only, once for a stream socket.
* `File.sent` is what the library itself has given to `send`.
-/

namespace TrustedCa
namespace Proxy

/-- `sa_family`. -/
def Sockaddr.family : Sockaddr → Nat
  | .inet _ _ => SocketVendor.AF_INET
  | .inet6 _ _ => SocketVendor.AF_INET6
  | .other family => family

/-- The port of an IP address, in network byte order; `ntohs` of it is the port to bind. -/
def Sockaddr.portBytes : Sockaddr → Bytes 2
  | .inet _ port => port
  | .inet6 _ port => port
  | .other _ => arrayOf 2 []

namespace Shim

open Preload (Libc socks5ClientConnect)
open SocketVendor (AF_INET AF_INET6 AF_UNIX AF_VSOCK O_NONBLOCK O_RDWR SOCK_STREAM)
open SocketVendor (AcceptEnv BindRequest Cmsghdr ListenRequest MessageType setfl)

def AF_UNSPEC : Nat := 0

/-- What a socket is connected to: an address of the application's, the address of the proxy
(`GetProxyVsockAddr`), the socket vendor's path, or a peer that has connected to it. -/
inductive Endpoint where
  | addr (a : Sockaddr)
  | proxy
  | vendor
  | inbound
  deriving DecidableEq

/-- The family of an address that a socket connects to. -/
def Endpoint.family : Endpoint → Nat
  | .addr a => a.family
  | .proxy => AF_VSOCK
  | .vendor => AF_UNIX
  | .inbound => AF_UNSPEC

/-- What the library sends by itself: the bytes of a handshake, and the requests to the socket
vendor with the result of `send`. -/
inductive Message where
  | handshake (bytes : List Byte)
  | bind (req : BindRequest) (sent : Int)
  | listen (req : ListenRequest) (sent : Int)

/-- An open socket. -/
structure File where
  domain : Nat
  type : Nat
  flags : UInt32 := O_RDWR
  peer : Option Endpoint := none
  listening : Bool := false
  sent : List Message := []

/-- Whether the socket is of `AF_INET` or `AF_INET6`. -/
def File.isIp (f : File) : Prop := f.domain = AF_INET ∨ f.domain = AF_INET6

instance (f : File) : Decidable f.isIp := inferInstanceAs (Decidable (_ ∨ _))

/-- What the kernel answers within one call. `socket` is the number of a new descriptor, and `send`
and `recv` are those of the exchange with the socket vendor. `reads` is what the handshake reads, in
at most `fuel` calls. -/
structure Kernel where
  socket : Option Nat := none
  dup2 : Bool := true
  connect : Bool := true
  listen : Bool := true
  epollCtl : Bool := true
  libc : Libc := ⟨fun bs => bs.length, fun _ => true⟩
  reads : Preload.Socket := []
  fuel : Nat := 1
  send : Int := 8
  recv : Int := 8
  respType : MessageType := .kBindResponse
  recvmsg : Option (Bytes 24 × Option Cmsghdr) := none
  passedFlags : UInt32 := O_RDWR

/-- A descriptor in an epoll instance, with the file it referred to. -/
structure Registration where
  epfd : Nat
  fd : Nat
  file : Nat
  deriving DecidableEq

structure Process where
  files : List File := []
  table : Nat → Option Nat := fun _ => none
  epoll : List Registration := []

namespace Process

variable (p : Process)

/-- The open file of a descriptor. -/
def file (fd : Nat) : Option File := (p.table fd).bind fun i => p.files[i]?

def modify (fd : Nat) (g : File → File) : Process :=
  match p.table fd with
  | none => p
  | some i => { p with files := p.files.modify i g }

/-- A new open file under the number `fd`. -/
def install (fd : Nat) (f : File) : Process :=
  { p with files := p.files ++ [f], table := Function.update p.table fd (some p.files.length) }

/-- `dup2`. -/
def dup2 (old new : Nat) : Process := { p with table := Function.update p.table new (p.table old) }

/-- `close`. -/
def close (fd : Nat) : Process := { p with table := Function.update p.table fd none }

/-- `fcntl(fd, F_GETFL)`, as the bits of an `int`. -/
def getfl (fd : Nat) : UInt32 := ((p.file fd).map File.flags).getD (-1)

/-- `fcntl(fd, F_SETFL, fl)`. -/
def setfl (fd : Nat) (fl : UInt32) : Process :=
  p.modify fd fun f => { f with flags := SocketVendor.setfl f.flags fl }

def send (fd : Nat) (m : Message) : Process := p.modify fd fun f => { f with sent := f.sent ++ [m] }

end Process

/-- An address that the socket can connect to is of its family. An address that `Sockaddr.other`
stands for is no IP address. -/
def Endpoint.Suits (e : Endpoint) (f : File) : Prop :=
  e.family = f.domain ∧ (f.isIp → ∃ a, e = .addr a ∧ a.IsIp)

instance (e : Endpoint) (f : File) : Decidable (e.Suits f) :=
  match e with
  | .addr a => decidable_of_iff (a.family = f.domain ∧ (f.isIp → a.IsIp))
      (and_congr_right' (imp_congr_right fun _ =>
        ⟨fun h => ⟨a, rfl, h⟩, fun ⟨_, h, ha⟩ => Endpoint.addr.inj h ▸ ha⟩))
  | .proxy | .vendor | .inbound => decidable_of_iff (_ = f.domain ∧ ¬ f.isIp)
      (and_congr_right' ⟨fun h hip => absurd hip h, fun h hip => by
        obtain ⟨a, ha, -⟩ := h hip
        cases ha⟩)

/-- The kernel connects a socket, a stream socket once. With `AF_UNSPEC` an IP socket is
disconnected. -/
def File.connect (f : File) (addr : Endpoint) : Option File :=
  if addr.Suits f ∧ (f.type = SOCK_STREAM → f.peer = none ∧ f.listening = false) then
    some { f with peer := some addr }
  else if addr.family = AF_UNSPEC ∧ f.isIp then
    some { f with peer := none }
  else
    none

section Calls

variable (p : Process) (k : Kernel)

/-- `libc_connect`. -/
def libcConnect (fd : Nat) (addr : Endpoint) : Process × Int :=
  match (p.file fd).bind fun f => f.connect addr with
  | none => (p, -1)
  | some f => if k.connect then (p.modify fd fun _ => f, 0) else (p, -1)

/-- `libc_epoll_ctl` that adds a descriptor. -/
def libcEpollAdd (epfd fd : Nat) : Process × Int :=
  match p.table fd with
  | none => (p, -1)
  | some i =>
    if k.epollCtl then ({ p with epoll := ⟨epfd, fd, i⟩ :: p.epoll }, 0) else (p, -1)

/-- `ConvertToVsock`, with its result as the bits of an `int`. -/
def convertToVsock (fd : Nat) : Process × UInt32 :=
  match k.socket with
  | none => (p, -1)
  | some vsockFd =>
    let p := p.install vsockFd { domain := AF_VSOCK, type := SOCK_STREAM }
    let flags := p.getfl fd
    if !k.dup2 then (p.close vsockFd, -1)
    else ((p.dup2 vsockFd fd).close vsockFd, flags)

/-- `epoll_ctl` with `EPOLL_CTL_ADD`. After a failed conversion it sets the bits of `-1` as the flags,
which the kernel is taken to accept. -/
def epollCtlAdd (epfd fd : Nat) : Process × Int :=
  match p.file fd with
  | none => libcEpollAdd p k epfd fd
  | some f =>
    if f.type ≠ SOCK_STREAM ∨ ¬ f.isIp then libcEpollAdd p k epfd fd
    else
      let (p, fl) := convertToVsock p k fd
      libcEpollAdd (p.setfl fd fl) k epfd fd

/-- `connect` does not fall back to `libc_connect`. -/
def Proxied (f : File) (addr : Sockaddr) : Prop :=
  f.type = SOCK_STREAM ∧ (f.isIp ∨ f.domain = AF_VSOCK) ∧ addr.IsIp

instance (f : File) (addr : Sockaddr) : Decidable (Proxied f addr) :=
  inferInstanceAs (Decidable (_ ∧ _))

/-- `connect` after the conversion, which has returned `fl`. `none` when `fuel` is too small. -/
def connectProxy (fd : Nat) (addr : Sockaddr) (fl : UInt32) : Option (Process × Int) :=
  let p := p.setfl fd (fl &&& ~~~O_NONBLOCK)
  let (p, ret) := libcConnect p k fd .proxy
  if ret < 0 then some (p.setfl fd fl, -1)
  else do
    let o ← socks5ClientConnect k.libc k.fuel addr k.reads
    return ((p.send fd (.handshake o.sent)).setfl fd fl, o.ret)

/-- `connect`. -/
def connect (fd : Nat) (addr : Sockaddr) : Option (Process × Int) :=
  match p.file fd with
  | none => some (libcConnect p k fd (.addr addr))
  | some f =>
    if ¬ Proxied f addr then some (libcConnect p k fd (.addr addr))
    else if f.domain = AF_VSOCK then connectProxy p k fd addr (p.getfl fd)
    else
      let (p, fl) := convertToVsock p k fd
      connectProxy p k fd addr fl

/-- `bind` does not fall back to `libc_bind`. -/
def Vended (f : File) (addr : Sockaddr) : Prop :=
  addr.IsIp ∧ f.type = SOCK_STREAM ∧ (f.domain = addr.family ∨ f.domain = AF_VSOCK)

instance (f : File) (addr : Sockaddr) : Decidable (Vended f addr) :=
  inferInstanceAs (Decidable (_ ∧ _))

/-- `bind` after the conversion of a socket that had the flags `fl`: the exchange with the socket
vendor. -/
def bindVendor (fd : Nat) (addr : Sockaddr) (fl : UInt32) : Process × Int :=
  let (p, ret) := libcConnect p k fd .vendor
  if ret < 0 then (p, -1)
  else
    let p := p.send fd (.bind { port := ntohs addr.portBytes } k.send)
    if k.send ≠ SocketVendor.sizeofBindRequest then (p, -1)
    else if k.recv ≠ SocketVendor.sizeofBindResponse then (p, -1)
    else if k.respType ≠ .kBindResponse then (p, -1)
    else (p.setfl fd fl, 0)

/-- `bind`, `none` for the result of `libc_bind`, which changes nothing that the library sees. -/
def bind (fd : Nat) (addr : Sockaddr) : Process × Option Int :=
  match p.file fd with
  | none => (p, none)
  | some f =>
    if ¬ Vended f addr then (p, none)
    else
      match k.socket with
      | none => (p, some (-1))
      | some udsSock =>
        let p := p.install udsSock { domain := AF_UNIX, type := SOCK_STREAM }
        let fl := p.getfl fd
        if !k.dup2 then (p.close udsSock, some (-1))
        else
          let (p, ret) := bindVendor (p.dup2 udsSock fd) k fd addr fl
          (p.close udsSock, some ret)

/-- `listen`, and `libc_listen` on a socket that is not connected. -/
def listen (fd : Nat) (backlog : Int32) : Process × Int :=
  match p.file fd with
  | none => (p, -1)
  | some f =>
    if f.domain ≠ AF_UNIX ∨ f.peer = none then
      if k.listen ∧ f.type = SOCK_STREAM ∧ f.peer = none then
        (p.modify fd fun f => { f with listening := true }, 0)
      else (p, -1)
    else
      let p := p.send fd (.listen { backlog := backlog } k.send)
      if k.send ≠ SocketVendor.sizeofListenRequest then (p, -1)
      else
        let fl := p.getfl fd
        let p := p.setfl fd (fl &&& ~~~O_NONBLOCK)
        if k.recv ≠ SocketVendor.sizeofListenResponse then (p, -1)
        else if k.respType ≠ .kListenResponse then (p, -1)
        else (p.setfl fd fl, 0)

/-- What the calls of `accept4` on a descriptor answer. -/
def acceptEnv (fd : Nat) : AcceptEnv where
  domain := (p.file fd).map File.domain
  getpeername := (p.file fd).any fun f => f.peer.isSome
  recvmsg := k.recvmsg
  getfl _ := k.passedFlags

/-- `accept4`, and `libc_accept4` on a socket that listens. The descriptors that the vendor passes
are VSOCK connections. -/
def accept4 (fd : Nat) (addrlen : Option Nat) (flags : UInt32) : Option (Process × Int) :=
  match SocketVendor.accept4 (acceptEnv p k fd) addrlen flags with
  | .libc =>
    match p.file fd, k.socket with
    | some f, some new =>
      if f.listening then
        some (p.install new { domain := f.domain, type := f.type, peer := some .inbound }, new)
      else some (p, -1)
    | _, _ => some (p, -1)
  | .error _ => some (p, -1)
  | .ok new fl _ =>
    if (p.table new.toNat).isSome then none
    else
      let f : File := { domain := AF_VSOCK, type := SOCK_STREAM, peer := some .inbound,
                        flags := setfl k.passedFlags fl }
      some (p.install new.toNat f, new)

end Calls

/-! ## Options -/

def IPPROTO_IP : Nat := 0

def IPPROTO_TCP : Nat := 6

def IPPROTO_IPV6 : Nat := 41

/-- `setsockopt` and `getsockopt`: `none` when the call goes to libc, else the result. -/
def sockopt (p : Process) (fd level : Nat) : Option Int :=
  if (level = IPPROTO_TCP ∨ level = IPPROTO_IP ∨ level = IPPROTO_IPV6) ∧
      (p.file fd).any (fun f => f.domain = AF_VSOCK) then
    some 0
  else
    none

def FIONREAD : Nat := 0x541B

/-- The result of `libc_ioctl`, with whether `errno` is `EOPNOTSUPP`. -/
structure IoctlResult where
  ret : Int
  opNotSupp : Bool

/-- `ioctl`: its result, and what it stores itself behind `argp`. -/
def ioctl (p : Process) (fd request : Nat) (r : IoctlResult) : Int × Option Int :=
  if r.ret = -1 ∧ r.opNotSupp = true ∧ request = FIONREAD ∧
      (p.file fd).any (fun f => f.domain = AF_VSOCK) then
    (0, some 0)
  else
    (r.ret, none)

/-! ## Runs -/

/-- A call of the application. -/
inductive Call where
  | socket (domain type : Nat)
  | close (fd : Nat)
  | dup2 (old new : Nat)
  | epollAdd (epfd fd : Nat)
  | epollDel (epfd fd : Nat)
  | connect (fd : Nat) (addr : Sockaddr)
  | bind (fd : Nat) (addr : Sockaddr)
  | listen (fd : Nat) (backlog : Int32)
  | accept4 (fd : Nat) (addrlen : Option Nat) (flags : UInt32)

/-- The result of a call, which is not that of a libc function. -/
def returned (r : Process × Int) : Process × Option Int := (r.1, some r.2)

/-- One call, and its result; `none` is that of a libc function. The `type` of a socket is what
`SO_TYPE` reports, without `SOCK_NONBLOCK` and `SOCK_CLOEXEC`. -/
def call (p : Process) (k : Kernel) : Call → Option (Process × Option Int)
  | .socket domain type =>
    match k.socket with
    | none => some (p, some (-1))
    | some fd => some (p.install fd { domain := domain, type := type }, some fd)
  | .close fd => some (p.close fd, some 0)
  | .dup2 old new =>
    if (p.table old).isSome then some (p.dup2 old new, some new) else some (p, some (-1))
  | .epollAdd epfd fd => some (returned (epollCtlAdd p k epfd fd))
  | .epollDel epfd fd =>
    some ({ p with epoll := p.epoll.filter fun r =>
      ¬ (r.epfd = epfd ∧ r.fd = fd ∧ p.table fd = some r.file) }, some 0)
  | .connect fd addr => (connect p k fd addr).map returned
  | .bind fd addr => some (bind p k fd addr)
  | .listen fd backlog => some (returned (listen p k fd backlog))
  | .accept4 fd addrlen flags => (accept4 p k fd addrlen flags).map returned

/-- A call that the kernel can answer so: the number of a new descriptor is free. -/
def step (p : Process) (k : Kernel) (c : Call) : Option (Process × Option Int) :=
  if k.socket.any fun fd => (p.table fd).isSome then none else call p k c

/-- The states of a process that starts without sockets. -/
inductive Reachable : Process → Prop
  | start : Reachable {}
  | step {p p' : Process} {k : Kernel} {c : Call} {ret : Option Int} : Reachable p →
    step p k c = some (p', ret) → Reachable p'

end Shim
end Proxy
end TrustedCa
