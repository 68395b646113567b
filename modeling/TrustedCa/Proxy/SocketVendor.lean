import TrustedCa.Proxy.Protocol

/-!
# The socket vendor's protocol and `accept4` (`proxy/src/socket_vendor_protocol.h`, `preload.cc`)

The application asks the socket vendor to bind and to listen, and the vendor hands it a descriptor
for each inbound connection, with a `NewConnectionResponse`. Application and vendor are on one host,
so the requests are records of their fields. A `NewConnectionResponse` is also the bytes that both
sides copy: the type in host (little-endian) order, the address, the port in network order, and two
bytes of padding with any content.

`accept4` is the preloaded call on a socket of the vendor. The words of its IPv4 conversion are read
in host order as well.
-/

namespace TrustedCa
namespace Proxy
namespace SocketVendor

/-- `MessageType`. Every value from `kInvalidMessage` on is invalid. -/
inductive MessageType where
  | kBindRequest | kBindResponse | kListenRequest | kListenResponse | kNewConnectionResponse
  | kInvalidMessage
  deriving DecidableEq

/-- The value of the enumeration. -/
def MessageType.value : MessageType → Byte
  | .kBindRequest => 0
  | .kBindResponse => 1
  | .kListenRequest => 2
  | .kListenResponse => 3
  | .kNewConnectionResponse => 4
  | .kInvalidMessage => 5

/-- `BindRequest`, with the port in host byte order. -/
structure BindRequest where
  type : MessageType := .kBindRequest
  port : UInt16

structure ListenRequest where
  type : MessageType := .kListenRequest
  backlog : Int32

/-- `NewConnectionResponse`, with the port in network byte order. -/
structure NewConnectionResponse where
  type : MessageType := .kNewConnectionResponse
  addr : Bytes 16
  port : Bytes 2

theorem toBytes_length (r : NewConnectionResponse) (padding : Bytes 2) :
    ([r.type.value, 0, 0, 0] ++ (r.addr.val ++ (r.port.val ++ padding.val))).length = 24 := by
  simp [r.addr.property, r.port.property, padding.property]

/-- The memory of a response. -/
def NewConnectionResponse.toBytes (r : NewConnectionResponse) (padding : Bytes 2) : Bytes 24 :=
  ⟨[r.type.value, 0, 0, 0] ++ (r.addr.val ++ (r.port.val ++ padding.val)), toBytes_length r padding⟩

/-- The member `addr` of a response in memory. -/
def addrOf (data : Bytes 24) : Bytes 16 := arrayOf 16 ((data.val.drop 4).take 16)

/-- The member `port` of a response in memory. -/
def portOf (data : Bytes 24) : Bytes 2 := arrayOf 2 ((data.val.drop 20).take 2)

theorem toBytes_val (r : NewConnectionResponse) (padding : Bytes 2) :
    (r.toBytes padding).val = [r.type.value, 0, 0, 0] ++ (r.addr.val ++ (r.port.val ++ padding.val)) :=
  rfl

theorem addrOf_toBytes (r : NewConnectionResponse) (padding : Bytes 2) :
    addrOf (r.toBytes padding) = r.addr := by
  have h : ((r.toBytes padding).val.drop 4).take 16 = r.addr.val := by
    rw [toBytes_val]
    exact List.take_left' r.addr.property
  rw [addrOf, h, arrayOf_toList]

theorem portOf_toBytes (r : NewConnectionResponse) (padding : Bytes 2) :
    portOf (r.toBytes padding) = r.port := by
  have hlen : ([r.type.value, 0, 0, 0] ++ r.addr.val).length = 20 := by simp [r.addr.property]
  have h : ((r.toBytes padding).val.drop 20).take 2 = r.port.val := by
    rw [toBytes_val, ← List.append_assoc, List.drop_left' hlen]
    exact List.take_left' r.port.property
  rw [portOf, h, arrayOf_toList]

/-! ## `accept4` -/

def AF_UNIX : Nat := 1

def SOL_SOCKET : Nat := 1

def SCM_RIGHTS : Nat := 1

def SOCK_CLOEXEC : UInt32 := 0o2000000

def SOCK_NONBLOCK : UInt32 := 0o4000

def FD_CLOEXEC : UInt32 := 1

def O_NONBLOCK : UInt32 := 0o4000

def sizeofSockaddrIn : Nat := 16

def sizeofSockaddrIn6 : Nat := 28

/-- The first control message that `recvmsg` has filled in, with the descriptor in its data. -/
structure Cmsghdr where
  level : Nat
  type : Nat
  fd : Int

/-- What the calls of `accept4` answer: the domain of the socket (`none` when `getsockopt` fails),
whether `getpeername` succeeds, the message that `recvmsg` reads (`none` when it fails), and the
flags of a descriptor. -/
structure AcceptEnv where
  domain : Option Nat
  getpeername : Bool
  recvmsg : Option (Bytes 24 × Option Cmsghdr)
  getfl : Int → UInt32

/-- How `accept4` ends: with a call of `libc_accept4`, with `-1` (and `EBADF`, or the error of
`recvmsg`), or with a descriptor, the flags that were set on it, and the address with the number of
its bytes that were copied out. -/
inductive AcceptResult where
  | libc
  | error (ebadf : Bool)
  | ok (fd : Int) (setfl : UInt32) (addr : Option (Sockaddr × Nat))
  deriving DecidableEq

/-- A `uint32_t` in memory, in host byte order. -/
def uint32 (bs : List Byte) : Nat :=
  (bs.getD 0 0).toNat + 256 * ((bs.getD 1 0).toNat + 256 * ((bs.getD 2 0).toNat +
    256 * (bs.getD 3 0).toNat))

/-- `ntohl` of a `uint32_t` in memory. -/
def ntohl (bs : List Byte) : Nat := uint32 (bs.take 4).reverse

/-- The address that `accept4` reports as IPv4. -/
def v4Addr (addr : Bytes 16) : Bytes 4 :=
  let word i := (addr.val.drop (4 * i)).take 4
  if uint32 (word 0) = 0 ∧ uint32 (word 1) = 0 ∧ uint32 (word 2) = 0 ∧ uint32 (word 3) ≠ 1 then
    arrayOf 4 (word 3)
  else if uint32 (word 0) = 0 ∧ uint32 (word 1) = 0 ∧ ntohl (word 2) = 0xFFFF then
    arrayOf 4 (word 3)
  else
    arrayOf 4 []

/-- The address that is copied out when `*addrlen` is `len`, and the new `*addrlen`. -/
def acceptedAddr (data : Bytes 24) (len : Nat) : Sockaddr × Nat :=
  if sizeofSockaddrIn6 ≤ len then
    (.inet6 (addrOf data) (portOf data), sizeofSockaddrIn6)
  else
    (.inet (v4Addr (addrOf data)) (portOf data),
      if sizeofSockaddrIn ≤ len then sizeofSockaddrIn else len)

/-- The flags that `accept4` sets. The tests `flags | SOCK_CLOEXEC` and `flags | SOCK_NONBLOCK` of
the source are those of the bits or-ed in. -/
def acceptedFlags (fl flags : UInt32) : UInt32 :=
  let fl := if flags ||| SOCK_CLOEXEC ≠ 0 then fl ||| FD_CLOEXEC else fl
  if flags ||| SOCK_NONBLOCK ≠ 0 then fl ||| O_NONBLOCK else fl

/-- `accept4`, with `addrlen` `none` for a null `addr`. -/
def accept4 (env : AcceptEnv) (addrlen : Option Nat) (flags : UInt32) : AcceptResult :=
  match env.domain with
  | none => .libc
  | some domain =>
    if domain ≠ AF_UNIX then .libc
    else if !env.getpeername then .libc
    else
      match env.recvmsg with
      | none => .error false
      | some (_, none) => .error true
      | some (data, some cmsg) =>
        if cmsg.level ≠ SOL_SOCKET ∨ cmsg.type ≠ SCM_RIGHTS then .error true
        else if cmsg.fd < 0 then .error true
        else .ok cmsg.fd (acceptedFlags (env.getfl cmsg.fd) flags) (addrlen.map (acceptedAddr data))

/-- The calls of `accept4` on a message of the vendor: `fd` came with `data`. -/
structure Delivers (env : AcceptEnv) (data : Bytes 24) (fd : Int) : Prop where
  domain : env.domain = some AF_UNIX
  getpeername : env.getpeername = true
  recvmsg : env.recvmsg = some (data, some ⟨SOL_SOCKET, SCM_RIGHTS, fd⟩)
  fd : 0 ≤ fd

/-- A message of the vendor, accepted with room for an IPv6 address. -/
theorem accept4_inet6 {env : AcceptEnv} {r : NewConnectionResponse} {padding : Bytes 2} {fd : Int}
    (hd : Delivers env (r.toBytes padding) fd) {len : Nat} (hlen : sizeofSockaddrIn6 ≤ len)
    (flags : UInt32) :
    accept4 env (some len) flags = .ok fd (acceptedFlags (env.getfl fd) flags)
      (some (.inet6 r.addr r.port, sizeofSockaddrIn6)) := by
  have haddr : acceptedAddr (r.toBytes padding) len =
      (.inet6 r.addr r.port, sizeofSockaddrIn6) := by
    rw [acceptedAddr, if_pos hlen, addrOf_toBytes, portOf_toBytes]
  have hfd : ¬ fd < 0 := Int.not_lt.mpr hd.fd
  simp [accept4, hd.domain, hd.getpeername, hd.recvmsg, hfd, haddr]

end SocketVendor
end Proxy
end TrustedCa
