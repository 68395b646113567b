import TrustedCa.Proxy.SocketVendor
import Mathlib.Data.BitVec

/-!
# File status flags under the preloaded calls (`proxy/src/preload.cc`)

The preloaded `connect` and `bind` replace the descriptor by another socket, and `listen` waits for
the socket vendor in blocking mode. An application that made its descriptor non-blocking does not
know of either, so the calls save the flags and set them again. `connect`, `bind` and `listen` are
the calls as far as the flags of the descriptor go. The records `ConnectEnv`, `BindEnv` and
`ListenEnv` are what the underlying calls answer; none of them changes the flags.

* The flags are those of the open file. `F_SETFL` changes the bits of `statusMask` and no others,
  and a new socket has `O_RDWR`. It is taken to succeed: Linux refuses `O_DIRECT` on a socket, and
  then the flags stay as they are, where `connect` sets the `-1` of a failed conversion.
* `connect_keeps_iff`, `bind_keeps_iff` and `listen_keeps_iff` say exactly when the flags are kept.
  `accept4` turns `O_NONBLOCK` on for every descriptor, because it tests `flags | SOCK_NONBLOCK`.
-/

namespace TrustedCa
namespace Proxy
namespace SocketVendor

def AF_INET : Nat := 2

def AF_INET6 : Nat := 10

def AF_VSOCK : Nat := 40

def SOCK_STREAM : Nat := 1

def O_RDWR : UInt32 := 2

/-- The flags that `F_SETFL` can change: `O_APPEND`, `O_NONBLOCK`, `O_ASYNC`, `O_DIRECT` and
`O_NOATIME`. -/
def statusMask : UInt32 := 0o2000 ||| O_NONBLOCK ||| 0o20000 ||| 0o40000 ||| 0o1000000

/-- The file status flags in the flags of an open file. -/
def statusOf (fl : UInt32) : UInt32 := fl &&& statusMask

/-- `fcntl(fd, F_SETFL, arg)` on an open file with the flags `fl`, where it succeeds. -/
def setfl (fl arg : UInt32) : UInt32 := (fl &&& ~~~statusMask) ||| (arg &&& statusMask)

/-- The return value of a call, `none` when it is that of the libc function that the call falls
back to, and the flags of the descriptor after it. -/
structure Returned where
  ret : Option Int
  flags : UInt32
  deriving DecidableEq

/-- What the calls of `connect` answer: `getsockopt` (`none` when it fails), the family of the
address, whether `socket`, `dup2` and `libc_connect` succeed, and the result of
`socks5_client_connect`. -/
structure ConnectEnv where
  sockType : Option Nat
  sockDomain : Option Nat
  saFamily : Nat
  socket : Bool
  dup2 : Bool
  connect : Bool
  handshake : Int

/-- `connect` does not fall back to `libc_connect`. -/
def ConnectEnv.Proxied (env : ConnectEnv) : Prop :=
  env.sockType = some SOCK_STREAM ∧
    (env.sockDomain = some AF_INET ∨ env.sockDomain = some AF_INET6 ∨
      env.sockDomain = some AF_VSOCK) ∧
    (env.saFamily = AF_INET ∨ env.saFamily = AF_INET6)

instance (env : ConnectEnv) : Decidable env.Proxied := inferInstanceAs (Decidable (_ ∧ _))

/-- `ConvertToVsock`: its result, as the bits of an `int`, and the flags of the descriptor. -/
def convertToVsock (env : ConnectEnv) (flags : UInt32) : UInt32 × UInt32 :=
  if !env.socket then (-1, flags)
  else if !env.dup2 then (-1, flags)
  else (flags, O_RDWR)

/-- `connect` on a descriptor with the flags `flags`. After a failed conversion the flags are set to
the bits of `-1`, if the kernel takes them. -/
def connect (env : ConnectEnv) (flags : UInt32) : Returned :=
  if ¬ env.Proxied then
    ⟨none, flags⟩
  else
    let (fl, flags) :=
      if env.sockDomain = some AF_VSOCK then (flags, flags) else convertToVsock env flags
    let flags := setfl flags (fl &&& ~~~O_NONBLOCK)
    if !env.connect then ⟨some (-1), setfl flags fl⟩
    else ⟨some env.handshake, setfl flags fl⟩

/-- What the calls of `bind` answer. `send` and `recv` are their return values. -/
structure BindEnv where
  saFamily : Nat
  sockType : Option Nat
  sockDomain : Option Nat
  socket : Bool
  dup2 : Bool
  connect : Bool
  send : Int
  recv : Int
  respType : MessageType

def sizeofBindRequest : Int := 8

def sizeofBindResponse : Int := 8

/-- `bind` does not fall back to `libc_bind`. -/
def BindEnv.Vended (env : BindEnv) : Prop :=
  env.sockType = some SOCK_STREAM ∧
    (env.saFamily = AF_INET ∧ (env.sockDomain = some AF_INET ∨ env.sockDomain = some AF_VSOCK) ∨
      env.saFamily = AF_INET6 ∧
        (env.sockDomain = some AF_INET6 ∨ env.sockDomain = some AF_VSOCK))

instance (env : BindEnv) : Decidable env.Vended := inferInstanceAs (Decidable (_ ∧ _))

/-- The exchange with the socket vendor succeeds. -/
def BindEnv.Bound (env : BindEnv) : Prop :=
  env.connect = true ∧ env.send = sizeofBindRequest ∧ env.recv = sizeofBindResponse ∧
    env.respType = .kBindResponse

instance (env : BindEnv) : Decidable env.Bound := inferInstanceAs (Decidable (_ ∧ _))

/-- `bind` on a descriptor with the flags `flags`. -/
def bind (env : BindEnv) (flags : UInt32) : Returned :=
  if ¬ env.Vended then ⟨none, flags⟩
  else if !env.socket then ⟨some (-1), flags⟩
  else
    let fl := flags
    if !env.dup2 then ⟨some (-1), flags⟩
    else
      let flags := O_RDWR
      if !env.connect then ⟨some (-1), flags⟩
      else if env.send ≠ sizeofBindRequest then ⟨some (-1), flags⟩
      else if env.recv ≠ sizeofBindResponse then ⟨some (-1), flags⟩
      else if env.respType ≠ .kBindResponse then ⟨some (-1), flags⟩
      else ⟨some 0, setfl flags fl⟩

/-- What the calls of `listen` answer. -/
structure ListenEnv where
  sockDomain : Option Nat
  getpeername : Bool
  send : Int
  recv : Int
  respType : MessageType

def sizeofListenRequest : Int := 8

def sizeofListenResponse : Int := 4

/-- `listen` does not fall back to `libc_listen`. -/
def ListenEnv.Vended (env : ListenEnv) : Prop :=
  env.sockDomain = some AF_UNIX ∧ env.getpeername = true

instance (env : ListenEnv) : Decidable env.Vended := inferInstanceAs (Decidable (_ ∧ _))

/-- The socket vendor answers with a `ListenResponse`. -/
def ListenEnv.Answered (env : ListenEnv) : Prop :=
  env.recv = sizeofListenResponse ∧ env.respType = .kListenResponse

instance (env : ListenEnv) : Decidable env.Answered := inferInstanceAs (Decidable (_ ∧ _))

/-- `listen` on a descriptor with the flags `flags`. -/
def listen (env : ListenEnv) (flags : UInt32) : Returned :=
  if ¬ env.Vended then ⟨none, flags⟩
  else if env.send ≠ sizeofListenRequest then ⟨some (-1), flags⟩
  else
    let fl := flags
    let flags := setfl flags (fl &&& ~~~O_NONBLOCK)
    if env.recv ≠ sizeofListenResponse then ⟨some (-1), flags⟩
    else if env.respType ≠ .kListenResponse then ⟨some (-1), flags⟩
    else ⟨some 0, setfl flags fl⟩

/-- `accept`. -/
def accept (env : AcceptEnv) (addrlen : Option Nat) : AcceptResult := accept4 env addrlen 0

/-! ## Flags -/

@[simp] theorem statusOf_setfl (fl arg : UInt32) : statusOf (setfl fl arg) = statusOf arg := by
  unfold statusOf setfl
  apply UInt32.toBitVec_inj.mp
  ext i hi
  simp only [UInt32.toBitVec_and, UInt32.toBitVec_or, UInt32.toBitVec_not, BitVec.getElem_and,
    BitVec.getElem_or, BitVec.getElem_not]
  cases fl.toBitVec[i] <;> cases statusMask.toBitVec[i] <;> simp

theorem and_not_eq_self_iff (f n : UInt32) : f &&& ~~~n = f ↔ f &&& n = 0 := by
  rw [← UInt32.toBitVec_inj, ← UInt32.toBitVec_inj]
  constructor
  · intro h
    rw [UInt32.toBitVec_and] at *
    rw [← h]
    ext i hi
    simp
  · intro h
    ext i hi
    have hbit := congrArg (·[i]) h
    simp only [UInt32.toBitVec_and, UInt32.toBitVec_not, BitVec.getElem_and, BitVec.getElem_not]
      at hbit ⊢
    simpa using hbit

/-- `O_NONBLOCK` is one of the status flags. -/
theorem statusOf_and_nonblock (fl : UInt32) : statusOf fl &&& O_NONBLOCK = fl &&& O_NONBLOCK := by
  rw [statusOf, UInt32.and_assoc, show statusMask &&& O_NONBLOCK = O_NONBLOCK by decide]

/-- Without `O_NONBLOCK` the status flags are the same exactly when it was not set. -/
theorem statusOf_blocking (fl : UInt32) :
    statusOf (fl &&& ~~~O_NONBLOCK) = statusOf fl ↔ fl &&& O_NONBLOCK = 0 := by
  have hswap : statusOf (fl &&& ~~~O_NONBLOCK) = statusOf fl &&& ~~~O_NONBLOCK := by
    simp only [statusOf, UInt32.and_assoc, UInt32.and_comm (~~~O_NONBLOCK)]
  rw [hswap, and_not_eq_self_iff, statusOf_and_nonblock]

theorem statusOf_minusOne : statusOf (-1) = statusMask := by decide

theorem statusOf_new : statusOf O_RDWR = 0 := by decide

/-! ## `connect`, `bind` and `listen` -/

/-- `connect` tries to make the descriptor a VSOCK socket and cannot. -/
def ConnectEnv.ConversionFails (env : ConnectEnv) : Prop :=
  env.Proxied ∧ env.sockDomain ≠ some AF_VSOCK ∧ (env.socket = false ∨ env.dup2 = false)

/-- `bind` has replaced the descriptor, and then the socket vendor does not bind. -/
def BindEnv.Abandoned (env : BindEnv) : Prop :=
  env.Vended ∧ env.socket = true ∧ env.dup2 = true ∧ ¬ env.Bound

/-- `listen` has made the descriptor blocking, and then the socket vendor does not answer. -/
def ListenEnv.Abandoned (env : ListenEnv) : Prop :=
  env.Vended ∧ env.send = sizeofListenRequest ∧ ¬ env.Answered

/-- Whatever `connect` does after the conversion, it ends by setting the flags that it has saved. -/
theorem connect_flags {env : ConnectEnv} (hp : env.Proxied) (flags : UInt32) :
    statusOf (connect env flags).flags = statusOf
      (if env.sockDomain = some AF_VSOCK then flags else (convertToVsock env flags).1) := by
  simp only [connect, hp, not_true_eq_false, if_false]
  by_cases hv : env.sockDomain = some AF_VSOCK <;> cases env.connect <;> simp [hv]

theorem connect_keeps_iff (env : ConnectEnv) (flags : UInt32) :
    statusOf (connect env flags).flags = statusOf flags ↔
      ¬ env.ConversionFails ∨ statusOf flags = statusMask := by
  unfold ConnectEnv.ConversionFails
  by_cases hp : env.Proxied
  · rw [connect_flags hp]
    by_cases hv : env.sockDomain = some AF_VSOCK
    · simp [hv]
    · -- A failed conversion returns -1, and all flags are set from its bits.
      cases hs : env.socket with
      | false => simp [hp, hv, convertToVsock, hs, statusOf_minusOne, @eq_comm _ statusMask]
      | true =>
        cases hd : env.dup2 with
        | false => simp [hp, hv, convertToVsock, hs, hd, statusOf_minusOne, @eq_comm _ statusMask]
        | true => simp [hv, convertToVsock, hs, hd]
  · simp [connect, hp]

theorem bind_keeps_iff (env : BindEnv) (flags : UInt32) :
    statusOf (bind env flags).flags = statusOf flags ↔
      ¬ env.Abandoned ∨ statusOf flags = 0 := by
  unfold BindEnv.Abandoned
  by_cases hv : env.Vended
  · cases hs : env.socket with
    | false => simp [bind, hv, hs]
    | true =>
      cases hd : env.dup2 with
      | false => simp [bind, hv, hs, hd]
      | true =>
        by_cases hb : env.Bound
        · obtain ⟨hc, hsend, hrecv, htype⟩ := id hb
          simp [bind, hv, hs, hd, hc, hsend, hrecv, htype, hb]
        · -- Every way out of the exchange leaves the flags of the new socket.
          have hnew : (bind env flags).flags = O_RDWR := by
            unfold BindEnv.Bound at hb
            simp only [bind, hv, hs, hd, not_true_eq_false, if_false, Bool.not_true,
              Bool.false_eq_true]
            grind
          simp [hnew, hv, hb, statusOf_new, @eq_comm UInt32 0]
  · simp [bind, hv]

theorem listen_keeps_iff (env : ListenEnv) (flags : UInt32) :
    statusOf (listen env flags).flags = statusOf flags ↔
      ¬ env.Abandoned ∨ flags &&& O_NONBLOCK = 0 := by
  unfold ListenEnv.Abandoned
  by_cases hv : env.Vended
  · by_cases hs : env.send = sizeofListenRequest
    · by_cases ha : env.Answered
      · obtain ⟨hrecv, htype⟩ := id ha
        simp [listen, hv, hs, hrecv, htype, ha]
      · have hblocking : (listen env flags).flags = setfl flags (flags &&& ~~~O_NONBLOCK) := by
          unfold ListenEnv.Answered at ha
          simp only [listen, hv, hs, ne_eq, not_true_eq_false, if_false]
          grind
        simp [hblocking, hv, hs, ha, statusOf_blocking]
    · simp [listen, hv, hs]
  · simp [listen, hv]

/-! ## `accept4` -/

/-- Whether the flags of an open file make it non-blocking. -/
def Nonblocking (fl : UInt32) : Prop := fl &&& O_NONBLOCK ≠ 0

instance (fl : UInt32) : Decidable (Nonblocking fl) := inferInstanceAs (Decidable (_ ≠ _))

theorem or_and_self (f n : UInt32) : (f ||| n) &&& n = n := by
  apply UInt32.toBitVec_inj.mp
  ext i hi
  simp only [UInt32.toBitVec_and, UInt32.toBitVec_or, BitVec.getElem_and, BitVec.getElem_or]
  cases f.toBitVec[i] <;> simp

theorem or_ne_zero (f : UInt32) {n : UInt32} (hn : n ≠ 0) : f ||| n ≠ 0 := by
  intro h
  have hand := or_and_self f n
  rw [h, UInt32.zero_and] at hand
  exact hn hand.symm

/-- `accept4` makes every descriptor non-blocking: neither of its tests can fail. -/
theorem acceptedFlags_nonblocking (fl flags : UInt32) :
    Nonblocking (setfl fl (acceptedFlags fl flags)) := by
  have hflags : acceptedFlags fl flags = fl ||| FD_CLOEXEC ||| O_NONBLOCK := by
    rw [acceptedFlags, if_pos (or_ne_zero flags (by decide)), if_pos (or_ne_zero flags (by decide))]
  rw [Nonblocking, ← statusOf_and_nonblock, statusOf_setfl, statusOf_and_nonblock, hflags,
    or_and_self]
  decide

theorem accept4_ok {env : AcceptEnv} {addrlen : Option Nat} {flags : UInt32} {fd : Int}
    {fl : UInt32} {addr : Option (Sockaddr × Nat)} (h : accept4 env addrlen flags = .ok fd fl addr) :
    fl = acceptedFlags (env.getfl fd) flags := by
  unfold accept4 at h
  grind

/-- What `accept4` should do to the descriptor `fd` that it returns, with `fl` for `F_SETFL`. -/
def NonblockAsAsked (env : AcceptEnv) (flags : UInt32) (fd : Int) (fl : UInt32) : Prop :=
  Nonblocking (setfl (env.getfl fd) fl) ↔
    flags &&& SOCK_NONBLOCK ≠ 0 ∨ Nonblocking (env.getfl fd)

theorem accept4_nonblock_iff {env : AcceptEnv} {addrlen : Option Nat} {flags : UInt32} {fd : Int}
    {fl : UInt32} {addr : Option (Sockaddr × Nat)} (h : accept4 env addrlen flags = .ok fd fl addr) :
    NonblockAsAsked env flags fd fl ↔
      flags &&& SOCK_NONBLOCK ≠ 0 ∨ Nonblocking (env.getfl fd) := by
  have hset : Nonblocking (setfl (env.getfl fd) fl) :=
    accept4_ok h ▸ acceptedFlags_nonblocking (env.getfl fd) flags
  simp only [NonblockAsAsked, hset, true_iff]

/-- When the preloaded calls leave the flags of a descriptor as they should, whatever the calls below
them answer. -/
theorem statusFlags_kept_iff (connectEnv : ConnectEnv) (bindEnv : BindEnv) (listenEnv : ListenEnv)
    (acceptEnv : AcceptEnv) (flags : UInt32) (addrlen : Option Nat) (acceptFlags : UInt32) :
    (statusOf (connect connectEnv flags).flags = statusOf flags ↔
      ¬ connectEnv.ConversionFails ∨ statusOf flags = statusMask) ∧
    (statusOf (bind bindEnv flags).flags = statusOf flags ↔
      ¬ bindEnv.Abandoned ∨ statusOf flags = 0) ∧
    (statusOf (listen listenEnv flags).flags = statusOf flags ↔
      ¬ listenEnv.Abandoned ∨ flags &&& O_NONBLOCK = 0) ∧
    (∀ (fd : Int) (fl : UInt32) (addr : Option (Sockaddr × Nat)),
      accept4 acceptEnv addrlen acceptFlags = .ok fd fl addr →
      (NonblockAsAsked acceptEnv acceptFlags fd fl ↔
        acceptFlags &&& SOCK_NONBLOCK ≠ 0 ∨ Nonblocking (acceptEnv.getfl fd))) ∧
    ∀ (fd : Int) (fl : UInt32) (addr : Option (Sockaddr × Nat)),
      accept acceptEnv addrlen = .ok fd fl addr →
      (NonblockAsAsked acceptEnv 0 fd fl ↔ Nonblocking (acceptEnv.getfl fd)) := by
  refine ⟨connect_keeps_iff connectEnv flags, bind_keeps_iff bindEnv flags,
    listen_keeps_iff listenEnv flags, fun fd fl addr h => accept4_nonblock_iff h, ?_⟩
  intro fd fl addr h
  have hzero : ¬ (0 &&& SOCK_NONBLOCK ≠ (0 : UInt32)) := by decide
  rw [accept4_nonblock_iff h]
  simp only [hzero, false_or]

/-- A vendor that hands over the blocking descriptor 7. -/
def vendor : AcceptEnv where
  domain := some AF_UNIX
  getpeername := true
  recvmsg := some (NewConnectionResponse.toBytes { addr := arrayOf 16 [], port := htons 80 }
    (arrayOf 2 []), some ⟨SOL_SOCKET, SCM_RIGHTS, 7⟩)
  getfl _ := O_RDWR

/-- A non-blocking socket that cannot be bound because no socket vendor listens is blocking
afterwards, and `accept` returns a non-blocking descriptor that nobody asked for. -/
theorem statusFlags_lost :
    bind ⟨AF_INET, some SOCK_STREAM, some AF_INET, true, true, false, 0, 0, .kInvalidMessage⟩
        (O_RDWR ||| O_NONBLOCK) = ⟨some (-1), O_RDWR⟩ ∧
      statusOf O_RDWR ≠ statusOf (O_RDWR ||| O_NONBLOCK) ∧
      accept vendor none = .ok 7 (acceptedFlags O_RDWR 0) none ∧
      ¬ NonblockAsAsked vendor 0 7 (acceptedFlags O_RDWR 0) := by
  refine ⟨by decide, by decide, by decide, ?_⟩
  unfold NonblockAsAsked
  decide

/-- An `accept4` with `SOCK_NONBLOCK`. -/
theorem statusFlags_kept_iff_nonblock :
    NonblockAsAsked vendor SOCK_NONBLOCK 7 (acceptedFlags O_RDWR SOCK_NONBLOCK) := by
  obtain ⟨-, -, -, haccept4, -⟩ :=
    statusFlags_kept_iff ⟨some SOCK_STREAM, some AF_INET, AF_INET, true, true, true, 0⟩
      ⟨AF_INET, some SOCK_STREAM, some AF_INET, true, true, false, 0, 0, .kInvalidMessage⟩
      ⟨some AF_UNIX, true, 0, 0, .kInvalidMessage⟩ vendor O_RDWR none SOCK_NONBLOCK
  exact (haccept4 7 _ none (by decide)).mpr (.inl (by decide))

end SocketVendor
end Proxy
end TrustedCa
