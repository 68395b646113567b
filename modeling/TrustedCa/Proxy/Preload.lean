import TrustedCa.Proxy.Protocol

/-!
# The preloaded SOCKS5 client (`proxy/src/preload.cc`)

`socks5ClientConnect` sends the greeting and the request in one message and reads both replies from
a blocking socket. A socket is what its `recv` calls will see: a segment of the stream, an
interrupted call or an error. A segment longer than the requested length is cut, so the segments
cover every way in which `recv` can split the stream. `recv_all` repeats `recv` with a bound on its
iterations; `none` means that the bound was too small. With `MSG_TRUNC` the bytes are counted and
not stored; the client does not look at them, so the flag is left out.
-/

namespace TrustedCa
namespace Proxy
namespace Preload

/-- The outcome of one `recv`. `data []` is the return value 0, the end of the stream. -/
inductive Recv where
  | eintr
  | error
  | data (bs : List Byte)
  deriving DecidableEq

/-- The `recv` outcomes to come. After them the peer has shut the connection down. -/
abbrev Socket := List Recv

/-- One `recv` of at most `len` bytes. -/
def recv : Socket → Nat → Recv × Socket
  | [], _ => (.data [], [])
  | .data bs :: sock, len =>
    if bs.length ≤ len then (.data bs, sock) else (.data (bs.take len), .data (bs.drop len) :: sock)
  | ev :: sock, _ => (ev, sock)

/-- `recv_all`: the bytes received, `received` of them before. -/
def recvAll : Nat → Socket → Nat → List Byte → Option (List Byte × Socket)
  | 0, _, _, _ => none
  | n + 1, sock, len, received =>
    if received.length < len then
      match recv sock (len - received.length) with
      | (.eintr, sock) => recvAll n sock len received
      | (.error, sock) => some (received, sock)
      | (.data [], sock) => some (received, sock)
      | (.data bs, sock) => recvAll n sock len (received ++ bs)
    else
      some (received, sock)

/-- `send`, as its return value, and `malloc`, as whether it succeeds. -/
structure Libc where
  send : List Byte → Int
  malloc : Nat → Bool

/-- The return value of `socks5_client_connect`, the bytes that it gave to `send`, and the socket
after it. -/
structure Outcome where
  ret : Int
  sent : List Byte
  sock : Socket
  deriving DecidableEq

def expectedReply : List Byte := [0x05, 0x00, 0x05, 0x00, 0x00]

/-- The greeting and the CONNECT request. -/
def request (addr : Sockaddr) : List Byte := [0x05, 0x01, 0x00, 0x05, 0x01, 0x00] ++ fillAddrPort addr

/-- The number of bytes behind the first one of the bound address. For an unknown ATYP it is what
it was before. -/
def toReceive (atyp extraByte : Byte) : Nat :=
  if atyp = 0x01 then 4 + 2 - 1
  else if atyp = 0x03 then extraByte.toNat + 2
  else if atyp = 0x04 then 16 + 2 - 1
  else 7

/-- The size of the stack buffer that the replies are read into. -/
def bufferSize : Nat := 64

/-- `socks5_client_connect`, with a bound on the iterations of each `recv_all`. -/
def socks5ClientConnect (env : Libc) (n : Nat) (addr : Sockaddr) (sock : Socket) : Option Outcome :=
  if (fillAddrPort addr).length = 0 then
    some ⟨-1, [], sock⟩
  else if env.send (request addr) ≠ (request addr).length then
    some ⟨-1, request addr, sock⟩
  else do
    let (buffer, sock) ← recvAll n sock (expectedReply.length + 2) []
    if buffer.length ≠ expectedReply.length + 2 then
      return ⟨-1, request addr, sock⟩
    else if buffer.take 5 ≠ expectedReply then
      let rep := buffer.getD 3 0
      return ⟨if rep ≠ 0 then -rep.toNat else -1, request addr, sock⟩
    else
      let len := toReceive (buffer.getD 5 0) (buffer.getD 6 0)
      if len + 1 > bufferSize ∧ env.malloc (len + 1) = false then
        return ⟨-1, request addr, sock⟩
      else do
        let (rest, sock) ← recvAll n sock len []
        return ⟨if rest.length ≠ len then -1 else 0, request addr, sock⟩

/-! ## Reading a stream -/

namespace Socket

def bytesOf : Recv → List Byte
  | .data bs => bs
  | .eintr | .error => []

/-- The stream that the socket delivers. -/
def bytes (sock : Socket) : List Byte := sock.flatMap bytesOf

/-- A connection that stays up: no error, and no end of the stream before its last segment. -/
def Up (sock : Socket) : Prop := ∀ ev ∈ sock, ev ≠ .error ∧ ev ≠ .data []

/-- The part of the stream before the first error or the end of the stream. -/
def alive : Socket → List Byte
  | [] | .error :: _ | .data [] :: _ => []
  | ev :: sock => bytesOf ev ++ alive sock

@[simp] theorem bytes_nil : bytes [] = [] := rfl

@[simp] theorem bytes_cons (ev : Recv) (sock : Socket) :
    bytes (ev :: sock) = bytesOf ev ++ bytes sock := rfl

theorem up_cons {ev : Recv} {sock : Socket} :
    Up (ev :: sock) ↔ (ev ≠ .error ∧ ev ≠ .data []) ∧ Up sock := by
  simp [Up]

@[simp] theorem alive_eintr (sock : Socket) : alive (.eintr :: sock) = alive sock := rfl

theorem alive_data {bs : List Byte} (hb : bs ≠ []) (sock : Socket) :
    alive (.data bs :: sock) = bs ++ alive sock := by
  obtain ⟨b, bs, rfl⟩ := List.exists_cons_of_ne_nil hb
  rfl

theorem Up.alive {sock : Socket} (hup : sock.Up) : sock.alive = sock.bytes := by
  induction sock with
  | nil => rfl
  | cons ev sock ih =>
    obtain ⟨⟨he, hd⟩, hup'⟩ := up_cons.mp hup
    cases ev with
    | error => exact absurd rfl he
    | eintr => exact ih hup'
    | data bs =>
      have hb : bs ≠ [] := fun h => hd (by rw [h])
      rw [alive_data hb, ih hup']
      rfl

end Socket

theorem recvAll_full {n len : Nat} {received : List Byte} (sock : Socket) (hn : 0 < n)
    (h : len ≤ received.length) : recvAll n sock len received = some (received, sock) := by
  cases n with
  | zero => omega
  | succ n => simp [recvAll, Nat.not_lt.mpr h]

/-- A segment that fits into the rest of the buffer. -/
theorem recvAll_segment {n len : Nat} {received bs : List Byte} {sock : Socket} (hb : bs ≠ [])
    (hlt : received.length < len) (hfit : bs.length ≤ len - received.length) :
    recvAll (n + 1) (.data bs :: sock) len received = recvAll n sock len (received ++ bs) := by
  obtain ⟨b, bs, rfl⟩ := List.exists_cons_of_ne_nil hb
  rw [recvAll, if_pos hlt]
  simp only [recv, if_pos hfit]

/-- A segment that is longer than the rest of the buffer. -/
theorem recvAll_cut {n len : Nat} {received bs : List Byte} {sock : Socket}
    (hlt : received.length < len) (hcut : len - received.length < bs.length) (hn : 0 < n) :
    recvAll (n + 1) (.data bs :: sock) len received =
      some (received ++ bs.take (len - received.length),
        .data (bs.drop (len - received.length)) :: sock) := by
  have hne : bs.take (len - received.length) ≠ [] := by
    rw [← List.length_pos_iff, List.length_take]; omega
  obtain ⟨b, t, ht⟩ := List.exists_cons_of_ne_nil hne
  rw [recvAll, if_pos hlt]
  simp only [recv, if_neg (Nat.not_le.mpr hcut), ht]
  rw [← ht, recvAll_full _ hn]
  rw [List.length_append, List.length_take]; omega

/-- What `recv_all` does: it takes bytes off the stream until it has all of them or the connection
ends or fails. What it leaves of a connection that stays up stays up. -/
structure Received (sock : Socket) (k : Nat) (sock' : Socket) : Prop where
  bytes : sock.bytes = sock.alive.take k ++ sock'.bytes
  alive : k ≤ sock.alive.length → sock'.alive = sock.alive.drop k
  up : sock.Up → sock'.Up
  length : sock'.length ≤ sock.length

theorem recvAll_spec (sock : Socket) (len : Nat) (received : List Byte) {n : Nat}
    (hn : sock.length < n) :
    ∃ sock' : Socket, recvAll n sock len received =
        some (received ++ sock.alive.take (len - received.length), sock') ∧
      Received sock (len - received.length) sock' := by
  induction sock generalizing received n with
  | nil =>
    obtain ⟨n, rfl⟩ := Nat.exists_eq_add_of_lt (Nat.zero_lt_of_lt hn)
    refine ⟨[], ?_, by simp [Socket.alive], by simp [Socket.alive], id, Nat.le_refl _⟩
    rw [recvAll]
    split
    · simp [recv, Socket.alive]
    · simp [Socket.alive]
  | cons ev sock ih =>
    obtain ⟨n, rfl⟩ := Nat.exists_eq_add_of_lt (Nat.zero_lt_of_lt hn)
    simp only [List.length_cons] at hn
    by_cases hlt : received.length < len
    · cases ev with
      | error =>
        refine ⟨sock, ?_, by simp [Socket.alive, Socket.bytesOf], fun hle => ?_,
          fun hup => (Socket.up_cons.mp hup).2, Nat.le_succ _⟩
        · rw [recvAll, if_pos hlt]
          simp [recv, Socket.alive]
        · simp only [Socket.alive, List.length_nil] at hle
          omega
      | eintr =>
        obtain ⟨sock', h1, hr⟩ := ih received (n := 0 + n) (by omega)
        refine ⟨sock', ?_, hr.bytes, hr.alive, fun hup => hr.up (Socket.up_cons.mp hup).2,
          Nat.le_succ_of_le hr.length⟩
        rw [recvAll, if_pos hlt]
        exact h1
      | data bs =>
        by_cases hb : bs = []
        · subst hb
          refine ⟨sock, ?_, by simp [Socket.alive, Socket.bytesOf], fun hle => ?_,
            fun hup => (Socket.up_cons.mp hup).2, Nat.le_succ _⟩
          · rw [recvAll, if_pos hlt]
            simp [recv, Socket.alive]
          · simp only [Socket.alive, List.length_nil] at hle
            omega
        rw [Socket.alive_data hb]
        by_cases hfit : bs.length ≤ len - received.length
        · obtain ⟨sock', h1, hr⟩ := ih (received ++ bs) (n := 0 + n) (by omega)
          rw [List.length_append, ← Nat.sub_sub] at h1 hr
          refine ⟨sock', ?_, ?_, ?_, fun hup => hr.up (Socket.up_cons.mp hup).2,
            Nat.le_succ_of_le hr.length⟩
          · rw [recvAll_segment hb hlt hfit, h1, List.take_append, List.take_of_length_le hfit,
              List.append_assoc]
          · rw [Socket.alive_data hb, List.take_append, List.take_of_length_le hfit,
              List.append_assoc, ← hr.bytes]
            rfl
          · rw [Socket.alive_data hb, List.length_append, List.drop_append,
              List.drop_eq_nil_of_le hfit]
            exact fun hle => hr.alive (by omega)
        · have hcut : len - received.length < bs.length := by omega
          have hrest : bs.drop (len - received.length) ≠ [] := by
            rw [← List.length_pos_iff, List.length_drop]
            omega
          refine ⟨.data (bs.drop (len - received.length)) :: sock,
            (recvAll_cut hlt hcut (by omega)).trans ?_, ?_, fun _ => ?_, fun hup => ?_,
            Nat.le_refl _⟩
          · rw [List.take_append_of_le_length (by omega)]
          · rw [Socket.alive_data hb, List.take_append_of_le_length (by omega)]
            simp [Socket.bytesOf, ← List.append_assoc]
          · rw [Socket.alive_data hb, Socket.alive_data hrest,
              List.drop_append_of_le_length (by omega)]
          · exact Socket.up_cons.mpr ⟨⟨Recv.noConfusion, fun h => hrest (Recv.data.inj h)⟩,
              (Socket.up_cons.mp hup).2⟩
    · have h0 : len - received.length = 0 := by omega
      have hf : recvAll (0 + n + 1) (ev :: sock) len received = some (received, ev :: sock) :=
        recvAll_full _ (by omega) (by omega)
      rw [h0]
      exact ⟨ev :: sock, by simpa using hf, by simp, by simp, id, Nat.le_refl _⟩

/-- The whole buffer of an exact `recv_all`. -/
theorem recvAll_exact {sock : Socket} (hup : sock.Up) (bs later : List Byte)
    (hb : sock.bytes = bs ++ later) {n : Nat} (hn : sock.length < n) :
    ∃ sock' : Socket, recvAll n sock bs.length [] = some (bs, sock') ∧ sock'.bytes = later ∧
      sock'.Up ∧ sock'.length ≤ sock.length := by
  obtain ⟨sock', h1, hr⟩ := recvAll_spec sock bs.length [] hn
  have htake : sock.alive.take bs.length = bs := by rw [hup.alive, hb, List.take_left]
  rw [List.length_nil, Nat.sub_zero] at h1 hr
  rw [htake, List.nil_append] at h1
  have hbytes := hr.bytes
  rw [htake, hb] at hbytes
  exact ⟨sock', h1, (List.append_cancel_left hbytes).symm, hr.up hup, hr.length⟩

/-! ## The replies of a server that accepts -/

/-- The method selection and the reply to a request, with the bound address `b`. -/
def acceptance (b : Sockaddr) : List Byte := [0x05, 0x00] ++ ([0x05, 0x00, 0x00] ++ fillAddrPort b)

/-- The client on the replies of a server that accepts: it returns 0, and it has read exactly the
replies. -/
theorem socks5ClientConnect_accepted {env : Libc} {addr : Sockaddr} (ha : addr.IsIp)
    (hsend : env.send (request addr) = (request addr).length) {b : Sockaddr} (hb : b.IsIp)
    {sock : Socket} (hup : sock.Up) {later : List Byte} (hs : sock.bytes = acceptance b ++ later)
    {n : Nat} (hn : sock.length < n) :
    ∃ sock' : Socket, socks5ClientConnect env n addr sock = some ⟨0, request addr, sock'⟩ ∧
      sock'.bytes = later := by
  have hfill : (fillAddrPort addr).length ≠ 0 := by
    rw [fillAddrPort_length]; cases addr <;> simp_all [Sockaddr.IsIp]
  have reads (atyp : Byte) (ip : List Byte) (hf : fillAddrPort b = atyp :: ip)
      (hlen : toReceive atyp (ip.getD 0 0) + 1 = ip.length) (hsmall : ip.length ≤ bufferSize) :
      ∃ sock' : Socket, socks5ClientConnect env n addr sock = some ⟨0, request addr, sock'⟩ ∧
        sock'.bytes = later := by
    obtain ⟨x, rest, rfl⟩ : ∃ x rest, ip = x :: rest :=
      List.exists_cons_of_length_eq_add_one hlen.symm
    simp only [List.getD_cons_zero, List.length_cons, Nat.add_right_cancel_iff] at hlen hsmall
    obtain ⟨s1, h1, hb1, hup1, hl1⟩ := recvAll_exact hup
      [0x05, 0x00, 0x05, 0x00, 0x00, atyp, x] (rest ++ later) (by simp [hs, acceptance, hf]) hn
    obtain ⟨s2, h2, hb2, -, -⟩ := recvAll_exact hup1 rest later hb1 (Nat.lt_of_le_of_lt hl1 hn)
    refine ⟨s2, ?_, hb2⟩
    have hmalloc : ¬ bufferSize ≤ rest.length := Nat.not_le.mpr hsmall
    simp only [List.length_cons, List.length_nil] at h1
    simp [socks5ClientConnect, hfill, hsend, expectedReply, h1, h2, hlen, Nat.lt_add_one_iff, hmalloc]
  cases b with
  | inet ip port =>
    refine reads 0x01 (ip.val ++ port.val) rfl ?_ ?_
    · simp [toReceive, ip.property, port.property]
    · simp [bufferSize, ip.property, port.property]
  | inet6 ip port =>
    refine reads 0x04 (ip.val ++ port.val) rfl ?_ ?_
    · simp [toReceive, ip.property, port.property]
    · simp [bufferSize, ip.property, port.property]
  | other f => exact absurd hb id

end Preload
end Proxy
end TrustedCa
