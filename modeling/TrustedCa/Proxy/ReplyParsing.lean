import TrustedCa.Proxy.Preload

/-!
# What the preloaded client accepts as a reply

`socks5_client_connect` reads seven bytes, looks at the sixth for the type of the address, and reads
the rest of the reply. For a type that it does not know the length of the rest is still seven, so 14
bytes of such a reply are taken for a success. `parses_iff`: on every other stream a success has read
exactly a reply.

* `Reply`: the replies of a server that accepts.
* `socks5ClientConnect_asked`: the client after its request, on what arrives (`Socket.alive`).
-/

namespace TrustedCa
namespace Proxy
namespace Preload

/-- The method selection and the reply to a request, with an address of one of the three types and a
port. -/
inductive Reply : List Byte → Prop
  | v4 (addr : Bytes 4) (port : Bytes 2) :
    Reply ([0x05, 0x00, 0x05, 0x00, 0x00] ++ 0x01 :: (addr.val ++ port.val))
  | domain (len : Byte) (name : List Byte) (port : Bytes 2) : name.length = len.toNat →
    Reply ([0x05, 0x00, 0x05, 0x00, 0x00] ++ 0x03 :: len :: (name ++ port.val))
  | v6 (addr : Bytes 16) (port : Bytes 2) :
    Reply ([0x05, 0x00, 0x05, 0x00, 0x00] ++ 0x04 :: (addr.val ++ port.val))

/-- The types of addresses. -/
def KnownAtyp (atyp : Byte) : Prop := atyp = 0x01 ∨ atyp = 0x03 ∨ atyp = 0x04

instance (atyp : Byte) : Decidable (KnownAtyp atyp) := inferInstanceAs (Decidable (_ ∨ _))

/-- The request goes out. -/
def Asked (env : Libc) (addr : Sockaddr) : Prop :=
  (fillAddrPort addr).length ≠ 0 ∧ env.send (request addr) = (request addr).length

theorem Reply.atyp {reply : List Byte} (hr : Reply reply) : KnownAtyp (reply.getD 5 0) := by
  cases hr with
  | v4 addr port => exact .inl rfl
  | domain len name port h => exact .inr (.inl rfl)
  | v6 addr port => exact .inr (.inr rfl)

/-- A list of `n` bytes and two more. -/
theorem exists_addr_port_of_length {n : Nat} {bs : List Byte} (h : bs.length = n + 2) :
    ∃ (addr : Bytes n) (port : Bytes 2), bs = addr.val ++ port.val :=
  ⟨⟨bs.take n, by simp [h]⟩, ⟨bs.drop n, by simp [h]⟩, (List.take_append_drop n bs).symm⟩

/-- Bytes that begin as expected, with a known type and the length for it, are a reply. -/
theorem reply_of_length {atyp x : Byte} {rest : List Byte} (ha : KnownAtyp atyp)
    (hlen : rest.length = toReceive atyp x) : Reply (expectedReply ++ atyp :: x :: rest) := by
  rcases ha with rfl | rfl | rfl
  · have hlen' : (x :: rest).length = 4 + 2 := congrArg Nat.succ hlen
    obtain ⟨addr, port, h⟩ := exists_addr_port_of_length hlen'
    rw [h]
    exact .v4 addr port
  · obtain ⟨addr, port, rfl⟩ := exists_addr_port_of_length (n := x.toNat) hlen
    exact .domain x addr.val port addr.property
  · have hlen' : (x :: rest).length = 16 + 2 := congrArg Nat.succ hlen
    obtain ⟨addr, port, h⟩ := exists_addr_port_of_length hlen'
    rw [h]
    exact .v6 addr port

section Client

variable {env : Libc} {addr : Sockaddr} {sock : Socket} {n : Nat}

theorem socks5ClientConnect_not_asked (h : ¬ Asked env addr) :
    ∃ o, socks5ClientConnect env n addr sock = some o ∧ o.ret < 0 := by
  unfold socks5ClientConnect
  split
  · exact ⟨_, rfl, Int.negSucc_lt_zero 0⟩
  · next hfill =>
    split
    · exact ⟨_, rfl, Int.negSucc_lt_zero 0⟩
    · next hsend => exact absurd ⟨hfill, not_not.mp hsend⟩ h

/-- Fewer than seven bytes, or others than expected, are an error. -/
theorem socks5ClientConnect_refused (hn : sock.length < n)
    (h : ¬ (7 ≤ sock.alive.length ∧ sock.alive.take 5 = expectedReply)) :
    ∃ o, socks5ClientConnect env n addr sock = some o ∧ o.ret < 0 := by
  by_cases ha : Asked env addr
  · obtain ⟨sock₁, h₁, -⟩ := recvAll_spec sock (expectedReply.length + 2) [] hn
    rw [socks5ClientConnect, if_neg ha.1, if_neg (not_not.mpr ha.2), h₁]
    simp only [Option.bind_eq_bind, Option.bind_some, List.nil_append]
    split
    · exact ⟨_, rfl, Int.negSucc_lt_zero 0⟩
    · next hlen =>
      split
      · refine ⟨_, rfl, ?_⟩
        dsimp only
        split
        · next hrep =>
          have hpos := mt (UInt8.toNat_inj (b := 0)).mp hrep
          simp only [UInt8.toNat_zero] at hpos
          omega
        · exact Int.negSucc_lt_zero 0
      · next hexp =>
        refine absurd ⟨?_, ?_⟩ h
        · simpa [expectedReply] using hlen
        · simpa [expectedReply, List.take_take] using hexp
  · exact socks5ClientConnect_not_asked ha

/-- Seven bytes that begin as expected: the rest has the length that the type of the address asks
for. -/
theorem socks5ClientConnect_rest (ha : Asked env addr) (hn : sock.length < n) {atyp x : Byte}
    {rest : List Byte} (halive : sock.alive = expectedReply ++ atyp :: x :: rest) :
    ∃ o, socks5ClientConnect env n addr sock = some o ∧
      if toReceive atyp x ≤ rest.length ∧
          (bufferSize < toReceive atyp x + 1 → env.malloc (toReceive atyp x + 1) = true) then
        o.ret = 0 ∧ sock.bytes =
          (expectedReply ++ atyp :: x :: rest.take (toReceive atyp x)) ++ o.sock.bytes
      else o.ret < 0 := by
  obtain ⟨sock₁, h₁, hr₁⟩ := recvAll_spec sock (expectedReply.length + 2) [] hn
  obtain ⟨sock₂, h₂, hr₂⟩ := recvAll_spec sock₁ (toReceive atyp x) []
    (Nat.lt_of_le_of_lt hr₁.length hn)
  have hbytes₁ : sock.bytes = (expectedReply ++ [atyp, x]) ++ sock₁.bytes := by
    rw [hr₁.bytes, halive]
    rfl
  have hrest : sock₁.alive = rest := by
    rw [hr₁.alive (by simp [halive]), halive]
    rfl
  have hbytes₂ : sock₁.bytes = rest.take (toReceive atyp x) ++ sock₂.bytes := hrest ▸ hr₂.bytes
  have h₂' : recvAll n sock₁ (toReceive atyp x) [] = some (rest.take (toReceive atyp x), sock₂) :=
    hrest ▸ h₂
  have h₁' : recvAll n sock (expectedReply.length + 2) [] =
      some (expectedReply ++ [atyp, x], sock₁) := by
    rw [h₁, halive]
    rfl
  rw [socks5ClientConnect, if_neg ha.1, if_neg (not_not.mpr ha.2), h₁']
  have hlen : (expectedReply ++ [atyp, x]).length = expectedReply.length + 2 := rfl
  have htake : (expectedReply ++ [atyp, x]).take 5 = expectedReply := rfl
  simp only [Option.bind_eq_bind, Option.bind_some, hlen, htake, ne_eq, not_true_eq_false, if_false]
  show ∃ o, (if toReceive atyp x + 1 > bufferSize ∧ env.malloc (toReceive atyp x + 1) = false then _
    else _) = some o ∧ _
  by_cases hmalloc : bufferSize < toReceive atyp x + 1 → env.malloc (toReceive atyp x + 1) = true
  · rw [if_neg (by simpa using hmalloc)]
    refine ⟨⟨if (rest.take (toReceive atyp x)).length ≠ toReceive atyp x then -1 else 0,
      request addr, sock₂⟩, ?_, ?_⟩
    · show (recvAll n sock₁ (toReceive atyp x) []).bind _ = _
      rw [h₂']
      rfl
    dsimp only
    by_cases hle : toReceive atyp x ≤ rest.length
    · rw [if_pos ⟨hle, hmalloc⟩, if_neg (by simpa using hle), hbytes₁, hbytes₂]
      exact ⟨rfl, by simp⟩
    · rw [if_neg (fun h => hle h.1), if_pos (by simpa using hle)]
      exact Int.negSucc_lt_zero 0
  · rw [if_pos (by simpa using hmalloc)]
    refine ⟨_, rfl, ?_⟩
    rw [if_neg (fun h => hmalloc h.2)]
    exact Int.negSucc_lt_zero 0

/-- **The client parses replies.** It ends with a negative value, or with 0 after it has read
exactly a reply and nothing behind it. -/
def Parses (env : Libc) (n : Nat) (addr : Sockaddr) (sock : Socket) : Prop :=
  ∃ o, socks5ClientConnect env n addr sock = some o ∧
    (o.ret < 0 ∨ o.ret = 0 ∧ ∃ reply, Reply reply ∧ sock.bytes = reply ++ o.sock.bytes)

/-- What arrives begins as expected, has an unknown type of address, and at least eight more
bytes. -/
def UnknownAtyp (sock : Socket) : Prop :=
  expectedReply <+: sock.alive ∧ ¬ KnownAtyp (sock.alive.getD 5 0) ∧ 14 ≤ sock.alive.length

/-- Seven bytes that begin as expected. -/
theorem exists_front (hlen : 7 ≤ sock.alive.length) (hfront : sock.alive.take 5 = expectedReply) :
    ∃ atyp x rest, sock.alive = expectedReply ++ atyp :: x :: rest := by
  obtain ⟨atyp, rest₁, h₁⟩ := List.exists_cons_of_length_pos (l := sock.alive.drop 5)
    (by rw [List.length_drop]; omega)
  obtain ⟨x, rest, rfl⟩ := List.exists_cons_of_length_pos (l := rest₁) (by
    have := congrArg List.length h₁
    simp only [List.length_drop, List.length_cons] at this
    omega)
  exact ⟨atyp, x, rest, by rw [← hfront, ← h₁, List.take_append_drop]⟩

theorem parses_known (ha : Asked env addr) (hn : sock.length < n) {atyp x : Byte} {rest : List Byte}
    (halive : sock.alive = expectedReply ++ atyp :: x :: rest) (hknown : KnownAtyp atyp) :
    Parses env n addr sock := by
  obtain ⟨o, heq, ho⟩ := socks5ClientConnect_rest ha hn halive
  refine ⟨o, heq, ?_⟩
  split at ho
  · next hread =>
    refine .inr ⟨ho.1, _, ?_, ho.2⟩
    exact reply_of_length hknown (List.length_take_of_le hread.1)
  · exact .inl ho

/-- For an unknown type the length of the rest is the one from before, and no memory is needed for
it. -/
theorem parses_unknown_iff (ha : Asked env addr) (hn : sock.length < n) {atyp x : Byte}
    {rest : List Byte} (halive : sock.alive = expectedReply ++ atyp :: x :: rest)
    (hunknown : ¬ KnownAtyp atyp) : Parses env n addr sock ↔ ¬ 7 ≤ rest.length := by
  obtain ⟨o, heq, ho⟩ := socks5ClientConnect_rest ha hn halive
  have hseven : toReceive atyp x = 7 := by
    simp only [KnownAtyp, not_or] at hunknown
    rw [toReceive, if_neg hunknown.1, if_neg hunknown.2.1, if_neg hunknown.2.2]
  rw [hseven] at ho
  by_cases hread : 7 ≤ rest.length
  · rw [if_pos ⟨hread, fun h => absurd h (by decide)⟩] at ho
    refine iff_of_false ?_ (not_not.mpr hread)
    rintro ⟨o', heq', hparses⟩
    rw [heq] at heq'
    cases heq'
    rcases hparses with hneg | ⟨-, reply, hreply, hbytes⟩
    · omega
    · rw [ho.2] at hbytes
      have hsame := List.append_cancel_right hbytes
      rw [← hsame] at hreply
      exact hunknown hreply.atyp
  · rw [if_neg (fun h => hread h.1)] at ho
    exact iff_of_true ⟨o, heq, .inl ho⟩ hread

/-- The client parses replies, for every stream and every way in which `recv` splits it, if and only
if it could not send its request or the server does not answer with an unknown type of address and
at least eight bytes behind it. -/
theorem parses_iff (env : Libc) (addr : Sockaddr) (sock : Socket) {n : Nat} (hn : sock.length < n) :
    Parses env n addr sock ↔ ¬ (Asked env addr ∧ UnknownAtyp sock) := by
  by_cases ha : Asked env addr
  swap
  · obtain ⟨o, heq, hret⟩ : ∃ o, socks5ClientConnect env n addr sock = some o ∧ o.ret < 0 :=
      socks5ClientConnect_not_asked ha
    exact iff_of_true ⟨o, heq, .inl hret⟩ fun h => ha h.1
  by_cases hexp : 7 ≤ sock.alive.length ∧ sock.alive.take 5 = expectedReply
  swap
  · obtain ⟨o, heq, hret⟩ : ∃ o, socks5ClientConnect env n addr sock = some o ∧ o.ret < 0 :=
      socks5ClientConnect_refused hn hexp
    refine iff_of_true ⟨o, heq, .inl hret⟩ ?_
    rintro ⟨-, hfront, -, hlen⟩
    exact hexp ⟨by omega, (List.prefix_iff_eq_take.mp hfront).symm⟩
  obtain ⟨atyp, x, rest, halive⟩ := exists_front hexp.1 hexp.2
  have hatyp : sock.alive.getD 5 0 = atyp := by
    rw [halive]
    rfl
  have hlen : sock.alive.length = rest.length + 7 := by
    rw [halive]
    simp [expectedReply]
  by_cases hknown : KnownAtyp atyp
  · exact iff_of_true (parses_known ha hn halive hknown) fun h => h.2.2.1 (hatyp ▸ hknown)
  · rw [parses_unknown_iff ha hn halive hknown, UnknownAtyp, hatyp]
    have hfront : expectedReply <+: sock.alive := halive ▸ List.prefix_append ..
    constructor
    · rintro hshort ⟨-, -, -, hfourteen⟩
      omega
    · exact fun h hread => h ⟨ha, hfront, hknown, by omega⟩

end Client

/-- A `send` that sends everything, and enough memory. -/
def Libc.ample : Libc where
  send bs := bs.length
  malloc _ := true

/-- A reply with a domain name, in three segments with an interrupted call between them. -/
theorem parses_iff_domain :
    Parses .ample 5 (.inet (arrayOf 4 [127, 0, 0, 1]) (htons 80))
      [.data [0x05, 0x00], .eintr, .data [0x05, 0x00, 0x00, 0x03, 0x02, 0x61],
        .data [0x62, 0x00, 0x50, 0x48]] :=
  (parses_iff _ _ _ (by decide)).mpr fun h => h.2.2.1 (.inr (.inl rfl))

/-- A reply with the type 02: the client returns 0. -/
theorem parses_unknownAtyp :
    ¬ ∀ (env : Libc) (addr : Sockaddr) (sock : Socket) (n : Nat), sock.length < n →
      Parses env n addr sock := by
  intro h
  obtain ⟨o, heq, hparses⟩ := h .ample (.inet (arrayOf 4 [127, 0, 0, 1]) (htons 80))
    [.data ([0x05, 0x00, 0x05, 0x00, 0x00, 0x02] ++ List.replicate 8 0x00)] 2 (by decide)
  cases heq
  rcases hparses with hneg | ⟨-, reply, hreply, hbytes⟩
  · exact absurd hneg (by decide)
  · have hbytes' : [0x05, 0x00, 0x05, 0x00, 0x00, 0x02] ++ List.replicate 8 0x00 = reply :=
      hbytes.trans (List.append_nil reply)
    have hatyp := hreply.atyp
    rw [← hbytes'] at hatyp
    exact absurd hatyp (by decide)

end Preload
end Proxy
end TrustedCa
