import TrustedCa.Proxy.ConnectRoundTrip
import TrustedCa.Proxy.ReplyParsing
import TrustedCa.Proxy.Session

/-!
# The tunnel of a CONNECT

`socks5_client_connect` in the application's process talks to a session of the bridge, and what the
application writes later follows the request on the same stream. Neither side sees the other's
state: the bridge has received some prefix of what the client has sent, and the client some prefix
of what the bridge has written.

* `request_unique`: a request is read off a stream in one way only.
* `Shown`: what a client can see of the responses, when any of them may fail half-way.
* `connect_agreement`: whatever fails, the bridge connects to no address but the client's, and the
  client succeeds only if that connection is there.
* `connect_tunnel`: with sockets that work, both sides agree, and what is left on the two streams is
  what the application and the destination have written.
-/

namespace TrustedCa
namespace Proxy

namespace Socks5

variable {g g' f f' t t' p p' : List Byte} {cmd cmd' : Byte} {a a' : Sockaddr}

/-! ## The grammar is unambiguous -/

theorem greeting_unique (hg : Greeting g) (hg' : Greeting g') (heq : g ++ t = g' ++ t') :
    g = g' ∧ t = t' := by
  obtain ⟨n, ms, hm, -, -, rfl⟩ := hg
  obtain ⟨n', ms', hm', -, -, rfl⟩ := hg'
  obtain ⟨rfl, hmethods⟩ := List.cons.inj (List.cons.inj heq).2
  obtain ⟨rfl, rfl⟩ := List.append_inj hmethods (hm.trans hm'.symm)
  exact ⟨rfl, rfl⟩

theorem addrPort_unique {k : Nat} {ip ip' : Bytes k} {port port' : Bytes 2}
    (heq : ip.val ++ port.val ++ t = ip'.val ++ port'.val ++ t') :
    ip = ip' ∧ port = port' ∧ t = t' := by
  obtain ⟨hfield, rfl⟩ := List.append_inj heq
    ((addrPort_length ip port).trans (addrPort_length ip' port').symm)
  obtain ⟨hip, hport⟩ := List.append_inj hfield (ip.property.trans ip'.property.symm)
  exact ⟨Subtype.ext hip, Subtype.ext hport, rfl⟩

theorem addrField_unique (hf : AddrField f a) (hf' : AddrField f' a') (heq : f ++ t = f' ++ t') :
    f = f' ∧ a = a' ∧ t = t' := by
  cases hf with
  | v4 ip port =>
    cases hf' with
    | v4 ip' port' =>
      obtain ⟨rfl, rfl, rfl⟩ := addrPort_unique (List.cons.inj heq).2
      exact ⟨rfl, rfl, rfl⟩
    | v6 ip' port' => exact absurd (List.cons.inj heq).1 (by decide)
  | v6 ip port =>
    cases hf' with
    | v4 ip' port' => exact absurd (List.cons.inj heq).1 (by decide)
    | v6 ip' port' =>
      obtain ⟨rfl, rfl, rfl⟩ := addrPort_unique (List.cons.inj heq).2
      exact ⟨rfl, rfl, rfl⟩

/-- A stream starts with one request at most. -/
theorem request_unique (h : Request cmd p a) (h' : Request cmd' p' a') (heq : p ++ t = p' ++ t') :
    p = p' ∧ cmd = cmd' ∧ a = a' := by
  obtain ⟨g, f, hg, hf, rfl⟩ := h
  obtain ⟨g', f', hg', hf', rfl⟩ := h'
  simp only [List.append_assoc] at heq
  obtain ⟨rfl, hrequest⟩ := greeting_unique hg hg' heq
  simp only [List.cons_append, List.nil_append, List.cons.injEq, true_and] at hrequest
  obtain ⟨rfl, hfields⟩ := hrequest
  obtain ⟨rfl, rfl, -⟩ := addrField_unique hf hf' hfields
  exact ⟨rfl, rfl, rfl⟩

/-! ## What the client sees -/

/-- What the other side can see of the responses among the calls: all of a response that was
written, and any part of one that was not. -/
inductive Shown : List Call → List Byte → Prop
  | nil : Shown [] []
  | response {data part bs : List Byte} {ret : CallbackStatus} {calls : List Call} :
    part <+: data → (ret = .kStatusOK → part = data) → Shown calls bs →
    Shown (.response data ret :: calls) (part ++ bs)
  | connect {addr : Sockaddr} {ret : CallbackStatus} {calls : List Call} {bs : List Byte} :
    Shown calls bs → Shown (.connect addr ret :: calls) bs
  | destAddress {remote : Bool} {ret : CallbackStatus} {calls : List Call} {bs : List Byte} :
    Shown calls bs → Shown (.destAddress remote ret :: calls) bs
  | bind {port : UInt16} {ret : CallbackStatus} {calls : List Call} {bs : List Byte} :
    Shown calls bs → Shown (.bind port ret :: calls) bs

/-- Nobody sees more than the bytes of the responses. -/
theorem shown_length {calls : List Call} {bs : List Byte} (h : Shown calls bs) :
    bs.length ≤ ((calls.filterMap Call.sent).flatMap Prod.fst).length := by
  induction h with
  | nil => exact Nat.le_refl 0
  | @response data part bs ret calls hpart _ _ ih =>
    have hcons : ((Call.response data ret :: calls).filterMap Call.sent).flatMap Prod.fst =
        data ++ (calls.filterMap Call.sent).flatMap Prod.fst := by simp [Call.sent]
    rw [hcons, List.length_append, List.length_append]
    exact Nat.add_le_add hpart.length_le ih
  | connect _ ih => exact ih
  | destAddress _ ih => exact ih
  | bind _ ih => exact ih

/-- All of the responses, when all were written. -/
theorem shown_eq {c : Ctl} {bs : List Byte} (h : Shown c.calls bs)
    (hall : ∀ data ret, .response data ret ∈ c.calls → ret = .kStatusOK) : bs = c.responses := by
  rw [Ctl.responses]
  generalize c.calls = calls at h hall
  induction h with
  | nil => rfl
  | @response data part bs ret calls hpart hok _ ih =>
    have hdata := hok (hall data ret List.mem_cons_self)
    rw [hdata, ih fun data ret hmem => hall data ret (List.mem_cons_of_mem _ hmem)]
    simp [Call.sent]
  | connect _ ih => exact ih fun data ret hmem => hall data ret (List.mem_cons_of_mem _ hmem)
  | destAddress _ ih => exact ih fun data ret hmem => hall data ret (List.mem_cons_of_mem _ hmem)
  | bind _ ih => exact ih fun data ret hmem => hall data ret (List.mem_cons_of_mem _ hmem)

end Socks5

namespace Preload

/-- What is there before an error or the end of a stream is the start of it. -/
theorem Socket.alive_prefix (sock : Socket) : sock.alive <+: sock.bytes := by
  induction sock with
  | nil => exact List.prefix_rfl
  | cons ev sock ih =>
    cases ev with
    | error => exact List.nil_prefix
    | eintr => exact ih
    | data bs =>
      by_cases hb : bs = []
      · subst hb
        exact List.nil_prefix
      · rw [Socket.alive_data hb]
        exact (List.prefix_append_right_inj bs).mpr ih

/-- A client that has returned 0 has read seven bytes. -/
theorem seven_le_of_success {libc : Libc} {n : Nat} {addr : Sockaddr} {sock : Socket} {o : Outcome}
    (hn : sock.length < n) (heq : socks5ClientConnect libc n addr sock = some o)
    (hret : o.ret = 0) :
    7 ≤ sock.bytes.length := by
  by_contra hlt
  have hrefused : ¬ (7 ≤ sock.alive.length ∧ sock.alive.take 5 = expectedReply) := fun h =>
    hlt (h.1.trans sock.alive_prefix.length_le)
  obtain ⟨o', heq', hneg⟩ :=
    socks5ClientConnect_refused hn hrefused
  rw [heq] at heq'
  cases heq'
  omega

end Preload

namespace Bridge

open Preload (acceptance Libc Outcome Socket request socks5ClientConnect)
open Socks5 (Call Ctl Established Request Serves Shown)

variable {s : ProxyBridge} {env : Env} {a : Sockaddr} {tail : List Byte}

/-- The request that a session has read is the client's. -/
theorem Session.consumed_request {cmd cmd' : Byte} {p : List Byte} {a' : Sockaddr}
    (hs : Session env s) (hreq : Request cmd p a) (hrecv : s.upstream.received <+: p ++ tail)
    (hc : Consumed cmd' a' s) : s.consumed = p ∧ cmd' = cmd ∧ a' = a := by
  obtain ⟨⟨content, -, hstream⟩, -⟩ := streams_preserved hs.reachable
  obtain ⟨rest, hrest⟩ := hrecv
  rw [hstream, List.append_assoc] at hrest
  exact Socks5.request_unique hc.request hreq hrest

theorem Session.consumed_eq {cmd : Byte} {a' : Sockaddr} (hs : Session env s) (ha : a.IsIp)
    (hrecv : s.upstream.received <+: request a ++ tail) (hc : Consumed cmd a' s) :
    s.consumed = request a ∧ cmd = 0x01 ∧ a' = a :=
  hs.consumed_request (Socks5.request_request ha) hrecv hc

/-- What has been sent to the destination comes from behind the request. -/
theorem Session.sent_prefix {cmd : Byte} {p : List Byte} (hs : Session env s)
    (hreq : Request cmd p a) (hrecv : s.upstream.received <+: p ++ tail) :
    s.upstream.sent <+: tail := by
  have sent {cmd' : Byte} {a' : Sockaddr} (hc : Consumed cmd' a' s) : s.upstream.sent <+: tail := by
    obtain ⟨⟨content, -, hstream⟩, -⟩ := streams_preserved hs.reachable
    have hconsumed := (hs.consumed_request hreq hrecv hc).1
    rw [hstream, hconsumed, List.prefix_append_right_inj] at hrecv
    exact (List.prefix_append _ _).trans hrecv
  cases hs.phase with
  | hearing hh =>
    rw [hh.sent]
    exact List.nil_prefix
  | awaiting hw => exact sent hw.toConsumed
  | relayed hr => exact sent hr.toConsumed

/-- The calls of a session whose request is not answered. -/
theorem Hearing.responses_length (hh : Hearing env s) : s.socks5State.responses.length ≤ 2 := by
  obtain h | ⟨ret, h⟩ := hh.unasked.calls
  · rw [Ctl.responses, h]
    exact Nat.zero_le 2
  · rw [Ctl.responses, h]
    exact Nat.le_refl 2

theorem Awaiting.calls_eq (hw : Awaiting env 0x01 a s) :
    s.socks5State.calls = (Socks5.dialed a).calls := hw.calls

/-- A client that could read seven bytes talks to a bridge that forwards for it. -/
theorem Session.relayed_of_seven (hs : Session env s) (ha : a.IsIp)
    (hrecv : s.upstream.received <+: request a ++ tail) {shown : List Byte}
    (hshown : Shown s.socks5State.calls shown) (hseven : 7 ≤ (shown ++ s.downstream.sent).length) :
    Relayed env 0x01 a s := by
  have hlen := Socks5.shown_length hshown
  rw [List.length_append] at hseven
  cases hs.phase with
  | hearing hh =>
    have hle : s.socks5State.responses.length ≤ 2 := hh.responses_length
    rw [hh.downSent, List.length_nil] at hseven
    unfold Ctl.responses at hle
    omega
  | @awaiting cmd a' hw =>
    obtain ⟨-, rfl, rfl⟩ := hs.consumed_eq ha hrecv hw.toConsumed
    have hle : ((s.socks5State.calls.filterMap Call.sent).flatMap Prod.fst).length = 2 := by
      rw [hw.calls_eq]
      rfl
    rw [hw.downSent, List.length_nil] at hseven
    omega
  | @relayed cmd a' hr =>
    obtain ⟨-, rfl, rfl⟩ := hs.consumed_eq ha hrecv hr.toConsumed
    exact hr

/-- A relayed CONNECT has its one connect behind it. -/
theorem Relayed.connect (hr : Relayed env 0x01 a s) :
    s.socks5State.dials = [.connect a .kStatusInProgress] ∧ s.connected = 1 ∧
      s.socks5State.state = .kSuccess := by
  have hasked : asked env 0x01 a = Socks5.dialed a := rfl
  have hctl := hr.ctl
  rw [hasked, Socks5.connectionSucceed_waiting (.inl rfl)] at hctl
  obtain ⟨hconnects, -⟩ := connects_reply env (Socks5.dialed a)
    ((Socks5.dialed a).state = .kWaitAccept)
  refine ⟨?_, ?_, by rw [hctl]⟩
  · rw [hctl]
    exact (Socks5.dials_callResponse _ _).trans (Socks5.dials_createResp _ _)
  · rw [hr.connected, hctl]
    exact hconnects

/-- **Agreement on a CONNECT.** In every state of a session with a client that sends its request for
`a` and then anything, whatever the sockets of the bridge do: the bridge connects to `a` at most,
and nothing but the bytes behind the request goes to the destination. If the client returns 0 on
what it can have read of the responses and of the bytes of the destination, the connection to `a` is
there. -/
theorem connect_agreement (hs : Session env s) (ha : a.IsIp)
    (hrecv : s.upstream.received <+: request a ++ tail) :
    (∀ k ∈ s.socks5State.dials, k = .connect a .kStatusInProgress) ∧ s.upstream.sent <+: tail ∧
    ∀ (libc : Libc) (n : Nat) (sock : Socket) (shown : List Byte) (o : Outcome),
      Shown s.socks5State.calls shown → sock.bytes <+: shown ++ s.downstream.sent →
      sock.length < n → socks5ClientConnect libc n a sock = some o → o.ret = 0 →
        s.socks5State.dials = [.connect a .kStatusInProgress] ∧ s.connected = 1 ∧
          s.socks5State.state = .kSuccess := by
  refine ⟨?_, ?_, ?_⟩
  · cases hs.phase with
    | hearing hh =>
      rw [hh.unasked.dials]
      exact List.forall_mem_nil _
    | @awaiting cmd a' hw =>
      obtain ⟨-, rfl, rfl⟩ := hs.consumed_eq ha hrecv hw.toConsumed
      rw [Ctl.dials, hw.calls_eq]
      exact List.forall_mem_singleton.mpr rfl
    | @relayed cmd a' hr =>
      obtain ⟨-, rfl, rfl⟩ := hs.consumed_eq ha hrecv hr.toConsumed
      rw [hr.connect.1]
      exact List.forall_mem_singleton.mpr rfl
  · exact hs.sent_prefix (Socks5.request_request ha) hrecv
  · intro libc n sock shown o hshown hsock hn heq hret
    have hseven := (Preload.seven_le_of_success hn heq hret).trans hsock.length_le
    exact (hs.relayed_of_seven ha hrecv hshown hseven).connect

/-- **The tunnel of a CONNECT.** When the replies are written and the destination has an IP address,
in every state of a session with a client that sends its request for `a` and then `tail`: the client
that reads all that the bridge has written returns 0 exactly if the bridge forwards. It then leaves
on its stream exactly what has been sent on from the destination, and the destination has been sent
a part of `tail` from its start. -/
theorem connect_tunnel (hs : Session env s) (henv : Serves env.callbacks) (ha : a.IsIp)
    (hrecv : s.upstream.received <+: request a ++ tail) (libc : Libc)
    (hsend : libc.send (request a) = (request a).length) (sock : Socket) (hup : sock.Up)
    (hsock : sock.bytes = s.socks5State.responses ++ s.downstream.sent) (n : Nat)
    (hn : sock.length < n) :
    ∃ o, socks5ClientConnect libc n a sock = some o ∧
      (o.ret = 0 ↔ s.socks5State.state = .kSuccess) ∧
      (o.ret = 0 → o.sock.bytes = s.downstream.sent ∧ s.downstream.sent <+: s.downstream.received ∧
        s.upstream.sent <+: tail) := by
  -- Before the connection is there, the client has two bytes at most.
  have early (hstate : s.socks5State.state ≠ .kSuccess) (hlen : sock.bytes.length ≤ 2) :
      ∃ o, socks5ClientConnect libc n a sock = some o ∧
        (o.ret = 0 ↔ s.socks5State.state = .kSuccess) ∧
        (o.ret = 0 → o.sock.bytes = s.downstream.sent ∧
          s.downstream.sent <+: s.downstream.received ∧ s.upstream.sent <+: tail) := by
    have hrefused : ¬ (7 ≤ sock.alive.length ∧ sock.alive.take 5 = Preload.expectedReply) := by
      have hle := sock.alive_prefix.length_le
      intro h
      omega
    obtain ⟨o, heq, hneg⟩ :=
      Preload.socks5ClientConnect_refused hn hrefused
    have hne : o.ret ≠ 0 := by omega
    exact ⟨o, heq, iff_of_false hne hstate, fun h => absurd h hne⟩
  cases hs.phase with
  | hearing hh =>
    refine early hh.unasked.state ?_
    rw [hsock, hh.downSent, List.append_nil]
    exact hh.responses_length
  | @awaiting cmd a' hw =>
    obtain ⟨-, rfl, rfl⟩ := hs.consumed_eq ha hrecv hw.toConsumed
    refine early hw.state ?_
    rw [hsock, hw.downSent, List.append_nil, Ctl.responses, hw.calls_eq]
    exact Nat.le_refl 2
  | @relayed cmd a' hr =>
    obtain ⟨-, rfl, rfl⟩ := hs.consumed_eq ha hrecv hr.toConsumed
    have hest : Established a' s.socks5State := hr.ctl ▸ henv.connectionSucceed a'
    obtain ⟨b, hb, hresponses⟩ := hest.responses
    rw [hresponses] at hsock
    obtain ⟨sock', heq, hrest⟩ :=
      Preload.socks5ClientConnect_accepted ha hsend hb hup hsock hn
    obtain ⟨-, ⟨content, -, hstream⟩, -⟩ := streams_preserved hs.reachable
    refine ⟨_, heq, iff_of_true rfl hest.1, fun _ => ⟨hrest, ?_, ?_⟩⟩
    · rw [hstream]
      exact List.prefix_append _ _
    · exact hs.sent_prefix (Socks5.request_request ha) hrecv

/-- A request for `127.0.0.1:80` and two bytes, of which one is sent on; two of the three bytes from
the destination are sent back. -/
def connectTraffic : List Event :=
  [.clientRecv [5, 1, 0, 5, 1] .success, .clientRead,
    .clientRecv [0, 1, 127, 0, 0, 1, 0, 80, 21, 22] .success, .clientRead, .connect .success,
    .destRecv [31, 32, 33] .success, .destRead, .clientSend 2 .success, .clientWrite,
    .destSend 1 .success, .destWrite]

def webAddr : Sockaddr := .inet (arrayOf 4 [127, 0, 0, 1]) (arrayOf 2 [0, 80])

theorem serves_open : Serves Env.open.callbacks :=
  ⟨fun _ _ => rfl, ⟨_, rfl, fun _ _ => .inr rfl⟩, ⟨_, rfl, fun _ => ⟨rfl, trivial⟩⟩⟩

/-- `send` and `malloc` that succeed. -/
def workingLibc : Libc := ⟨fun bs => bs.length, fun _ => true⟩

theorem exists_connectTraffic :
    ∃ s, Session .open s ∧ s.upstream.received = request webAddr ++ [21, 22] ∧
      s.socks5State.calls = [.response [5, 0] .kStatusOK, .connect webAddr .kStatusInProgress,
        .destAddress false .kStatusOK,
        .response [5, 0, 0, 1, 127, 0, 0, 1, 0, 80] .kStatusOK] ∧
      s.downstream.sent = [31, 32] ∧ s.socks5State.state = .kSuccess :=
  exists_session .open connectTraffic _ (by decide +kernel)

/-- What the client sees of `connectTraffic`, in two segments. -/
def connectSocket : Socket :=
  [.data [5, 0, 5, 0, 0, 1, 127], .eintr, .data [0, 0, 1, 0, 80, 31, 32]]

theorem connect_agreement_connectTraffic :
    ∃ s, Session .open s ∧ s.socks5State.dials = [.connect webAddr .kStatusInProgress] ∧
      s.connected = 1 := by
  obtain ⟨s, hs, hrecv, hcalls, hsent, -⟩ := exists_connectTraffic
  have hrecv' : s.upstream.received <+: request webAddr ++ [21, 22] := hrecv ▸ List.prefix_rfl
  obtain ⟨-, -, hagree⟩ := connect_agreement hs (a := webAddr) trivial hrecv'
  have hshown : Shown s.socks5State.calls
      ([5, 0] ++ ([5, 0, 0, 1, 127, 0, 0, 1, 0, 80] ++ [])) := by
    rw [hcalls]
    exact .response List.prefix_rfl (fun _ => rfl)
      (.connect (.destAddress (.response List.prefix_rfl (fun _ => rfl) .nil)))
  obtain ⟨hdials, hconnected, -⟩ := hagree workingLibc 4 connectSocket _
    ⟨0, request webAddr, [.data [31, 32]]⟩ hshown (by rw [hsent]; exact List.prefix_rfl) (by decide)
    (by decide +kernel) rfl
  exact ⟨s, hs, hdials, hconnected⟩

theorem connect_tunnel_connectTraffic :
    ∃ s o, Session .open s ∧ socks5ClientConnect workingLibc 4 webAddr connectSocket = some o ∧
      o.ret = 0 ∧ o.sock.bytes = [31, 32] := by
  obtain ⟨s, hs, hrecv, hcalls, hsent, hstate⟩ := exists_connectTraffic
  have hsock : connectSocket.bytes = s.socks5State.responses ++ s.downstream.sent := by
    rw [Ctl.responses, hcalls, hsent]
    rfl
  have hup : connectSocket.Up := by
    simp only [connectSocket, Preload.Socket.up_cons]
    exact ⟨by decide, by decide, by decide, List.forall_mem_nil _⟩
  have hrecv' : s.upstream.received <+: request webAddr ++ [21, 22] := hrecv ▸ List.prefix_rfl
  obtain ⟨o, heq, hret, hrest⟩ := connect_tunnel hs serves_open (a := webAddr) trivial hrecv'
    workingLibc rfl connectSocket hup hsock 4 (by decide)
  have hzero := hret.mpr hstate
  exact ⟨s, o, hs, heq, hzero, (hrest hzero).1.trans hsent⟩

end Bridge

end Proxy
end TrustedCa
