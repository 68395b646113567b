import TrustedCa.Proxy.ConnectRoundTrip
import TrustedCa.Proxy.PoolBounds

/-!
# BIND, from the socket vendor to the proxy and on to the application

The vendor's pool sends the proxy a greeting with a BIND request and reads two replies: the port that
was bound and, later, the peer of an inbound connection. The peer goes on to `accept4` in the
application. `bind_roundTrip` follows the port and the peer over all three programs.

* `bindRequest`: the request for a port. `finish_bindRequest` is the handshake on it.
* `startBind_bound`: `Start` on the first reply. `Runs.kept`: no handler changes the request.
* `handle2ndResp_accept4`: the second reply through `Handle2ndResp` and `accept4`.
-/

namespace TrustedCa
namespace Proxy
namespace SessionPool

open Socks5 (Callbacks Call Ctl QRun)
open Spec (bind_eq_ok)

/-- The request of the pool for a port. -/
def bindRequest (port : UInt16) : Bytes 13 := fillPort bindReqTemplate (htons port)

theorem bindRequest_val (p : UInt16) :
    (bindRequest p).val = [0x05, 0x01, 0x00] ++ 0x05 :: 0x02 :: 0x00 ::
      (0x01 :: ([0x00, 0x00, 0x00, 0x00] ++ (htons p).val)) := rfl

/-! ## The proxy -/

/-- A proxy whose replies are sent, whose bind callback reports `q`, and whose inbound connection
comes from the peer. -/
structure Binds (cb : Callbacks) (q : UInt16) (peer : Sockaddr) : Prop where
  response : ∀ h data, cb.response h data = .kStatusOK
  bind : ∀ h port, cb.bind h port = (.kStatusOK, q)
  destAddress : ∃ d, cb.destAddress = some d ∧ ∀ h, d h true = (.kStatusOK, peer)

/-- The handshake that has bound `q` for a request of `p` and waits for a connection. -/
def accepting (p q : UInt16) : Ctl where
  state := .kWaitAccept
  requiredSize := 0
  calls := [.response Socks5.kGreetingResp .kStatusOK, .bind p .kStatusOK,
    .response (Socks5.bindResp q) .kStatusOK]

section Proxy

variable {cb : Callbacks} {p q : UInt16} {peer : Sockaddr}

/-- The handshake on a request, for any bind callback: it is called once, with the port. -/
theorem finish_bindRequest (hr : ∀ h data, cb.response h data = .kStatusOK) (p : UInt16) :
    ∃ c, c.calls = [.response Socks5.kGreetingResp .kStatusOK] ∧
      Socks5.finish cb ⟨{}, (bindRequest p).val⟩ =
        if (Socks5.onRequestBind cb c p).1 then
          Socks5.finish cb ⟨(Socks5.onRequestBind cb c p).2, []⟩
        else ⟨(Socks5.onRequestBind cb c p).2, []⟩ := by
  have hg : Socks5.Greeting [0x05, 0x01, 0x00] := ⟨0x01, [0x00], rfl, by decide, by decide, rfl⟩
  have hf : Socks5.AddrField (0x01 :: ([0x00, 0x00, 0x00, 0x00] ++ (htons p).val))
      (.inet (arrayOf 4 []) (htons p)) := .v4 (arrayOf 4 []) (htons p)
  obtain ⟨c, hcalls, hfin⟩ := Socks5.finish_portField cb hf []
  have hport : Sockaddr.port (.inet (arrayOf 4 []) (htons p)) = p := ntohs_htons p
  rw [hport, List.append_nil] at hfin
  refine ⟨c, hcalls, ?_⟩
  rw [bindRequest_val, Socks5.finish_greeting (hr _ _) hg]
  exact hfin

theorem finish_bindRequest_dials (hr : ∀ h data, cb.response h data = .kStatusOK) (p : UInt16) :
    ∃ ret, (Socks5.finish cb ⟨{}, (bindRequest p).val⟩).ctl.dials = [.bind p ret] := by
  obtain ⟨c, hcalls, hfin⟩ := finish_bindRequest hr p
  obtain ⟨⟨ret, hdials⟩, hidle⟩ := Socks5.onRequestBind_spec cb c p
  obtain ⟨-, hsame⟩ :=
    Socks5.finish_decided (Socks5.moved_onRequestBind p).1 (.inr hidle) [] hfin
  refine ⟨ret, ?_⟩
  rw [hsame, hdials, Ctl.dials, hcalls]
  rfl

/-- The request in any chunks. -/
theorem feed_bindRequest_dials (hr : ∀ h data, cb.response h data = .kStatusOK) {p : UInt16}
    {chunks : List (List Byte)} (hchunks : chunks.flatten = (bindRequest p).val) :
    ∃ r : QRun, (∀ n, 7 ≤ n → Socks5.feed cb n chunks Socks5.start = some r) ∧
      ∃ ret, r.ctl.calls.filter Call.isDial = [.bind p ret] := by
  obtain ⟨r, -, hfeed, hsame⟩ := Socks5.feed_start cb chunks
  rw [hchunks] at hsame
  obtain ⟨ret, hdials⟩ := finish_bindRequest_dials hr p
  refine ⟨r, hfeed, ret, ?_⟩
  rw [hsame.calls]
  exact hdials

theorem Binds.finish (hb : Binds cb q peer) (p : UInt16) :
    Socks5.finish cb ⟨{}, (bindRequest p).val⟩ = ⟨accepting p q, []⟩ := by
  obtain ⟨c, hcalls, hfin⟩ := finish_bindRequest hb.response p
  have hd : Socks5.onRequestBind cb c p = (false, accepting p q) := by
    simp [Socks5.onRequestBind, hb.bind, Socks5.callResponse, hb.response, Ctl.goTo, Ctl.log, hcalls,
      accepting]
  rw [hfin, hd]
  rfl

theorem Binds.feed (hb : Binds cb q peer) {chunks : List (List Byte)}
    (hchunks : chunks.flatten = (bindRequest p).val) :
    ∃ r : QRun, (∀ n, 7 ≤ n → Socks5.feed cb n chunks Socks5.start = some r) ∧
      r.ctl = accepting p q ∧ r.buffer = [] := by
  obtain ⟨r, -, hfeed, hsame⟩ := Socks5.feed_start cb chunks
  rw [hchunks] at hsame
  have hfin : Socks5.finish cb (Socks5.start.append (bindRequest p).val) = ⟨accepting p q, []⟩ :=
    hb.finish p
  rw [hfin] at hsame
  have heq : r = ⟨accepting p q, []⟩ := (hsame.symm.eq_of_ne_fail (by simp [accepting])).symm
  exact ⟨r, hfeed, by rw [heq], by rw [heq]⟩

theorem responses_accepting (p q : UInt16) :
    (accepting p q).responses = [0x05, 0x00] ++ Socks5.bindResp q := by
  simp [Ctl.responses, accepting, Call.sent, List.filterMap_cons, Socks5.kGreetingResp]

/-- The second reply. -/
theorem Binds.connectionSucceed (hb : Binds cb q peer) (p : UInt16) :
    ∃ c, Socks5.connectionSucceed cb (accepting p q) = (true, c) ∧
      c.responses = (accepting p q).responses ++ ([0x05, 0x00, 0x00] ++ fillAddrPort peer) := by
  obtain ⟨d, hd, hpeer⟩ := hb.destAddress
  refine ⟨_, by rw [Socks5.connectionSucceed_waiting (.inr rfl)], ?_⟩
  simp [Socks5.reply, Socks5.createResp, hd, hpeer, Socks5.callResponse, hb.response, Ctl.log,
    Ctl.responses, accepting, Call.sent, List.filterMap_cons]

end Proxy

/-! ## The pool -/

/-- The application asks for port `p`, and the proxy replies with `reply`. -/
structure Asks (env : StartEnv) (p : UInt16) (reply : List Byte) : Prop where
  bindRequest : env.bindRequest = some { port := p }
  connect : env.connect = true
  write : env.write = true
  reply : ∃ resp, env.reply (SessionPool.bindRequest p) = some resp ∧ resp.val = reply
  sendBindResponse : env.sendBindResponse = true

/-- What no handler changes: the request and the port. -/
def ClientSessionPool.kept (s : ClientSessionPool) : Bytes 13 × UInt16 := (s.proxyBindRequest, s.port)

section Pool

variable {s s' : ClientSessionPool} {env : StartEnv} {p q : UInt16} {i : Nat}

theorem Runs.kept (hr : Runs s s') : s'.kept = s.kept :=
  congrArg (fun x => (x.1, x.2.1)) hr.fixed

/-- `Start` on the reply of a proxy that has bound `q`. -/
theorem startBind_bound (ha : Asks env p ([0x05, 0x00] ++ Socks5.bindResp q)) :
    ∃ s, startBind env {} = (true, s) ∧ s.port = q ∧ s.proxyBindRequest = bindRequest q ∧
      s.log = [.request 0 (bindRequest p), .bindResponse q] := by
  obtain ⟨resp, hresp, hval⟩ := ha.reply
  have hrep : resp.val.getD 3 0 = 0x00 := by
    rw [hval]
    rfl
  have hport : arrayOf 2 (resp.val.drop 10) = htons q := by
    rw [hval]
    exact arrayOf_toList (htons q)
  have hresp' : env.reply (fillPort bindReqTemplate (htons p)) = some resp := hresp
  refine ⟨bound p resp, ?_, ?_, ?_, ?_⟩
  · simp only [startBind, ha.bindRequest, ha.connect, ha.write, ClientSessionPool.act, hresp', hrep,
      ha.sendBindResponse, ne_eq, not_true_eq_false, if_false, Bool.not_true, Bool.false_eq_true]
    rfl
  · exact (congrArg ntohs hport).trans (ntohs_htons q)
  · exact congrArg (fillPort bindReqTemplate) hport
  · simp [bound, hport, ntohs_htons, bindRequest]

/-- Every state after `Start` has the bound port, also in the request that is used again. -/
theorem reachable_bound (ha : Asks env p ([0x05, 0x00] ++ Socks5.bindResp q))
    (hr : Reachable env s) : s.port = q ∧ s.proxyBindRequest = bindRequest q := by
  obtain ⟨s₁, hbind, hport, hrequest, -⟩ := startBind_bound ha
  obtain ⟨s₀, hstart, hruns⟩ := hr
  have hlisten : startListen env s₁ = .ok (true, s₀) := by
    rw [start, hbind] at hstart
    exact hstart
  obtain ⟨_, _, _, -, -, -, rfl, -⟩ := startListen_eq_true hlisten
  have hkept : s.kept = s₁.kept := hruns.kept
  exact ⟨(congrArg Prod.snd hkept).trans hport, (congrArg Prod.fst hkept).trans hrequest⟩

/-- The second reply of the proxy, with the peer of an inbound connection. -/
def secondReply (peer : Sockaddr) : List Byte := [0x05, 0x00, 0x00] ++ fillAddrPort peer

/-- `Handle2ndResp` accepts the reply for an IPv6 peer, and `accept4` reports the peer from the
message that it builds. -/
theorem handle2ndResp_accept4 {buf : MicroBuffer} {addr : Bytes 16} {port : Bytes 2}
    (hstop : s.stop = false) (hbuf : s.buffers[i]? = some buf)
    (hreply : secondReply (.inet6 addr port) <+: buf.val) (padding : Bytes 2) :
    ∃ data, handle2ndResp s i (secondReply (.inet6 addr port)).length false padding =
        .ok ({ s with buffers := s.buffers.set i data }.begin i .wait) ∧
      ∀ accept fd len flags, SocketVendor.Delivers accept data fd →
        SocketVendor.sizeofSockaddrIn6 ≤ len → ∃ setfl,
          SocketVendor.accept4 accept (some len) flags =
            .ok fd setfl (some (.inet6 addr port, SocketVendor.sizeofSockaddrIn6)) := by
  have hlen : (secondReply (.inet6 addr port)).length = k2ndBindResponseSize := by
    rw [secondReply, List.length_append, fillAddrPort_length]
    rfl
  obtain ⟨hresp, hgetD⟩ := newConnResp_eq hreply hlen
  have haddr : (responseOf (secondReply (.inet6 addr port))).addr = addr :=
    Socks5.arrayOf_take addr port
  have hport : (responseOf (secondReply (.inet6 addr port))).port = port := by
    have hdrop : (secondReply (.inet6 addr port)).drop 20 = port.val :=
      List.drop_left' addr.property
    rw [responseOf, hdrop, List.take_of_length_le (Nat.le_of_eq port.property), arrayOf_toList]
  refine ⟨(responseOf (secondReply (.inet6 addr port))).toBytes padding, ?_, ?_⟩
  · rw [hlen, handle2ndResp_accepted hstop hbuf (hgetD.trans rfl), hresp]
  · intro accept fd len flags hdelivers hle
    have haccept := SocketVendor.accept4_inet6 hdelivers hle flags
    rw [haddr, hport] at haccept
    exact ⟨_, haccept⟩

end Pool

/-- **BIND round trip.** For every requested port `p`, every port `q` that the bind callback reports
and every IPv6 peer. The request of `Start`, in any chunks, makes the proxy call its bind callback
once, with `p`. From the 12 bytes of its responses `Start` takes the port `q`, reports it to the
application and puts it into the request that every later connection of the pool writes; on that
request a proxy calls its bind callback once, with `q`. The reply after `ConnectionSucceed` is 22
bytes; `Handle2ndResp` accepts it, and from the message that it builds `accept4`, with room for an
IPv6 address, reports the address and the port of the peer. -/
theorem bind_roundTrip (cb : Callbacks) (p q : UInt16) (addr : Bytes 16) (port : Bytes 2)
    (hcb : Binds cb q (.inet6 addr port)) (chunks : List (List Byte))
    (hchunks : chunks.flatten = (bindRequest p).val) :
    ∃ r : QRun, (∀ n, 7 ≤ n → Socks5.feed cb n chunks Socks5.start = some r) ∧
      r.ctl.calls.filter Call.isDial = [.bind p .kStatusOK] ∧ r.ctl.responses.length = 12 ∧
      (∀ env, Asks env p r.ctl.responses →
        (∃ s, startBind env {} = (true, s) ∧ s.port = q ∧
          s.log = [.request 0 (bindRequest p), .bindResponse q]) ∧
        ∀ s i sock buf, Reachable env s → s.stop = false → s.pool[i]? = some sock →
          s.buffers[i]? = some buf → s.port = q ∧
            ∃ s', handleConnect s i false true = .ok s' ∧
              s'.log = s.log ++ [.request sock (bindRequest q)]) ∧
      (∀ cb' chunks', (∀ h data, cb'.response h data = .kStatusOK) →
        chunks'.flatten = (bindRequest q).val →
        ∃ r' : QRun, (∀ n, 7 ≤ n → Socks5.feed cb' n chunks' Socks5.start = some r') ∧
          ∃ ret, r'.ctl.calls.filter Call.isDial = [.bind q ret]) ∧
      ∃ c reply, Socks5.connectionSucceed cb r.ctl = (true, c) ∧
        c.responses = r.ctl.responses ++ reply ∧ reply.length = 22 ∧
        ∀ s i buf padding, s.stop = false → s.buffers[i]? = some buf → reply <+: buf.val →
          ∃ data, handle2ndResp s i reply.length false padding =
              .ok ({ s with buffers := s.buffers.set i data }.begin i .wait) ∧
            ∀ accept fd len flags, SocketVendor.Delivers accept data fd →
              SocketVendor.sizeofSockaddrIn6 ≤ len → ∃ setfl,
                SocketVendor.accept4 accept (some len) flags =
                  .ok fd setfl (some (.inet6 addr port, SocketVendor.sizeofSockaddrIn6)) := by
  obtain ⟨r, hfeed, hctl, -⟩ := hcb.feed hchunks
  obtain ⟨c, hsucceed, hresponses⟩ := hcb.connectionSucceed p
  have hfirst : r.ctl.responses = [0x05, 0x00] ++ Socks5.bindResp q := by
    rw [hctl, responses_accepting]
  refine ⟨r, hfeed, ?_, ?_, fun env ha => ?_, fun cb' chunks' hr => feed_bindRequest_dials hr,
    c, secondReply (.inet6 addr port), ?_, ?_, ?_, ?_⟩
  · rw [hctl]
    rfl
  · rw [hfirst]
    rfl
  · rw [hfirst] at ha
    obtain ⟨s, hstart, hport, -, hlog⟩ := startBind_bound ha
    refine ⟨⟨s, hstart, hport, hlog⟩, fun s i sock buf hr hstop hsock hbuf => ?_⟩
    obtain ⟨hport, hrequest⟩ := reachable_bound ha hr
    refine ⟨hport, _, handleConnect_ok hstop hsock hbuf, ?_⟩
    rw [hrequest]
    rfl
  · rw [hctl]
    exact hsucceed
  · rw [hctl]
    exact hresponses
  · rw [secondReply, List.length_append, fillAddrPort_length]
    rfl
  · intro s i buf padding hstop hbuf hreply
    exact handle2ndResp_accept4 hstop hbuf hreply padding

/-- A proxy that binds port 8080 and has an inbound connection from `[::1]:443`. -/
def webProxy : Callbacks where
  response _ _ := .kStatusOK
  connect := none
  destAddress := some fun _ _ => (.kStatusOK, .inet6 (arrayOf 16 [0x00, 0x01]) (htons 443))
  bind _ _ := (.kStatusOK, 8080)

/-- Any port is asked for; 8080 is bound. -/
theorem bind_roundTrip_anyPort :
    ∃ s, startBind { webServer with bindRequest := some { port := 0 } } {} = (true, s) ∧
      s.port = 8080 ∧ ∃ r' : QRun, (∀ n, 7 ≤ n →
        Socks5.feed webProxy n [(bindRequest 8080).val] Socks5.start = some r') ∧
          ∃ ret, r'.ctl.calls.filter Call.isDial = [.bind 8080 ret] := by
  obtain ⟨r, hfeed, -, -, hstart, hagain, -⟩ := bind_roundTrip webProxy 0 8080 _ _
    ⟨fun _ _ => rfl, fun _ _ => rfl, _, rfl, fun _ => rfl⟩ [(bindRequest 0).val]
    (List.append_nil _)
  have hr : r.ctl.responses =
      [0x05, 0x00, 0x05, 0x00, 0x00, 0x01, 0x00, 0x00, 0x00, 0x00, 0x1f, 0x90] := by
    have hrun : (Socks5.feed webProxy 7 [(bindRequest 0).val] Socks5.start).map
        (fun r => r.ctl.responses) =
          some [0x05, 0x00, 0x05, 0x00, 0x00, 0x01, 0x00, 0x00, 0x00, 0x00, 0x1f, 0x90] := by
      decide +kernel
    rw [hfeed 7 (Nat.le_refl 7)] at hrun
    exact Option.some.inj hrun
  obtain ⟨⟨s, hs, hport, -⟩, -⟩ := hstart { webServer with bindRequest := some { port := 0 } }
    ⟨rfl, rfl, rfl, ⟨_, rfl, hr.symm⟩, rfl⟩
  exact ⟨s, hs, hport, hagain webProxy [(bindRequest 8080).val] (fun _ _ => rfl)
    (List.append_nil _)⟩

end SessionPool
end Proxy
end TrustedCa
