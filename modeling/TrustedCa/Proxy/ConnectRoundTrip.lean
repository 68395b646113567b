import TrustedCa.Proxy.Preload
import TrustedCa.Proxy.Socks5Success

/-!
# CONNECT, from the preloaded client to the proxy and back

The bytes that `socks5_client_connect` sends go to the handshake in any chunks, with any bytes of
the client behind them. A pending connect completes after any chunk. `connect_roundTrip`: the proxy
connects once, to the address of the client; what it sends back makes the client return 0 without
reading further; and the bytes behind the request stay in the buffer.
-/

namespace TrustedCa
namespace Proxy
namespace Socks5

open Preload (request acceptance Libc Socket socks5ClientConnect socks5ClientConnect_accepted)

variable {cb : Callbacks} {a : Sockaddr}

/-- A proxy whose callbacks work: replies are sent, connects succeed at once or later, and the
destination has an IPv4 or IPv6 address. -/
structure Serves (cb : Callbacks) : Prop where
  response : ∀ h data, cb.response h data = .kStatusOK
  connect : ∃ f, cb.connect = some f ∧ ∀ h a, f h a = .kStatusOK ∨ f h a = .kStatusInProgress
  destAddress : ∃ d, cb.destAddress = some d ∧ ∀ h, (d h false).1 = .kStatusOK ∧ (d h false).2.IsIp

/-- `ConnectionSucceed`, once a pending connect is established. -/
def Run.established (cb : Callbacks) (r : QRun) : QRun :=
  if r.ctl.state = .kWaitConnect then ⟨(connectionSucceed cb r.ctl).2, r.buffer⟩ else r

/-- A chunk arrives, the handshake loop runs, and a pending connect may then complete. -/
def serveChunk (cb : Callbacks) (n : Nat) (r : QRun) (x : List Byte × Bool) : Option QRun := do
  let r ← loop cb n (r.append x.1)
  return if x.2 then r.established cb else r

/-- The handshake over chunks, each with whether a pending connect completes after it. After the
last one it completes in any case. -/
def serve (cb : Callbacks) (n : Nat) (xs : List (List Byte × Bool)) : Option QRun := do
  let r ← xs.foldlM (serveChunk cb n) start
  return r.established cb

/-- The bytes passed to the response callback. -/
def Ctl.responses (c : Ctl) : List Byte := (c.calls.filterMap Call.sent).flatMap Prod.fst

/-! ## The states behind the request -/

/-- The connect to `a` is pending. -/
def dialed (a : Sockaddr) : Ctl where
  state := .kWaitConnect
  requiredSize := 0
  calls := [.response kGreetingResp .kStatusOK, .connect a .kStatusInProgress]

/-- The connection to `a` is up, and the client was told so. -/
def Established (a : Sockaddr) (c : Ctl) : Prop :=
  c.state = .kSuccess ∧ ∃ ret b, b.IsIp ∧
    c.calls = [.response kGreetingResp .kStatusOK, .connect a ret, .destAddress false .kStatusOK,
      .response ([0x05, 0x00, 0x00] ++ fillAddrPort b) .kStatusOK]

/-- The reply of a proxy whose callbacks work. -/
theorem Serves.reply (h : Serves cb) (c : Ctl) :
    ReplyOk cb c false ∧ ∃ b, b.IsIp ∧ (reply cb c false).2.calls = c.calls ++
      [.destAddress false .kStatusOK, .response ([0x05, 0x00, 0x00] ++ fillAddrPort b) .kStatusOK] := by
  obtain ⟨d, hd, hb⟩ := h.destAddress
  refine ⟨h.response _ _, (d c.calls false).2, (hb _).2, ?_⟩
  simp [Socks5.reply, createResp, callResponse, Ctl.log, hd, (hb c.calls).1, h.response]

theorem Serves.connectionSucceed (h : Serves cb) (a : Sockaddr) :
    Established a (connectionSucceed cb (dialed a)).2 := by
  obtain ⟨-, b, hb, hcalls⟩ := h.reply (dialed a)
  rw [connectionSucceed_waiting (.inl rfl)]
  exact ⟨rfl, _, b, hb, hcalls⟩

theorem request_request (ha : a.IsIp) : Request 0x01 (request a) a := by
  have hg : Greeting [0x05, 0x01, 0x00] := ⟨0x01, [0x00], rfl, by decide, by decide, rfl⟩
  cases a with
  | inet ip port => exact ⟨_, _, hg, .v4 ip port, rfl⟩
  | inet6 ip port => exact ⟨_, _, hg, .v6 ip port, rfl⟩
  | other f => exact absurd ha id

/-- A connect that succeeds at once is answered in the same loop. -/
theorem Serves.finish_response (h : Serves cb) {c : Ctl} (hs : c.state = .kResponse)
    (h0 : c.requiredSize = 0) {ret : CallbackStatus}
    (hc : c.calls = [.response kGreetingResp .kStatusOK, .connect a ret]) (rest : List Byte) :
    (finish cb ⟨c, rest⟩).buffer = rest ∧ Established a (finish cb ⟨c, rest⟩).ctl := by
  obtain ⟨hok, b, hb, hcalls⟩ := h.reply c
  have hd : c.onGroup cb [] = onResponse cb c := by simp [Ctl.onGroup, hs]
  have hw : (onResponse cb c).2 = (Socks5.reply cb c false).2.goTo .kSuccess 1 := by
    rw [onResponse_eq, if_pos hok]
  have hfin : finish cb ⟨c, rest⟩ = ⟨(onResponse cb c).2, rest⟩ := by
    have hg := finish_group cb [] rest (c := c) (by simp [Ctl.Wf, hs, h0]) (by simp [hs])
      (by simp [Ctl.need, hs]) (by simp [h0])
    rw [hd, List.nil_append, finish_success (r := ⟨(onResponse cb c).2, rest⟩) (by rw [hw]; rfl),
      ite_self] at hg
    exact hg
  rw [hfin, hw]
  refine ⟨rfl, rfl, ret, b, hb, ?_⟩
  rw [hc] at hcalls
  exact hcalls

/-- The loop on a whole request: the connect is pending, or the connection is up. -/
theorem Serves.finish_request (h : Serves cb) (ha : a.IsIp) (rest : List Byte) :
    (finish cb ⟨{}, request a ++ rest⟩).buffer = rest ∧
      ((finish cb ⟨{}, request a ++ rest⟩).ctl = dialed a ∨
        Established a (finish cb ⟨{}, request a ++ rest⟩).ctl) := by
  obtain ⟨f, hc, hf⟩ := h.connect
  obtain ⟨g, fld, hg, hfld, hreq⟩ := request_request ha
  obtain ⟨c, hcalls, hfin⟩ := finish_addrField cb hfld rest
  have hsplit : request a ++ rest = g ++ 0x05 :: 0x01 :: 0x00 :: (fld ++ rest) := by simp [hreq]
  rw [hsplit, finish_greeting (h.response _ _) hg, hfin]
  rcases hf c.calls a with hret | hret
  · have hd : onRequestAddr cb c a = (true, (c.log (.connect a .kStatusOK)).goTo .kResponse 0) := by
      simp [onRequestAddr, hc, hret, afterSwitch, Ctl.goTo]
    rw [hd]
    have hlog : ((c.log (.connect a .kStatusOK)).goTo .kResponse 0).calls =
        [.response kGreetingResp .kStatusOK, .connect a .kStatusOK] := by
      rw [Ctl.goTo, Ctl.log, hcalls]; rfl
    obtain ⟨hb, he⟩ := h.finish_response rfl rfl hlog rest
    exact ⟨hb, .inr he⟩
  · have hd : onRequestAddr cb c a =
        (false, (c.log (.connect a .kStatusInProgress)).goTo .kWaitConnect 0) := by
      simp [onRequestAddr, hc, hret]
    rw [hd]
    exact ⟨rfl, .inl (by simp [dialed, Ctl.goTo, Ctl.log, hcalls, afterGreeting])⟩

/-- While only a part of the request has arrived, no connect is pending. -/
theorem Serves.request_prefix (h : Serves cb) (ha : a.IsIp) {s tail : List Byte}
    (hs : s <+: request a ++ tail) (hst : (finish cb ⟨{}, s⟩).ctl.state = .kWaitConnect) :
    request a <+: s := by
  obtain ⟨f, hc, -⟩ := h.connect
  obtain ⟨v, hv⟩ := scan_total s
  have hm := finish_scan hc h.response hv
  cases v with
  | incomplete => exact absurd (.inl hst) hm.2
  | reject k => rw [hm.1] at hst; cases hst
  | accept cmd a' k =>
    obtain ⟨hcmd, p, hp, hq⟩ := hv.request
    -- The stream starts with both requests, and the bytes behind them are the same.
    have h1 := finish_scan hc h.response ((request_request ha).scan (.inl rfl) tail)
    obtain ⟨t, ht⟩ := hp.trans hs
    have h2 := finish_scan hc h.response (hq.scan hcmd t)
    rw [ht] at h2
    have hlen := congrArg List.length (h1.1.symm.trans h2.1)
    have hps := hp.length_le
    have htot := congrArg List.length ht
    simp only [List.length_drop, List.length_append] at hlen htot
    exact List.prefix_of_prefix_length_le (List.prefix_append _ _) hs (by omega)

/-- The run of the proxy when `s` has arrived: it behaves like a loop over `s`, or the request is
complete and the connect is pending or done. -/
def Served (cb : Callbacks) (a : Sockaddr) (s : List Byte) (r : QRun) : Prop :=
  (¬ request a <+: s ∧ r.ctl.Wf ∧ r.ctl.state ≠ .kWaitConnect ∧
      ∀ y, Same (finish cb (r.append y)) (finish cb ⟨{}, s ++ y⟩)) ∨
    (s = request a ++ r.buffer ∧ (r.ctl = dialed a ∨ Established a r.ctl))

theorem served_start : Served cb a [] start := by
  refine .inl ⟨?_, start_wf, HandshakeState.noConfusion, fun y => .refl _⟩
  simp [request]

theorem Served.wf {s : List Byte} {r : QRun} (h : Served cb a s r) : r.ctl.Wf := by
  rcases h with ⟨-, hw, -⟩ | ⟨-, hd | he⟩
  · exact hw
  · rw [hd]; rfl
  · simp [Ctl.Wf, he.1]

theorem Serves.established (h : Serves cb) {s : List Byte} {r : QRun} (hr : Served cb a s r) :
    Served cb a s (r.established cb) := by
  unfold Run.established
  split
  · rename_i hst
    rcases hr with ⟨-, -, hne, -⟩ | ⟨hs, hd | he⟩
    · exact absurd hst hne
    · exact .inr ⟨hs, .inr (hd ▸ h.connectionSucceed a)⟩
    · rw [he.1] at hst; cases hst
  · exact hr

/-- A chunk and its loop. -/
theorem Serves.served_append (h : Serves cb) (ha : a.IsIp) {s x tail : List Byte} {r : QRun}
    (hr : Served cb a s r) (hs : s ++ x <+: request a ++ tail) :
    Served cb a (s ++ x) (finish cb (r.append x)) := by
  rcases hr with ⟨hno, hw, hne, hsame⟩ | ⟨hs', hd⟩
  · have hx := hsame x
    by_cases hreq : request a <+: s ++ x
    · obtain ⟨rest, hrest⟩ := hreq
      rw [← hrest] at hx ⊢
      obtain ⟨hb, hd⟩ := h.finish_request ha rest
      have hf : (finish cb ⟨{}, request a ++ rest⟩).ctl.state ≠ .kFail := by
        rcases hd with hd | hd
        · rw [hd]; exact HandshakeState.noConfusion
        · rw [hd.1]; exact HandshakeState.noConfusion
      rw [(hx.symm.eq_of_ne_fail hf).symm]
      exact .inr ⟨by rw [hb], hd⟩
    · refine .inl ⟨hreq, finish_wf (r := r.append x) hw, fun hst => ?_, fun y => ?_⟩
      · rw [hx.state] at hst
        exact hreq (h.request_prefix ha hs hst)
      · have ha' := finish_append cb (r := r.append x) hw y
        rw [append_append] at ha'
        rw [List.append_assoc]
        exact ha'.symm.trans (hsame (x ++ y))
  · -- The handshake is idle: the bytes stay in the buffer.
    have hi : (r.append x).ctl.Wf ∧ (r.append x).ctl.Idle ∧ (r.append x).ctl.state ≠ .kFail := by
      rw [append_ctl]
      rcases hd with hd | hd
      · rw [hd]; exact ⟨rfl, .inl rfl, HandshakeState.noConfusion⟩
      · exact ⟨by simp [Ctl.Wf, hd.1], .inr (.inr (.inl hd.1)), by simp [hd.1]⟩
    rw [← (finish_idle hi.1 hi.2.1).eq_of_ne_fail hi.2.2]
    exact .inr ⟨by rw [hs', append_buffer, List.append_assoc], hd⟩

/-- A chunk, its loop, and a pending connect that may complete. -/
theorem Serves.served_chunk (h : Serves cb) (ha : a.IsIp) {s tail : List Byte}
    {x : List Byte × Bool} {r : QRun} (hr : Served cb a s r)
    (hs : s ++ x.1 <+: request a ++ tail) :
    ∃ r', (∀ n, 7 ≤ n → serveChunk cb n r x = some r') ∧ Served cb a (s ++ x.1) r' := by
  have hx := h.served_append ha hr hs
  refine ⟨if x.2 then (finish cb (r.append x.1)).established cb else finish cb (r.append x.1),
    fun n hn => ?_, ?_⟩
  · have hl : loop cb n (r.append x.1) = some (finish cb (r.append x.1)) :=
      loop_eq_finish (r := r.append x.1) hr.wf (Nat.lt_of_lt_of_le (HandshakeState.rank_le _) hn)
    simp [serveChunk, hl]
  · split
    · exact h.established hx
    · exact hx

/-- All chunks. -/
theorem Serves.served_chunks (h : Serves cb) (ha : a.IsIp) (tail : List Byte)
    (xs : List (List Byte × Bool)) {s : List Byte} {r : QRun} (hr : Served cb a s r)
    (hs : s ++ (xs.map Prod.fst).flatten <+: request a ++ tail) :
    ∃ r', (∀ n, 7 ≤ n → xs.foldlM (serveChunk cb n) r = some r') ∧
      Served cb a (s ++ (xs.map Prod.fst).flatten) r' := by
  induction xs generalizing s r with
  | nil => exact ⟨r, fun n _ => rfl, by simpa using hr⟩
  | cons x xs ih =>
    simp only [List.map_cons, List.flatten_cons, ← List.append_assoc] at hs ⊢
    obtain ⟨r₁, h₁, hr₁⟩ := h.served_chunk ha hr ((List.prefix_append _ _).trans hs)
    obtain ⟨r₂, h₂, hr₂⟩ := ih hr₁ hs
    refine ⟨r₂, fun n hn => ?_, hr₂⟩
    rw [List.foldlM_cons, h₁ n hn]
    exact h₂ n hn

theorem Established.responses {c : Ctl} (h : Established a c) :
    ∃ b, b.IsIp ∧ c.responses = acceptance b := by
  obtain ⟨-, ret, b, hb, hc⟩ := h
  exact ⟨b, hb, by
    simp [Ctl.responses, hc, List.filterMap_cons, Call.sent, kGreetingResp, acceptance]⟩

/-- **CONNECT round trip.** For every IPv4 or IPv6 address, every cut into chunks of what the client
sends, and every address of the destination: one connect, to the address of the client; the bytes
behind the request stay in the buffer; and the client, however `recv` splits the replies, returns 0
and leaves what follows them unread. -/
theorem connect_roundTrip (cb : Callbacks) (hcb : Serves cb) (env : Libc) (a : Sockaddr)
    (ha : a.IsIp) (hsend : env.send (request a) = (request a).length) (tail : List Byte)
    (xs : List (List Byte × Bool)) (hxs : (xs.map Prod.fst).flatten = request a ++ tail) :
    ∃ r : QRun, (∀ n, 7 ≤ n → serve cb n xs = some r) ∧ r.ctl.state = .kSuccess ∧
      (∃ ret, r.ctl.calls.filter Call.isDial = [.connect a ret]) ∧ r.buffer = tail ∧
      ∀ (later : List Byte) (sock : Socket), sock.Up → sock.bytes = r.ctl.responses ++ later →
        ∀ n, sock.length < n → ∃ sock' : Socket,
          socks5ClientConnect env n a sock = some ⟨0, request a, sock'⟩ ∧ sock'.bytes = later := by
  obtain ⟨r, hfold, hr⟩ := hcb.served_chunks ha tail xs served_start (by simp [hxs])
  have hest : (r.established cb).buffer = tail ∧ Established a (r.established cb).ctl := by
    rw [List.nil_append, hxs] at hr
    rcases hcb.established hr with ⟨hno, -⟩ | ⟨hs, hd⟩
    · exact absurd (List.prefix_append _ _) hno
    · refine ⟨(List.append_cancel_left hs).symm, hd.resolve_left fun h => ?_⟩
      -- The last completion leaves nothing pending.
      unfold Run.established at h
      split at h
      · rename_i hw
        rw [connectionSucceed_waiting (.inl hw)] at h
        exact HandshakeState.noConfusion (congrArg Ctl.state h)
      · rename_i hw
        exact hw (congrArg Ctl.state h)
  obtain ⟨hb, he⟩ := hest
  refine ⟨r.established cb, fun n hn => by simp [serve, hfold n hn], he.1, ?_, hb, ?_⟩
  · obtain ⟨-, ret, b, -, hc⟩ := he
    exact ⟨ret, by rw [hc]; rfl⟩
  · intro later sock hup hbytes n hn
    obtain ⟨b, hip, hresp⟩ := he.responses
    exact socks5ClientConnect_accepted ha hsend hip hup (hresp ▸ hbytes) hn

theorem localhost_length : ([0x7f, 0x00, 0x00, 0x01] : List Byte).length = 4 := rfl

theorem http_length : ([0x00, 0x50] : List Byte).length = 2 := rfl

/-- A proxy whose connects stay pending and whose destination is `127.0.0.1:80`. -/
def localProxy : Callbacks where
  response _ _ := .kStatusOK
  connect := some fun _ _ => .kStatusInProgress
  destAddress := some fun _ _ => (.kStatusOK, .inet ⟨_, localhost_length⟩ ⟨_, http_length⟩)
  bind _ port := (.kStatusOK, port)

theorem connect_roundTrip_localProxy :
    ∃ r : QRun, (∀ n, 7 ≤ n → serve localProxy n
        [([0x05, 0x01, 0x00, 0x05], true), ([0x01, 0x00, 0x01, 0x7f, 0x00, 0x00, 0x01, 0x00], false),
          ([0x50, 0xaa], true), ([0xbb], false)] = some r) ∧ r.buffer = [0xaa, 0xbb] := by
  obtain ⟨r, hr, -, -, hb, -⟩ := connect_roundTrip localProxy
    ⟨fun _ _ => rfl, ⟨_, rfl, fun _ _ => .inr rfl⟩, ⟨_, rfl, fun _ => ⟨rfl, trivial⟩⟩⟩
    ⟨fun bs => bs.length, fun _ => true⟩
    (.inet ⟨[0x7f, 0x00, 0x00, 0x01], rfl⟩ ⟨[0x00, 0x50], rfl⟩) trivial rfl [0xaa, 0xbb]
    [([0x05, 0x01, 0x00, 0x05], true), ([0x01, 0x00, 0x01, 0x7f, 0x00, 0x00, 0x01, 0x00], false),
      ([0x50, 0xaa], true), ([0xbb], false)] rfl
  exact ⟨r, hr, hb⟩

end Socks5
end Proxy
end TrustedCa
