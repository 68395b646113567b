import TrustedCa.Proxy.BindRoundTrip
import TrustedCa.Proxy.Tunnel

/-!
# The tunnel of a BIND

Every slot of the socket vendor's pool talks to a session of the bridge of its own. The descriptor
that the pool hands on is the slot's socket, so the application goes on where the pool stops
reading.

* `Taken`: the bytes that the pool has read from each socket (`Traced`, in any run).
* `Tracked`: what the outstanding operations and the descriptor messages say about these bytes.
* `bind_agreement`: a descriptor is handed on only if the bridge behind it has accepted its one
  inbound connection.
* `bind_tunnel`: the pool has then read both replies and nothing behind them, and the message names
  the peer.
-/

namespace TrustedCa
namespace Proxy
namespace SessionPool

open Spec (bind_eq_ok)

/-! ## What the pool reads -/

/-- The bytes read from each socket. -/
abbrev Taken := Nat → List Byte

/-- The bytes after an event. -/
def Event.take (s : ClientSessionPool) (t : Taken) : Event → Taken
  | .recv k bytes _ =>
    match s.ops[k]? with
    | some ⟨_, .read sock _⟩ => Function.update t sock (t sock ++ bytes)
    | _ => t
  | .connect .. | .resp .. | .sendFd .. | .clientError => t

/-- The states of a pool that was started, with the bytes that were read before. `Start` itself has
read the first reply on its socket. -/
inductive Traced (env : StartEnv) : Taken → ClientSessionPool → Prop
  | start {s : ClientSessionPool} {bindReq : SocketVendor.BindRequest} {resp : Bytes 12} :
    start env {} = .ok (true, s) → env.bindRequest = some bindReq →
    env.reply (bindRequest bindReq.port) = some resp →
    Traced env (Function.update (fun _ => []) 0 resp.val) s
  | step {t : Taken} {s s' : ClientSessionPool} {e : Event} : Traced env t s →
    step s e = some (.ok s') → Traced env (e.take s t) s'

theorem Traced.reachable {env : StartEnv} {t : Taken} {s : ClientSessionPool}
    (ht : Traced env t s) : Reachable env s := by
  induction ht with
  | start hstart _ _ => exact ⟨_, hstart, .refl _⟩
  | step _ hs ih =>
    obtain ⟨s₀, hstart, hruns⟩ := ih
    exact ⟨s₀, hstart, hruns.step hs⟩

/-- A reply to the request, with the method selection before it. -/
def FirstReply (bytes : List Byte) : Prop := bytes.length = 12 ∧ bytes.getD 3 0 = 0x00

/-- The bytes are both replies, and the message is made from the second. -/
def Told (bytes : List Byte) (data : MicroBuffer) : Prop :=
  ∃ first second padding, bytes = first ++ second ∧ FirstReply first ∧
    second.length = k2ndBindResponseSize ∧ second.getD 1 0 = 0x00 ∧
    data = (responseOf second).toBytes padding

/-- What an operation says about the bytes that were read. -/
def Op.Reads (s : ClientSessionPool) (t : Taken) (op : Op) : Prop :=
  match op.pending with
  | .connect sock => t sock = []
  | .read sock ⟨.first, whole, bytes, ended⟩ =>
    t sock = bytes ∧ whole = true ∧ (ended = some false → bytes.length = 12)
  | .read sock ⟨.second, _, bytes, _⟩ =>
    bytes.length ≤ k2ndBindResponseSize ∧ ∃ first, FirstReply first ∧ t sock = first ++ bytes
  | .wait => ∃ sock data, s.pool[op.index]? = some sock ∧ s.buffers[op.index]? = some data ∧
    Told (t sock) data

/-- The invariant of the bytes that were read. -/
structure Tracked (t : Taken) (s : ClientSessionPool) : Prop where
  fresh : ∀ sock, s.sockets ≤ sock → t sock = []
  ops : ∀ op ∈ s.ops, op.Reads s t
  sent : ∀ sock data n, .descriptor sock data n ∈ s.log → Told (t sock) data

section Tracked

variable {s s' : ClientSessionPool} {t t' : Taken} {i k sock : Nat} {op : Op} {buf : MicroBuffer}

/-- An operation on a slot that is left alone. -/
theorem Op.Reads.other (hr : op.Reads s t) (hok : OpOk s op)
    (hpool : s'.pool[op.index]? = s.pool[op.index]?)
    (hbuffer : s'.buffers[op.index]? = s.buffers[op.index]?)
    (ht : ∀ sock, s.pool[op.index]? = some sock → t' sock = t sock) : op.Reads s' t' := by
  obtain ⟨index, pending⟩ := op
  cases pending with
  | connect sock => exact (ht sock (hok.sock sock rfl)).trans hr
  | read sock r =>
    have hsock := ht sock (hok.sock sock rfl)
    obtain ⟨resp, whole, bytes, ended⟩ := r
    cases resp with
    | first => exact ⟨hsock.trans hr.1, hr.2⟩
    | second =>
      obtain ⟨hlen, first, hfirst, hbytes⟩ := hr
      exact ⟨hlen, first, hfirst, hsock.trans hbytes⟩
  | wait =>
    obtain ⟨sock, data, hsock, hdata, htold⟩ := hr
    exact ⟨sock, data, hpool.trans hsock, hbuffer.trans hdata, (ht sock hsock).symm ▸ htold⟩

/-- What a handler of slot `i` starts and sends fits the bytes that were read. -/
structure Follows (t : Taken) (i : Nat) (s s' : ClientSessionPool) : Prop where
  sockets : s.sockets ≤ s'.sockets
  ops : ∀ op ∈ s'.ops, op ∈ s.ops ∨ op.Reads s' t
  sent : ∀ sock data n, .descriptor sock data n ∈ s'.log →
    .descriptor sock data n ∈ s.log ∨ Told (t sock) data

theorem Follows.refl (t : Taken) (i : Nat) (s : ClientSessionPool) : Follows t i s s :=
  ⟨Nat.le_refl _, fun _ h => .inl h, fun _ _ _ h => .inl h⟩

/-- A slot starts again. -/
theorem follows_restarted (hfresh : t s.sockets = []) {acts : List Action} (n : Nat)
    (hacts : ∀ sock data n, .descriptor sock data n ∈ acts → Told (t sock) data) :
    Follows t i s ({ s with log := s.log ++ acts, numberOfErrors := n }.restarted i sock) := by
  refine ⟨Nat.le_succ _, fun op hop => ?_, fun sock data n hmem => ?_⟩
  · rcases List.mem_append.mp hop with hop | hop
    · exact .inl hop
    · rw [List.mem_singleton.mp hop]
      exact .inr hfresh
  · rcases List.mem_append.mp hmem with hmem | hmem
    · exact (List.mem_append.mp hmem).imp_right (hacts sock data n)
    · cases List.mem_singleton.mp hmem

/-- A slot with an error. -/
theorem follows_fail (hfresh : t s.sockets = []) (hsock : s.pool[i]? = some sock)
    (heq : initiateSocket s.fail i = .ok s') : Follows t i s s' := by
  rw [initiateSocket_eq (s := s.fail) hsock] at heq
  cases heq
  have hf : Follows t i s
      ({ s with log := s.log ++ [], numberOfErrors := s.numberOfErrors + 1 }.restarted i sock) :=
    follows_restarted hfresh (s.numberOfErrors + 1) nofun
  rwa [List.append_nil] at hf

/-- `HandleConnect` on a new socket. -/
theorem handleConnect_follows {failed written : Bool} (hsock : s.pool[i]? = some sock)
    (hfresh : t s.sockets = []) (hempty : t sock = [])
    (heq : handleConnect s i failed written = .ok s') : Follows t i s s' := by
  rw [handleConnect, sock_eq_ok hsock] at heq
  simp only [bind, Except.bind] at heq
  split at heq
  · cases heq
    exact .refl t i s
  · split at heq
    · exact follows_fail hfresh hsock heq
    · split at heq
      · exact follows_fail hfresh hsock heq
      · obtain ⟨buf, -, heq⟩ := bind_eq_ok.mp heq
        cases heq
        refine ⟨Nat.le_refl _, fun op hop => ?_, fun sock data n hmem => ?_⟩
        · rcases List.mem_append.mp hop with hop | hop
          · exact .inl hop
          · rw [List.mem_singleton.mp hop]
            exact .inr ⟨hempty, rfl, fun h => by cases h⟩
        · rcases List.mem_append.mp hmem with hmem | hmem
          · exact .inl hmem
          · cases List.mem_singleton.mp hmem

/-- `Handle1stResp` on what a read has brought. -/
theorem handle1stResp_follows {failed : Bool} (hsock : s.pool[i]? = some sock)
    (hbuf : s.buffers[i]? = some buf) (hfresh : t s.sockets = [])
    (hread : failed = false → buf.val.getD 3 0 = 0x00 → FirstReply (t sock))
    (heq : handle1stResp s i failed = .ok s') : Follows t i s s' := by
  rw [handle1stResp, sock_eq_ok hsock, buffer_eq_ok hbuf] at heq
  simp only [bind, Except.bind] at heq
  split at heq
  · cases heq
    exact .refl t i s
  · split at heq
    · exact follows_fail hfresh hsock heq
    · next hfailed =>
      split at heq
      · exact follows_fail hfresh hsock heq
      · next hrep =>
        have hfirst := hread (Bool.eq_false_iff.mpr hfailed) (not_not.mp hrep)
        have hbegun : ∀ s₁, Op.Reads s₁ t ⟨i, .read sock { resp := .second, whole := true }⟩ :=
          fun _ => ⟨Nat.zero_le _, t sock, hfirst, (List.append_nil _).symm⟩
        split at heq
        · next hgrow =>
          have hlt : i < s.pool.length := (List.getElem?_eq_some_iff.mp hsock).1
          have hlast : i + 1 = s.pool.length := by
            have hlast : i = s.pool.length - 1 := hgrow.1
            omega
          obtain ⟨next, hnext, heq⟩ := bind_eq_ok.mp heq
          have hnext' : (s.pool ++ [s.sockets])[i + 1]? = some next := pool_of_sock_eq_ok hnext
          rw [hlast, List.getElem?_concat_length] at hnext'
          cases hnext'
          cases heq
          refine ⟨Nat.le_succ _, fun op hop => ?_, fun sock data n hmem => .inl hmem⟩
          rcases List.mem_append.mp hop with hop | hop
          · rcases List.mem_append.mp hop with hop | hop
            · exact .inl hop
            · rw [List.mem_singleton.mp hop]
              exact .inr (hbegun _)
          · rw [List.mem_singleton.mp hop]
            exact .inr hfresh
        · cases heq
          refine ⟨Nat.le_refl _, fun op hop => ?_, fun sock data n hmem => .inl hmem⟩
          rcases List.mem_append.mp hop with hop | hop
          · exact .inl hop
          · rw [List.mem_singleton.mp hop]
            exact .inr (hbegun _)

/-- `Handle2ndResp` on what a read has brought. -/
theorem handle2ndResp_follows {bytesRead : Nat} {failed : Bool} {padding : Bytes 2}
    (hsock : s.pool[i]? = some sock) (hbuf : s.buffers[i]? = some buf) (hfresh : t s.sockets = [])
    (hread : k2ndBindResponseSize ≤ bytesRead → buf.val.getD 1 0 = 0x00 →
      Told (t sock) ((newConnResp buf).toBytes padding))
    (heq : handle2ndResp s i bytesRead failed padding = .ok s') : Follows t i s s' := by
  rw [handle2ndResp, buffer_eq_ok hbuf] at heq
  simp only [bind, Except.bind] at heq
  split at heq
  · cases heq
    exact .refl t i s
  · split at heq
    · exact follows_fail hfresh hsock heq
    · next hok =>
      cases heq
      simp only [not_or, not_lt, ne_eq, not_not] at hok
      refine ⟨Nat.le_refl _, fun op hop => ?_, fun sock data n hmem => .inl hmem⟩
      rcases List.mem_append.mp hop with hop | hop
      · exact .inl hop
      · have hi : i < s.buffers.length := (List.getElem?_eq_some_iff.mp hbuf).1
        rw [List.mem_singleton.mp hop]
        exact .inr ⟨sock, _, hsock, List.getElem?_set_self hi, hread hok.2.1 hok.2.2⟩

/-- `HandleSendFd`. -/
theorem handleSendFd_follows {failed : Bool} {bytesSent : Int} (hsock : s.pool[i]? = some sock)
    (hbuf : s.buffers[i]? = some buf) (hfresh : t s.sockets = []) (htold : Told (t sock) buf)
    (heq : handleSendFd s i failed bytesSent = .ok s') : Follows t i s s' := by
  rw [handleSendFd, sock_eq_ok hsock, buffer_eq_ok hbuf] at heq
  simp only [bind, Except.bind] at heq
  split at heq
  · cases heq
    exact .refl t i s
  · split at heq
    · exact follows_fail hfresh hsock heq
    · split at heq
      · cases heq
        exact ⟨Nat.le_refl _, fun _ h => .inl h, fun _ _ _ h => .inl h⟩
      · rw [initiateSocket_eq (s := s.act (.descriptor sock buf bytesSent)) hsock] at heq
        cases heq
        refine follows_restarted hfresh s.numberOfErrors ?_
        intro sock' data n hmem
        cases List.mem_singleton.mp hmem
        exact htold

/-- A handler has run: its slot has followed the bytes, and the others are as they were. -/
theorem Tracked.handled {e : Event} (ht : Tracked t s) (hs : Inv s) (hk : s.ops[k]? = some op)
    (hpos : e.position = some k) (hstep : Stepped e s s') (hf : Follows t op.index (s.done k) s') :
    Tracked t s' := by
  have hall := hs.done hk
  refine ⟨fun sock hle => ht.fresh sock (hf.sockets.trans hle), fun op' hop' => ?_,
    fun sock data n hmem => ?_⟩
  · rcases hf.ops op' hop' with hold | hreads
    · have hmem : op' ∈ s.ops := List.mem_of_mem_eraseIdx hold
      have hok := hs.ops op' hmem
      have hne : op.index ≠ op'.index := by
        intro heq
        obtain rfl : op = op' :=
          List.inj_on_of_nodup_map hs.single (List.mem_of_getElem? hk) hmem heq
        have hnodup : s.ops.Nodup := .of_map Op.index hs.single
        obtain ⟨hlt, rfl⟩ := List.getElem?_eq_some_iff.mp hk
        have hperm := (List.getElem_cons_eraseIdx_perm hlt).nodup_iff.mpr hnodup
        exact (List.nodup_cons.mp hperm).1 hold
      have hframe := hstep.frame op'.index fun k' hk' op₁ hop₁ => by
        rw [hpos] at hk'
        cases hk'
        rw [hk] at hop₁
        cases hop₁
        exact hne
      exact (ht.ops op' hmem).other hok (hframe.pool hok.slot) hframe.buffer fun _ _ => rfl
    · exact hreads
  · rcases hf.sent sock data n hmem with hold | htold
    · exact ht.sent sock data n hold
    · exact htold

/-- The kernel serves a read. -/
theorem Tracked.recv {bytes : List Byte} {failed : Bool} (ht : Tracked t s) (hs : Inv s)
    (heq : SessionPool.recv s k bytes failed = some s') :
    Tracked (Event.take s t (.recv k bytes failed)) s' := by
  have hstep := recv_spec hs heq
  obtain ⟨index, sock, r, buf, hk, hended, hbuf, hlen, rfl⟩ := recv_eq_some heq
  have hmem := List.mem_of_getElem? hk
  have hok := hs.ops _ hmem
  have hsock : s.pool[index]? = some sock := hok.sock sock rfl
  have hin : sock ∈ s.pool := List.mem_of_getElem? hsock
  simp only [Event.take, hk]
  have hne {x : Nat} (hx : x ≠ sock) :
      Function.update t sock (t sock ++ bytes) x = t x := Function.update_of_ne hx _ _
  refine ⟨fun x hle => ?_, fun op' hop' => ?_, fun x data n hdesc => ?_⟩
  · have hlt : sock < x := Nat.lt_of_lt_of_le (hs.fresh sock hin) hle
    rw [hne (Nat.ne_of_gt hlt)]
    exact ht.fresh x hle
  · have hnew : ⟨index, .read sock (r.recv bytes failed)⟩ ∈
        s.ops.set k ⟨index, .read sock (r.recv bytes failed)⟩ :=
      List.mem_of_getElem? (List.getElem?_set_self (List.getElem?_eq_some_iff.mp hk).1)
    by_cases hindex : op'.index = index
    · -- It is the read itself.
      obtain rfl : op' = ⟨index, .read sock (r.recv bytes failed)⟩ :=
        List.inj_on_of_nodup_map hstep.inv.single hop' hnew hindex
      have hold := ht.ops _ hmem
      obtain ⟨resp, whole, old, ended⟩ := r
      cases resp with
      | first =>
        obtain ⟨hbytes, rfl, -⟩ := hold
        refine ⟨?_, rfl, fun hdone => ?_⟩
        · rw [Function.update_self, hbytes]
        · simp only [Bool.not_true, Bool.or_false] at hdone
          cases failed with
          | true => simp at hdone
          | false =>
            simp only [Bool.false_or, beq_iff_eq] at hdone
            split at hdone
            · next h => exact h
            · cases hdone
      | second =>
        obtain ⟨-, first, hfirst, hbytes⟩ := hold
        refine ⟨hlen, first, hfirst, ?_⟩
        rw [Function.update_self, hbytes, List.append_assoc]
    · have hold : op' ∈ s.ops := by
        rcases List.mem_or_eq_of_mem_set hop' with h | h
        · exact h
        · rw [h] at hindex
          exact absurd rfl hindex
      have hok' := hs.ops op' hold
      refine (ht.ops op' hold).other hok' rfl (List.getElem?_set_ne (Ne.symm hindex)) ?_
      intro x hx
      refine hne fun hxs => hindex ?_
      subst hxs
      exact (List.getElem?_inj hok'.slot hs.nodup).mp (hx.trans hsock.symm)
  · have hgone := (hs.gone _ hdesc x rfl).2
    rw [hne fun hx => hgone (by rwa [hx])]
    exact ht.sent x data n hdesc

/-- One event. -/
theorem Tracked.step {e : Event} (ht : Tracked t s) (hs : Inv s)
    (heq : SessionPool.step s e = some (.ok s')) : Tracked (e.take s t) s' := by
  obtain ⟨s₁, hs₁, hstep⟩ := step_spec hs heq
  cases hs₁
  have hfresh := ht.fresh s.sockets (Nat.le_refl _)
  cases e with
  | connect k failed written =>
    simp only [SessionPool.step] at heq
    split at heq
    · next index sock hk =>
      have hmem := List.mem_of_getElem? hk
      exact ht.handled hs hk rfl hstep (handleConnect_follows (s := s.done k)
        ((hs.ops _ hmem).sock sock rfl) hfresh (ht.ops _ hmem) (Option.some.inj heq))
    · cases heq
  | recv k bytes failed =>
    obtain ⟨s₁, hrecv, hok⟩ := Option.map_eq_some_iff.mp heq
    cases hok
    exact ht.recv hs hrecv
  | resp k padding =>
    simp only [SessionPool.step] at heq
    split at heq
    · next index sock whole bytes failed hk =>
      have hmem := List.mem_of_getElem? hk
      have hok := hs.ops _ hmem
      obtain ⟨buf, hbuf⟩ := hs.exists_buffer hok.slot
      obtain ⟨hbytes, -, hdone⟩ := ht.ops _ hmem
      refine ht.handled hs hk rfl hstep (handle1stResp_follows (s := s.done k)
        (hok.sock sock rfl) hbuf hfresh (fun hfailed hrep => ?_) (Option.some.inj heq))
      have hlen : bytes.length = 12 := hdone (congrArg some hfailed)
      obtain ⟨rest, hrest⟩ := hok.bytes sock _ rfl buf hbuf
      rw [hbytes]
      refine ⟨hlen, ?_⟩
      rw [← hrest] at hrep
      rw [List.getD_eq_getElem?_getD,
        List.getElem?_append_left (show 3 < bytes.length by omega)] at hrep
      rw [List.getD_eq_getElem?_getD]
      exact hrep
    · next index sock whole bytes failed hk =>
      have hmem := List.mem_of_getElem? hk
      have hok := hs.ops _ hmem
      obtain ⟨buf, hbuf⟩ := hs.exists_buffer hok.slot
      obtain ⟨hle', first, hfirst, hbytes⟩ := ht.ops _ hmem
      refine ht.handled hs hk rfl hstep (handle2ndResp_follows (s := s.done k)
        (hok.sock sock rfl) hbuf hfresh (fun hle hrep => ?_) (Option.some.inj heq))
      have hlen : bytes.length = k2ndBindResponseSize := Nat.le_antisymm hle' hle
      obtain ⟨hresp, hgetD⟩ := newConnResp_eq (hok.bytes sock _ rfl buf hbuf) hlen
      exact ⟨first, bytes, padding, hbytes, hfirst, hlen, hgetD ▸ hrep, by rw [hresp]⟩
    · cases heq
  | sendFd k failed bytesSent =>
    simp only [SessionPool.step] at heq
    split at heq
    · next index hk =>
      obtain ⟨sock, data, hsock, hdata, htold⟩ := ht.ops _ (List.mem_of_getElem? hk)
      exact ht.handled hs hk rfl hstep
        (handleSendFd_follows (s := s.done k) hsock hdata hfresh htold
        (Option.some.inj heq))
    · cases heq
  | clientError =>
    cases heq
    unfold handleClientError
    split
    · exact ht
    · refine ⟨ht.fresh, fun op hop => ?_, ht.sent⟩
      exact (ht.ops op hop).other (hs.ops op hop) rfl rfl fun _ _ => rfl

end Tracked

section Traces

variable {env : StartEnv} {listenReq : SocketVendor.ListenRequest} {s : ClientSessionPool}
  {t : Taken}

theorem start_tracked {bindReq : SocketVendor.BindRequest} {resp : Bytes 12}
    (hstart : start env {} = .ok (true, s)) (hbind : env.bindRequest = some bindReq)
    (hreply : env.reply (bindRequest bindReq.port) = some resp) :
    Tracked (Function.update (fun _ => []) 0 resp.val) s := by
  unfold start at hstart
  split at hstart
  next ok s₁ hbound =>
  cases ok with
  | false => cases hstart
  | true =>
    obtain ⟨bindReq', resp', hbind', -, hreply', hrep, rfl⟩ := startBind_eq_true hbound
    rw [hbind] at hbind'
    cases hbind'
    obtain rfl : resp = resp' := Option.some.inj (hreply.symm.trans hreply')
    obtain ⟨req, first, second, -, hfirst, hsecond, rfl, -⟩ := startListen_eq_true hstart
    cases hfirst
    cases hsecond
    refine ⟨fun sock hle => ?_, fun op hop => ?_, fun sock data n hmem => ?_⟩
    · have hne : sock ≠ 0 := Nat.ne_of_gt (Nat.lt_of_lt_of_le Nat.zero_lt_two hle)
      exact Function.update_of_ne hne _ _
    · have hop' : op = ⟨0, .read 0 { resp := .second, whole := false }⟩ ∨ op = ⟨1, .connect 1⟩ := by
        simpa [listening, bound] using hop
      rcases hop' with rfl | rfl
      · exact ⟨Nat.zero_le _, resp.val, ⟨resp.property, hrep⟩, (List.append_nil _).symm⟩
      · rfl
    · simp [listening, bound] at hmem

theorem Traced.tracked (hlisten : env.listenRequest = some listenReq)
    (hbacklog : 2 ≤ listenReq.backlog) (ht : Traced env t s) : Tracked t s := by
  induction ht with
  | start hstart hbind hreply => exact start_tracked hstart hbind hreply
  | step ht hs ih => exact ih.step (reachable_inv hlisten hbacklog ht.reachable) hs

end Traces

/-! ## The bridge behind a slot -/

theorem request_bindRequest (p : UInt16) :
    Socks5.Request 0x02 (bindRequest p).val (.inet (arrayOf 4 []) (htons p)) := by
  have hg : Socks5.Greeting [0x05, 0x01, 0x00] := ⟨0x01, [0x00], rfl, by decide, by decide, rfl⟩
  refine ⟨_, _, hg, .v4 (arrayOf 4 []) (htons p), ?_⟩
  rw [bindRequest_val]
  rfl

section Bridge

open Bridge (ProxyBridge Session)
open Socks5 (Call Ctl Shown)

variable {benv : Bridge.Env} {b : ProxyBridge} {p : UInt16} {tail : List Byte}

/-- A BIND request that waits for its connection has been answered. Else the handshake has
failed. -/
theorem asked_bind (benv : Bridge.Env) (a : Sockaddr) :
    (∃ q, Bridge.asked benv 0x02 a = accepting a.port q) ∨
      ¬ Bridge.Waits (Bridge.asked benv 0x02 a) ∧
        (Bridge.asked benv 0x02 a).responses.length ≤ 12 := by
  have hasked : Bridge.asked benv 0x02 a =
      (Socks5.onRequestBind benv.callbacks Socks5.afterGreeting a.port).2 := rfl
  rw [hasked]
  cases hbind : benv.acceptor [.response Socks5.kGreetingResp .kStatusOK] a.port with
  | none =>
    have hctl : (Socks5.onRequestBind benv.callbacks Socks5.afterGreeting a.port).2 =
        ⟨.kFail, 0, [.response Socks5.kGreetingResp .kStatusOK, .bind a.port .kStatusFail]⟩ := by
      simp [Socks5.onRequestBind, Socks5.afterGreeting, Bridge.Env.callbacks, Ctl.goTo, hbind,
        Socks5.afterSwitch, Ctl.fail, Ctl.log]
    rw [hctl]
    exact .inr ⟨by simp [Bridge.Waits], show 2 ≤ 12 by decide⟩
  | some q =>
    cases hwrite : benv.write [.response Socks5.kGreetingResp .kStatusOK, .bind a.port .kStatusOK]
      (Socks5.bindResp q) with
    | true =>
      refine .inl ⟨q, ?_⟩
      simp [Socks5.onRequestBind, Socks5.afterGreeting, Bridge.Env.callbacks, Ctl.goTo, hbind,
        Socks5.callResponse, Ctl.log, hwrite, accepting]
    | false =>
      have hctl : (Socks5.onRequestBind benv.callbacks Socks5.afterGreeting a.port).2 =
          ⟨.kFail, 0, [.response Socks5.kGreetingResp .kStatusOK, .bind a.port .kStatusOK,
            .response (Socks5.bindResp q) .kStatusFail]⟩ := by
        simp [Socks5.onRequestBind, Socks5.afterGreeting, Bridge.Env.callbacks, Ctl.goTo, hbind,
          Socks5.callResponse, Ctl.log, hwrite, Socks5.afterSwitch, Ctl.fail]
      rw [hctl]
      exact .inr ⟨by simp [Bridge.Waits], Nat.le_refl 12⟩

theorem asked_responses_length (benv : Bridge.Env) (a : Sockaddr) :
    (Bridge.asked benv 0x02 a).responses.length ≤ 12 := by
  obtain ⟨q, h⟩ | ⟨-, h⟩ := asked_bind benv a
  · rw [h, responses_accepting]
    exact Nat.le_refl 12
  · exact h

/-- A pool that could read both replies talks to a bridge that forwards for it. -/
theorem relayed_of_told {shown bytes : List Byte} {data : MicroBuffer} (hb : Session benv b)
    (hrecv : b.upstream.received <+: (bindRequest p).val ++ tail)
    (hshown : Shown b.socks5State.calls shown) (htaken : bytes <+: shown ++ b.downstream.sent)
    (htold : Told bytes data) :
    Bridge.Relayed benv 0x02 (.inet (arrayOf 4 []) (htons p)) b := by
  obtain ⟨first, second, padding, rfl, hfirst, hsecond, -, -⟩ := htold
  have hle := htaken.length_le
  have hlen := Socks5.shown_length hshown
  have h22 : k2ndBindResponseSize = 22 := rfl
  rw [List.length_append, List.length_append, hfirst.1, hsecond, h22] at hle
  cases hb.phase with
  | hearing hh =>
    have hle' := hh.responses_length
    rw [hh.downSent, List.length_nil] at hle
    unfold Ctl.responses at hle'
    omega
  | @awaiting cmd a hw =>
    obtain ⟨-, rfl, rfl⟩ := hb.consumed_request (request_bindRequest p) hrecv hw.toConsumed
    have hle' := asked_responses_length benv (.inet (arrayOf 4 []) (htons p))
    unfold Ctl.responses at hle'
    rw [hw.calls] at hlen
    rw [hw.downSent, List.length_nil] at hle
    omega
  | @relayed cmd a hr =>
    obtain ⟨-, rfl, rfl⟩ := hb.consumed_request (request_bindRequest p) hrecv hr.toConsumed
    exact hr

/-- A relayed BIND has its one accept behind it. -/
theorem relayed_bind (hr : Bridge.Relayed benv 0x02 (.inet (arrayOf 4 []) (htons p)) b) :
    ∃ q, b.socks5State = (Socks5.connectionSucceed benv.callbacks (accepting p q)).2 ∧
      b.socks5State.dials = [.bind p .kStatusOK] ∧ b.accepted = 1 ∧
      b.socks5State.state = .kSuccess := by
  have hport : Sockaddr.port (.inet (arrayOf 4 []) (htons p)) = p := ntohs_htons p
  obtain ⟨q, hasked⟩ := (asked_bind benv _).resolve_right fun h => h.1 hr.waits
  rw [hport] at hasked
  have hctl := hr.ctl
  rw [hasked] at hctl
  refine ⟨q, hctl, ?_⟩
  rw [Socks5.connectionSucceed_waiting (.inr rfl)] at hctl
  obtain ⟨-, haccepts⟩ := Bridge.connects_reply benv (accepting p q)
    ((accepting p q).state = .kWaitAccept)
  refine ⟨?_, ?_, by rw [hctl]⟩
  · rw [hctl]
    exact (Socks5.dials_callResponse _ _).trans (Socks5.dials_createResp _ _)
  · rw [hr.accepted, hctl]
    exact haccepts

variable {env : StartEnv} {listenReq : SocketVendor.ListenRequest} {s : ClientSessionPool}
  {t : Taken}

/-- **Agreement on a BIND.** In every run of a pool, and in every state of the bridge behind the
socket of a descriptor that the pool has handed on, whatever the sockets of both do. The socket's
bytes are what the bridge was sent, and what the pool has read is a part of what the bridge has
written. Then the bridge has bound the port of the pool's request, has accepted one connection and
forwards it, and it has sent nothing on but what follows the request. -/
theorem bind_agreement (hlisten : env.listenRequest = some listenReq)
    (hbacklog : 2 ≤ listenReq.backlog) (ht : Traced env t s) {sock : Nat} {data : MicroBuffer}
    {n : Int} (hlog : .descriptor sock data n ∈ s.log) (hb : Session benv b)
    (hrecv : b.upstream.received <+: (bindRequest p).val ++ tail) {shown : List Byte}
    (hshown : Shown b.socks5State.calls shown) (htaken : t sock <+: shown ++ b.downstream.sent) :
    b.socks5State.dials = [.bind p .kStatusOK] ∧ b.accepted = 1 ∧
      b.socks5State.state = .kSuccess ∧ b.upstream.sent <+: tail := by
  have htold := (ht.tracked hlisten hbacklog).sent sock data n hlog
  obtain ⟨q, -, hdials, haccepted, hstate⟩ :=
    relayed_bind (relayed_of_told hb hrecv hshown htaken htold)
  exact ⟨hdials, haccepted, hstate, hb.sent_prefix (request_bindRequest p) hrecv⟩

theorem Binds.calls {cb : Socks5.Callbacks} {q : UInt16} {peer : Sockaddr} (hb : Binds cb q peer)
    (p q' : UInt16) : (Socks5.connectionSucceed cb (accepting p q')).2.calls =
      (accepting p q').calls ++
        [.destAddress true .kStatusOK, .response (secondReply peer) .kStatusOK] := by
  obtain ⟨d, hd, hpeer⟩ := hb.destAddress
  rw [Socks5.connectionSucceed_waiting (.inr rfl)]
  simp [Socks5.reply, Socks5.createResp, hd, hpeer, Socks5.callResponse, hb.response, Ctl.log,
    accepting, secondReply]

theorem responseOf_secondReply (addr : Bytes 16) (port : Bytes 2) :
    responseOf (secondReply (.inet6 addr port)) = { addr := addr, port := port } := by
  have haddr : (responseOf (secondReply (.inet6 addr port))).addr = addr :=
    Socks5.arrayOf_take addr port
  have hport : (responseOf (secondReply (.inet6 addr port))).port = port := by
    have hdrop : (secondReply (.inet6 addr port)).drop 20 = port.val :=
      List.drop_left' addr.property
    rw [responseOf, hdrop, List.take_of_length_le (Nat.le_of_eq port.property), arrayOf_toList]
  exact congrArg₂ (SocketVendor.NewConnectionResponse.mk .kNewConnectionResponse) haddr hport

/-- **The tunnel of a BIND.** When the replies are written and the inbound connection comes from an
IPv6 peer, in the same runs: the pool has read exactly the responses of the bridge, so what the
application reads from the descriptor begins with the first byte of the peer. `accept4` reports the
peer from the message, and what the application writes is what the peer is sent. -/
theorem bind_tunnel (hlisten : env.listenRequest = some listenReq)
    (hbacklog : 2 ≤ listenReq.backlog) (ht : Traced env t s) {sock : Nat} {data : MicroBuffer}
    {n : Int} (hlog : .descriptor sock data n ∈ s.log) {q : UInt16} {addr : Bytes 16}
    {port : Bytes 2} (hbinds : Binds benv.callbacks q (.inet6 addr port)) (hb : Session benv b)
    (hrecv : b.upstream.received <+: (bindRequest p).val ++ tail) {shown : List Byte}
    (hshown : Shown b.socks5State.calls shown) (htaken : t sock <+: shown ++ b.downstream.sent) :
    t sock = b.socks5State.responses ∧ b.upstream.sent <+: tail ∧
      b.downstream.sent <+: b.downstream.received ∧
      ∀ accept fd len flags, SocketVendor.Delivers accept data fd →
        SocketVendor.sizeofSockaddrIn6 ≤ len → ∃ setfl,
          SocketVendor.accept4 accept (some len) flags =
            .ok fd setfl (some (.inet6 addr port, SocketVendor.sizeofSockaddrIn6)) := by
  have htold := (ht.tracked hlisten hbacklog).sent sock data n hlog
  obtain ⟨q', hctl, -⟩ := relayed_bind (relayed_of_told hb hrecv hshown htaken htold)
  have hcalls := hbinds.calls p q'
  rw [← hctl] at hcalls
  obtain rfl : shown = b.socks5State.responses := by
    refine Socks5.shown_eq hshown fun data ret hmem => ?_
    rw [hcalls] at hmem
    simp only [accepting, List.cons_append, List.nil_append, List.mem_cons, List.not_mem_nil,
      reduceCtorEq, false_or, or_false, Call.response.injEq] at hmem
    rcases hmem with ⟨-, rfl⟩ | ⟨-, rfl⟩ | ⟨-, rfl⟩ <;> rfl
  have hresponses : b.socks5State.responses =
      (accepting p q').responses ++ secondReply (.inet6 addr port) := by
    rw [Ctl.responses, hcalls, List.filterMap_append, List.flatMap_append]
    exact congrArg _ (List.append_nil _)
  obtain ⟨first, second, padding, hbytes, hfirst, hsecond, -, rfl⟩ := htold
  have hlen : (accepting p q').responses.length = 12 := by
    rw [responses_accepting]
    rfl
  have hlen' : (secondReply (.inet6 addr port)).length = k2ndBindResponseSize := by
    rw [secondReply, List.length_append, fillAddrPort_length]
    rfl
  have htake : t sock = b.socks5State.responses := by
    have hle : (t sock).length = b.socks5State.responses.length := by
      rw [hresponses, hbytes, List.length_append, List.length_append, hfirst.1, hsecond, hlen,
        hlen']
    rw [List.prefix_iff_eq_take.mp htaken, hle, List.take_left]
  obtain ⟨-, hreply⟩ := List.append_inj ((hbytes.symm.trans htake).trans hresponses)
    (hfirst.1.trans hlen.symm)
  obtain ⟨-, ⟨content, -, hstream⟩, -⟩ := Bridge.streams_preserved hb.reachable
  refine ⟨htake, hb.sent_prefix (request_bindRequest p) hrecv, ?_, ?_⟩
  · rw [hstream]
    exact List.prefix_append _ _
  · intro accept fd len flags hdelivers hle
    have haccept := SocketVendor.accept4_inet6 hdelivers hle flags
    rw [hreply, responseOf_secondReply] at haccept
    exact ⟨_, haccept⟩

end Bridge

/-- The web server's first connection is handed on. -/
theorem exists_inbound :
    ∃ t s data, Traced webServer t s ∧ .descriptor 0 data 24 ∈ s.log ∧
      t 0 = [0x05, 0x00, 0x05, 0x00, 0x00, 0x01, 0x00, 0x00, 0x00, 0x00, 0x1f, 0x90] ++
        inbound := by
  refine ⟨_, _, (responseOf inbound).toBytes (arrayOf 2 []),
    .step (e := .sendFd 1 false 24) (.step (e := .resp 0 (arrayOf 2 []))
      (.step (e := .recv 0 inbound false) (.start rfl rfl rfl) rfl) rfl) rfl, ?_, ?_⟩
  · decide
  · decide

/-- A bridge whose acceptor gets port 8080 and a connection from `[::1]:443`. -/
def inboundEnv : Bridge.Env where
  write _ _ := true
  endpoint _ _ := some (.inet6 (arrayOf 16 (List.replicate 15 0x00 ++ [0x01])) (htons 443))
  acceptor _ _ := some 8080

/-- The request of the web server, a connection, and two bytes of the peer. -/
def bindTraffic : List Bridge.Event :=
  [.clientRecv (bindRequest 8080).val .success, .clientRead, .accept .success,
    .destRecv [31, 32] .success, .destRead, .clientSend 2 .success, .clientWrite]

theorem exists_bindTraffic :
    ∃ b, Bridge.Session inboundEnv b ∧ b.upstream.received = (bindRequest 8080).val ∧
      b.socks5State.calls = [.response [0x05, 0x00] .kStatusOK, .bind 8080 .kStatusOK,
        .response [0x05, 0x00, 0x00, 0x01, 0x00, 0x00, 0x00, 0x00, 0x1f, 0x90] .kStatusOK,
        .destAddress true .kStatusOK, .response inbound .kStatusOK] ∧
      b.downstream.sent = [31, 32] :=
  Bridge.exists_session inboundEnv bindTraffic _ (by decide +kernel)

theorem shown_bindTraffic : Socks5.Shown
    [.response [0x05, 0x00] .kStatusOK, .bind 8080 .kStatusOK,
      .response [0x05, 0x00, 0x00, 0x01, 0x00, 0x00, 0x00, 0x00, 0x1f, 0x90] .kStatusOK,
      .destAddress true .kStatusOK, .response inbound .kStatusOK]
    ([0x05, 0x00] ++ ([0x05, 0x00, 0x00, 0x01, 0x00, 0x00, 0x00, 0x00, 0x1f, 0x90] ++
      (inbound ++ []))) :=
  .response List.prefix_rfl (fun _ => rfl) (.bind (.response List.prefix_rfl (fun _ => rfl)
    (.destAddress (.response List.prefix_rfl (fun _ => rfl) .nil))))

theorem bind_agreement_bindTraffic :
    ∃ b, Bridge.Session inboundEnv b ∧ b.socks5State.dials = [.bind 8080 .kStatusOK] ∧
      b.accepted = 1 := by
  obtain ⟨t, s, data, ht, hlog, htaken⟩ := exists_inbound
  obtain ⟨b, hb, hrecv, hcalls, hsent⟩ := exists_bindTraffic
  have hrecv' : b.upstream.received <+: (bindRequest 8080).val ++ [] := ⟨[], by rw [hrecv]⟩
  obtain ⟨hdials, haccepted, -⟩ := bind_agreement rfl (by decide) ht hlog hb hrecv'
    (hcalls ▸ shown_bindTraffic)
    (by rw [htaken]; exact List.prefix_append _ _)
  exact ⟨b, hb, hdials, haccepted⟩

theorem bind_tunnel_bindTraffic :
    ∃ t s data b, Traced webServer t s ∧ .descriptor 0 data 24 ∈ s.log ∧
      Bridge.Session inboundEnv b ∧ t 0 = b.socks5State.responses := by
  obtain ⟨t, s, data, ht, hlog, htaken⟩ := exists_inbound
  obtain ⟨b, hb, hrecv, hcalls, hsent⟩ := exists_bindTraffic
  have hrecv' : b.upstream.received <+: (bindRequest 8080).val ++ [] := ⟨[], by rw [hrecv]⟩
  obtain ⟨htake, -⟩ := bind_tunnel rfl (by decide) ht hlog
    (q := 8080) ⟨fun _ _ => rfl, fun _ _ => rfl, _, rfl, fun _ => rfl⟩ hb hrecv'
    (hcalls ▸ shown_bindTraffic)
    (by rw [htaken]; exact List.prefix_append _ _)
  exact ⟨t, s, data, b, ht, hlog, hb, htake⟩

end SessionPool

end Proxy
end TrustedCa
