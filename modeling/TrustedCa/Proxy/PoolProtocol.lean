import TrustedCa.Proxy.PoolInvariant

/-!
# The protocol of the socket vendor's pool

`step_spec` is what one event does to the invariant, and `reachable_inv` is the induction over runs.
From them, for any order of completions and errors over all slots:

* every slot has exactly one outstanding operation until the pool is stopped;
* only a first response adds a slot, one, with the next number;
* a full second response leads to one descriptor message, with the slot's own socket and the address
  and port of that response, before the slot gets another socket (`Waiting`).
-/

namespace TrustedCa
namespace Proxy
namespace SessionPool

open Spec (bind_eq_ok)
open Spec.Slots (OneEach AllBut map_set_of_slot_eq)

/-- The event is a first response. -/
def Event.IsFirstResp (s : ClientSessionPool) (e : Event) : Prop :=
  ∃ k padding index sock r, e = .resp k padding ∧ s.ops[k]? = some ⟨index, .read sock r⟩ ∧
    r.resp = .first

/-- What an event does. -/
structure Stepped (e : Event) (s s' : ClientSessionPool) : Prop where
  inv : Inv s'
  log : s.log <+: s'.log
  frame : ∀ j, (∀ k ∈ e.position, ∀ op ∈ s.ops[k]?, op.index ≠ j) → Frame j s s'
  grown : s'.pool.length = s.pool.length ∨
    e.IsFirstResp s ∧ s'.pool.length = s.pool.length + 1 ∧
      ∃ sock, ⟨s.pool.length, .connect sock⟩ ∈ s'.ops

section Step

variable {s s' : ClientSessionPool} {i k : Nat} {e : Event} {op : Op}

/-- A handler, from the pool with its operation. -/
theorem Handled.stepped (hk : s.ops[k]? = some op) (hpos : e.position = some k)
    (hh : Handled op.index (s.done k) s')
    (hgrown : s'.pool.length = s.pool.length ∨ e.IsFirstResp s ∧
      s'.pool.length = s.pool.length + 1 ∧ ∃ sock, ⟨s.pool.length, .connect sock⟩ ∈ s'.ops) :
    Stepped e s s' := by
  refine ⟨hh.inv, hh.log, fun j hj => ?_, hgrown⟩
  have hne : op.index ≠ j := hj k hpos op hk
  exact (hh.frame j (Ne.symm hne)).done hne hk

theorem Resp.size_le (resp : Resp) : resp.size ≤ 24 := by cases resp <;> decide

theorem prefix_copyTo {buf : MicroBuffer} {old bytes : List Byte} (hold : old <+: buf.val)
    (hlen : (old ++ bytes).length ≤ 24) : old ++ bytes <+: (copyTo buf old.length bytes).val := by
  have htake : buf.val.take old.length = old := (List.prefix_iff_eq_take.mp hold).symm
  refine List.prefix_take_iff.mpr ⟨?_, hlen⟩
  rw [htake, List.append_assoc]
  exact List.prefix_append ..

/-- When the kernel can put bytes into a buffer, and what it does then. -/
theorem recv_eq_some {bytes : List Byte} {failed : Bool} (heq : recv s k bytes failed = some s') :
    ∃ index sock r buf, s.ops[k]? = some ⟨index, .read sock r⟩ ∧ r.ended = none ∧
      s.buffers[index]? = some buf ∧ (r.bytes ++ bytes).length ≤ r.resp.size ∧
      s' = { s with
        buffers := s.buffers.set index (copyTo buf r.bytes.length bytes)
        ops := s.ops.set k ⟨index, .read sock (r.recv bytes failed)⟩ } := by
  unfold recv at heq
  split at heq
  · next index sock r hk =>
    split at heq
    · next buf hended hbuf =>
      split at heq
      · next hlen => exact ⟨index, sock, r, buf, hk, hended, hbuf, hlen, (Option.some.inj heq).symm⟩
      · cases heq
    · cases heq
  · cases heq

/-- The kernel serves a read. -/
theorem recv_spec {bytes : List Byte} {failed : Bool} (hs : Inv s)
    (heq : recv s k bytes failed = some s') : Stepped (.recv k bytes failed) s s' := by
  obtain ⟨index, sock, r, buf, hk, -, hbuf, hlen, rfl⟩ := recv_eq_some heq
  have hop := hs.ops _ (List.mem_of_getElem? hk)
  have hmap : (s.ops.set k ⟨index, .read sock (r.recv bytes failed)⟩).map Op.index =
      s.ops.map Op.index := map_set_of_slot_eq hk rfl
  have hfront : r.bytes ++ bytes <+: (copyTo buf r.bytes.length bytes).val :=
    prefix_copyTo (hop.bytes sock r rfl buf hbuf) (Nat.le_trans hlen (Resp.size_le _))
  have hslot : index < s.buffers.length := (List.getElem?_eq_some_iff.mp hbuf).1
  refine ⟨⟨⟨hs.slots, hs.size, ?_, ?_, ?_, hs.nodup, hs.fresh, hs.gone, hs.once⟩, ?_⟩,
    List.prefix_rfl, ?_, .inl rfl⟩
  · exact List.length_set.trans hs.buffers
  · intro x hx
    rcases List.mem_or_eq_of_mem_set hx with hx | rfl
    · obtain ⟨hlt, hsock, hb⟩ := hs.ops x hx
      refine ⟨hlt, hsock, fun y r' hr buf' hbuf' => ?_⟩
      by_cases hindex : index = x.index
      · -- It is the read itself, before the new bytes.
        obtain rfl : ⟨index, .read sock r⟩ = x :=
          List.inj_on_of_nodup_map hs.single (List.mem_of_getElem? hk) hx hindex
        cases hr
        rw [Option.mem_def, List.getElem?_set_self hslot] at hbuf'
        cases hbuf'
        exact (List.prefix_append ..).trans hfront
      · rw [Option.mem_def, List.getElem?_set_ne hindex] at hbuf'
        exact hb y r' hr buf' hbuf'
    · refine ⟨hop.slot, hop.sock, fun y r' hr buf' hbuf' => ?_⟩
      cases hr
      rw [Option.mem_def, List.getElem?_set_self hslot] at hbuf'
      cases hbuf'
      exact hfront
  · rw [hmap]
    exact hs.single
  · intro hstop
    rw [OneEach, hmap]
    exact hs.each hstop
  · intro j hj
    have hne : index ≠ j := hj k rfl _ hk
    refine .of_log_eq rfl (fun _ => rfl) (List.getElem?_set_ne hne) fun x hx hxj => ?_
    obtain ⟨n, hn⟩ := List.getElem?_of_mem hx
    refine List.mem_of_getElem? (i := n) ?_
    rw [List.getElem?_set_ne, hn]
    rintro rfl
    rw [hk] at hn
    cases hn
    exact hne hxj

/-- One event keeps the invariant, and no index is out of range. -/
theorem step_spec {r : Except Fault ClientSessionPool} (hs : Inv s) (heq : step s e = some r) :
    ∃ s', r = .ok s' ∧ Stepped e s s' := by
  cases e with
  | connect k failed written =>
    simp only [step] at heq
    split at heq
    · next index sock hk =>
      cases heq
      obtain ⟨s', heq, hh, hlen⟩ := handleConnect_spec (hs.done hk) failed written
      exact ⟨s', heq, hh.stepped hk rfl (.inl hlen)⟩
    · cases heq
  | recv k bytes failed =>
    obtain ⟨s', hrecv, rfl⟩ := Option.map_eq_some_iff.mp heq
    exact ⟨s', rfl, recv_spec hs hrecv⟩
  | resp k padding =>
    simp only [step] at heq
    split at heq
    · next index sock whole bytes failed hk =>
      cases heq
      obtain ⟨s', heq, hh, hlen⟩ := handle1stResp_spec (hs.done hk) failed
      refine ⟨s', heq, hh.stepped hk rfl (hlen.imp_right fun h => ⟨?_, h⟩)⟩
      exact ⟨k, padding, index, sock, _, rfl, hk, rfl⟩
    · next index sock whole bytes failed hk =>
      cases heq
      obtain ⟨s', heq, hh, hlen⟩ := handle2ndResp_spec (hs.done hk) bytes.length failed padding
      exact ⟨s', heq, hh.stepped hk rfl (.inl hlen)⟩
    · cases heq
  | sendFd k failed bytesSent =>
    simp only [step] at heq
    split at heq
    · next index hk =>
      cases heq
      obtain ⟨s', heq, hh, hlen⟩ := handleSendFd_spec (hs.done hk) failed bytesSent
      exact ⟨s', heq, hh.stepped hk rfl (.inl hlen)⟩
    · cases heq
  | clientError =>
    cases heq
    refine ⟨_, rfl, ?_⟩
    unfold handleClientError
    split
    · exact ⟨hs, List.prefix_rfl, fun j _ => .refl j s, .inl rfl⟩
    · exact ⟨hs.toBase.halt, List.prefix_rfl, fun j _ => .halt j s, .inl rfl⟩

theorem Runs.inv (hr : Runs s s') (hs : Inv s) : Inv s' ∧ s.log <+: s'.log := by
  induction hr with
  | refl => exact ⟨hs, List.prefix_rfl⟩
  | step _ heq ih =>
    obtain ⟨s₂, h₂, hstep⟩ := step_spec ih.1 heq
    cases h₂
    exact ⟨hstep.inv, ih.2.trans hstep.log⟩

end Step

/-! ## `Start` -/

/-- The pool when `Start` has answered the bind call, for the requested port and the reply of the
proxy. -/
def bound (port : UInt16) (resp : Bytes 12) : ClientSessionPool :=
  let request := fillPort bindReqTemplate (htons port)
  let boundPort := arrayOf 2 (resp.val.drop 10)
  { pool := [0]
    capacity := 1
    proxyBindRequest := fillPort request boundPort
    port := ntohs boundPort
    sockets := 1
    log := [.request 0 request, .bindResponse (ntohs boundPort)] }

theorem startBind_eq_true {env : StartEnv} {s : ClientSessionPool}
    (heq : startBind env {} = (true, s)) :
    ∃ bindReq resp, env.bindRequest = some bindReq ∧ bindReq.type = .kBindRequest ∧
      env.reply (fillPort bindReqTemplate (htons bindReq.port)) = some resp ∧
      resp.val.getD 3 0 = 0x00 ∧ s = bound bindReq.port resp := by
  unfold startBind at heq
  dsimp only at heq
  split at heq
  · cases heq
  · next bindReq hreq =>
    split at heq
    · cases heq
    · next htype =>
      split at heq
      · cases heq
      · split at heq
        · cases heq
        · split at heq
          · cases heq
          · next resp hresp =>
            split at heq
            · cases heq
            · next hrep =>
              split at heq
              · cases heq
              · cases heq
                exact ⟨bindReq, resp, hreq, not_not.mp htype, hresp, not_not.mp hrep, rfl⟩

/-- The pool when `Start` has answered the listen call. -/
def listening (s : ClientSessionPool) (first second : Nat) (backlog : Int32) : ClientSessionPool :=
  let n := (if kMaxConnections < backlog then kMaxConnections else backlog).toInt.toNat
  { s with
    pool := s.pool ++ [s.sockets]
    capacity := max (max s.capacity n) (s.pool.length + 1)
    buffers := resize s.buffers n
    poolSize := n
    sockets := s.sockets + 1
    ops := s.ops ++ [⟨0, .read first { resp := .second, whole := false }⟩] ++ [⟨1, .connect second⟩]
    log := s.log ++ [.listenResponse] }

theorem startListen_eq_true {env : StartEnv} {s s' : ClientSessionPool}
    (heq : startListen env s = .ok (true, s')) :
    ∃ listenReq first second, env.listenRequest = some listenReq ∧ s.pool[0]? = some first ∧
      (s.pool ++ [s.sockets])[1]? = some second ∧
      s' = listening s first second listenReq.backlog ∧ 0 < s'.buffers.length := by
  unfold startListen at heq
  dsimp only at heq
  split at heq
  · cases heq
  · next listenReq hreq =>
    split at heq
    · cases heq
    · split at heq
      · cases heq
      · split at heq
        · cases heq
        · obtain ⟨first, hfirst, heq⟩ := bind_eq_ok.mp heq
          obtain ⟨buf, hbuf, heq⟩ := bind_eq_ok.mp heq
          obtain ⟨second, hsecond, heq⟩ := bind_eq_ok.mp heq
          cases heq
          exact ⟨listenReq, first, second, hreq, pool_of_sock_eq_ok hfirst,
            pool_of_sock_eq_ok hsecond, rfl, lt_of_buffer_eq_ok hbuf⟩

/-- A backlog of at least 2 is a pool of at least 2. -/
theorem two_le_poolSize {backlog : Int32} (h : 2 ≤ backlog) :
    2 ≤ (if kMaxConnections < backlog then kMaxConnections else backlog).toInt.toNat := by
  split
  · decide
  · have := Int32.le_iff_toInt_le.mp h
    have h2 : (2 : Int32).toInt = 2 := by decide
    omega

/-- The pool that a successful `Start` leaves. -/
theorem start_eq_true {env : StartEnv} {s : ClientSessionPool}
    (heq : start env {} = .ok (true, s)) :
    ∃ port resp listenReq, env.listenRequest = some listenReq ∧
      s = listening (bound port resp) 0 1 listenReq.backlog ∧ 0 < s.buffers.length := by
  unfold start at heq
  split at heq
  next ok s₁ hbind =>
  cases ok with
  | false => cases heq
  | true =>
    obtain ⟨bindReq, resp, -, -, -, -, rfl⟩ := startBind_eq_true hbind
    obtain ⟨req, first, second, hreq, hfirst, hsecond, rfl, hbuffers⟩ := startListen_eq_true heq
    cases hfirst
    cases hsecond
    exact ⟨bindReq.port, resp, req, hreq, rfl, hbuffers⟩

theorem listening_inv {port : UInt16} {resp : Bytes 12} {backlog : Int32} (hbacklog : 2 ≤ backlog) :
    Inv (listening (bound port resp) 0 1 backlog) := by
  have hnodup : ([0, 1] : List Nat).Nodup := by decide
  have hfresh : ∀ x ∈ ([0, 1] : List Nat), x < 2 := by decide
  refine ⟨⟨Nat.le_refl 2, two_le_poolSize hbacklog, ?_, ?_, hnodup, hnodup, hfresh, ?_,
    List.nodup_nil⟩, fun _ => List.Perm.refl _⟩
  · simp [listening, resize, bound]
  · intro op hop
    have hop' : op = ⟨0, .read 0 { resp := .second, whole := false }⟩ ∨ op = ⟨1, .connect 1⟩ := by
      simpa [listening, bound] using hop
    rcases hop' with rfl | rfl
    · refine ⟨Nat.zero_lt_two, fun x hx => ?_, fun x r hr buf _ => ?_⟩
      · cases hx
        rfl
      · cases hr
        exact List.nil_prefix
    · refine ⟨Nat.one_lt_two, fun x hx => ?_, nofun⟩
      cases hx
      rfl
  · intro a ha x hx
    have ha' : a.retired = none := by
      simp only [listening, bound, List.cons_append, List.nil_append, List.mem_cons,
        List.not_mem_nil, or_false] at ha
      rcases ha with rfl | rfl | rfl <;> rfl
    rw [ha'] at hx
    cases hx

theorem start_inv {env : StartEnv} {s : ClientSessionPool} {listenReq : SocketVendor.ListenRequest}
    (hlisten : env.listenRequest = some listenReq) (hbacklog : 2 ≤ listenReq.backlog)
    (heq : start env {} = .ok (true, s)) : Inv s := by
  obtain ⟨port, resp, req, hreq, rfl, -⟩ := start_eq_true heq
  rw [hlisten] at hreq
  cases hreq
  exact listening_inv hbacklog

theorem reachable_inv {env : StartEnv} {s : ClientSessionPool}
    {listenReq : SocketVendor.ListenRequest} (hlisten : env.listenRequest = some listenReq)
    (hbacklog : 2 ≤ listenReq.backlog) (hr : Reachable env s) : Inv s := by
  obtain ⟨s₀, hstart, hruns⟩ := hr
  exact (hruns.inv (start_inv hlisten hbacklog hstart)).1

/-! ## Operations and their events -/

/-- The event that an operation with position `k` waits for. -/
def Pending.Awaits (k : Nat) : Pending → Event → Prop
  | .connect _, e => ∃ failed written, e = .connect k failed written
  | .read _ r, e => (r.ended = none ∧ ∃ bytes failed, e = .recv k bytes failed) ∨
    (r.ended ≠ none ∧ ∃ padding, e = .resp k padding)
  | .wait, e => ∃ failed bytesSent, e = .sendFd k failed bytesSent

/-- An event at a position is one that the operation there waits for. -/
theorem awaits_of_step {s : ClientSessionPool} {k : Nat} {op : Op} {e : Event}
    {r : Except Fault ClientSessionPool} (hpos : e.position = some k) (hk : s.ops[k]? = some op)
    (heq : step s e = some r) : op.pending.Awaits k e := by
  obtain ⟨index, pending⟩ := op
  cases e with
  | connect k' failed written =>
    cases hpos
    simp only [step, hk] at heq
    cases pending with
    | connect sock => exact ⟨failed, written, rfl⟩
    | read sock r => cases heq
    | wait => cases heq
  | recv k' bytes failed =>
    cases hpos
    simp only [step, recv, hk] at heq
    cases pending with
    | connect sock => cases heq
    | read sock r =>
      simp only at heq
      split at heq
      · next hended _ => exact .inl ⟨hended, bytes, failed, rfl⟩
      · cases heq
    | wait => cases heq
  | resp k' padding =>
    cases hpos
    simp only [step, hk] at heq
    cases pending with
    | connect sock => cases heq
    | read sock r =>
      obtain ⟨resp, whole, bytes, ended⟩ := r
      cases ended with
      | none => cases resp <;> cases heq
      | some failed => exact .inr ⟨nofun, padding, rfl⟩
    | wait => cases heq
  | sendFd k' failed bytesSent =>
    cases hpos
    simp only [step, hk] at heq
    cases pending with
    | connect sock => cases heq
    | read sock r => cases heq
    | wait => exact ⟨failed, bytesSent, rfl⟩
  | clientError => cases hpos

/-! ## From a second response to its descriptor -/

/-- Slot `i` waits to send `data` with the descriptor of its socket. -/
structure Waiting (s : ClientSessionPool) (i sock : Nat) (data : MicroBuffer) : Prop where
  op : ⟨i, .wait⟩ ∈ s.ops
  sock : s.pool[i]? = some sock
  buffer : s.buffers[i]? = some data

/-- The event is the end of the wait of slot `i`. -/
def Event.EndsWait (s : ClientSessionPool) (i : Nat) (e : Event) : Prop :=
  ∃ k failed bytesSent, e = .sendFd k failed bytesSent ∧ s.ops[k]? = some ⟨i, .wait⟩

/-- A run in which the wait of slot `i` does not end. -/
inductive Awaits (i : Nat) : ClientSessionPool → ClientSessionPool → Prop
  | refl (s : ClientSessionPool) : Awaits i s s
  | step {s s₁ s₂ : ClientSessionPool} {e : Event} : Awaits i s s₁ → step s₁ e = some (.ok s₂) →
    ¬ e.EndsWait s₁ i → Awaits i s s₂

/-- The response to the application with the address and the port of a second response. -/
def responseOf (bytes : List Byte) : SocketVendor.NewConnectionResponse where
  addr := arrayOf 16 ((bytes.drop 4).take 16)
  port := arrayOf 2 ((bytes.drop 20).take 2)

section Delivery

variable {s s' : ClientSessionPool} {i k sock : Nat} {e : Event} {data : MicroBuffer}

/-- The only event of a slot that waits is the end of its wait. -/
theorem Waiting.event (hs : Inv s) (hw : Waiting s i sock data) {r : Except Fault ClientSessionPool}
    (heq : step s e = some r) (hno : ¬ e.EndsWait s i) :
    ∀ k ∈ e.position, ∀ op ∈ s.ops[k]?, op.index ≠ i := by
  intro k hk op hop hindex
  obtain rfl : op = ⟨i, .wait⟩ :=
    List.inj_on_of_nodup_map hs.single (List.mem_of_getElem? hop) hw.op hindex
  obtain ⟨failed, bytesSent, rfl⟩ := awaits_of_step hk hop heq
  exact hno ⟨k, failed, bytesSent, rfl, hop⟩

theorem Waiting.step (hs : Inv s) (hw : Waiting s i sock data)
    (heq : SessionPool.step s e = some (.ok s')) (hno : ¬ e.EndsWait s i) :
    Inv s' ∧ Waiting s' i sock data := by
  obtain ⟨s₁, h₁, hstep⟩ := step_spec hs heq
  cases h₁
  obtain ⟨hpool, hbuffer, hops, -⟩ := hstep.frame i (hw.event hs heq hno)
  have hi : i < s.pool.length := (List.getElem?_eq_some_iff.mp hw.sock).1
  exact ⟨hstep.inv, hops _ hw.op rfl, (hpool hi).trans hw.sock, hbuffer.trans hw.buffer⟩

theorem Awaits.waiting (hr : Awaits i s s') (hs : Inv s) (hw : Waiting s i sock data) :
    Inv s' ∧ Waiting s' i sock data := by
  induction hr with
  | refl => exact ⟨hs, hw⟩
  | step _ heq hno ih => exact ih.2.step ih.1 heq hno

/-- A socket in the pool has been neither sent nor closed. -/
theorem Inv.untouched (hs : Inv s) (hsock : s.pool[i]? = some sock) :
    sock ∉ s.descriptors.map Prod.fst ∧ .close sock ∉ s.log := by
  have hmem : sock ∈ s.pool := List.mem_of_getElem? hsock
  exact ⟨hs.unsent hmem, fun hclose => (hs.gone _ hclose sock rfl).2 hmem⟩

/-- A full second response is accepted. -/
theorem handle2ndResp_accepted {buf : MicroBuffer} (hstop : s.stop = false)
    (hbuf : s.buffers[i]? = some buf) (hrep : buf.val.getD 1 0 = 0x00) (padding : Bytes 2) :
    handle2ndResp s i k2ndBindResponseSize false padding =
      .ok ({ s with buffers := s.buffers.set i ((newConnResp buf).toBytes padding) }.begin i
        .wait) := by
  rw [handle2ndResp, buffer_eq_ok hbuf]
  simp only [bind, Except.bind, hstop, Bool.false_eq_true, if_false, hrep, Nat.lt_irrefl, ne_eq,
    not_true, or_self]
  rfl

/-- What `Handle2ndResp` reads is in the bytes of the response. -/
theorem newConnResp_eq {buf : MicroBuffer} {bytes : List Byte} (hbytes : bytes <+: buf.val)
    (hlen : bytes.length = k2ndBindResponseSize) :
    newConnResp buf = responseOf bytes ∧ buf.val.getD 1 0 = bytes.getD 1 0 := by
  obtain ⟨rest, hrest⟩ := hbytes
  have hlen' : bytes.length = 22 := hlen
  have h4 : (buf.val.drop 4).take 16 = (bytes.drop 4).take 16 := by
    rw [← hrest, List.drop_append_of_le_length (by omega),
      List.take_append_of_le_length (by simp [hlen'])]
  have h20 : (buf.val.drop 20).take 2 = (bytes.drop 20).take 2 := by
    rw [← hrest, List.drop_append_of_le_length (by omega),
      List.take_append_of_le_length (by simp [hlen'])]
  refine ⟨by rw [newConnResp, responseOf, h4, h20], ?_⟩
  have h1 : 1 < bytes.length := by omega
  rw [List.getD_eq_getElem?_getD, List.getD_eq_getElem?_getD, ← hrest, List.getElem?_append_left h1]

/-- After a full second response its slot waits. -/
theorem resp_waiting {whole : Bool} {bytes : List Byte} (hs : Inv s) (hstop : s.stop = false)
    (hk : s.ops[k]? = some ⟨i, .read sock ⟨.second, whole, bytes, some false⟩⟩)
    (hlen : bytes.length = k2ndBindResponseSize) (hrep : bytes.getD 1 0 = 0x00)
    (padding : Bytes 2) :
    ∃ s', step s (.resp k padding) = some (.ok s') ∧ Inv s' ∧ s'.stop = false ∧
      Waiting s' i sock ((responseOf bytes).toBytes padding) := by
  have hop := hs.ops _ (List.mem_of_getElem? hk)
  obtain ⟨buf, hbuf⟩ := hs.exists_buffer hop.slot
  obtain ⟨hresp, hgetD⟩ := newConnResp_eq (hop.bytes sock _ rfl buf hbuf) hlen
  have hi : i < s.buffers.length := (List.getElem?_eq_some_iff.mp hbuf).1
  have heq : step s (.resp k padding) =
      some (handle2ndResp (s.done k) i bytes.length false padding) := by
    simp only [step, hk]
  rw [hlen, handle2ndResp_accepted (s := s.done k) hstop hbuf (hgetD.trans hrep), hresp] at heq
  obtain ⟨s', hs', hstep⟩ := step_spec hs heq
  refine ⟨_, heq, ?_, hstop, List.mem_append_right _ (List.mem_singleton_self _),
    hop.sock sock rfl, List.getElem?_set_self hi⟩
  cases hs'
  exact hstep.inv

/-- The end of a wait, when the message can be sent. -/
theorem Waiting.sendFd (hs : Inv s) (hw : Waiting s i sock data) (hstop : s.stop = false)
    (hk : s.ops[k]? = some ⟨i, .wait⟩) {n : Int} (hn : 0 < n) :
    ∃ s', SessionPool.step s (.sendFd k false n) = some (.ok s') ∧
      s'.log = s.log ++ [.descriptor sock data n, .close sock] ∧ Inv s' ∧ s'.stop = false := by
  have heq : SessionPool.step s (.sendFd k false n) = some (handleSendFd (s.done k) i false n) := by
    simp only [SessionPool.step, hk]
  have hsend : handleSendFd (s.done k) i false n =
      .ok (((s.done k).act (.descriptor sock data n)).restarted i sock) := by
    rw [handleSendFd, sock_eq_ok (s := s.done k) hw.sock, buffer_eq_ok (s := s.done k) hw.buffer]
    simp only [bind, Except.bind, show (s.done k).stop = false from hstop, Bool.false_eq_true,
      if_false, Int.not_le.mpr hn]
    exact initiateSocket_eq hw.sock
  rw [hsend] at heq
  obtain ⟨s', hs', hstep⟩ := step_spec hs heq
  cases hs'
  refine ⟨_, heq, ?_, hstep.inv, hstop⟩
  simp [ClientSessionPool.restarted, ClientSessionPool.act, ClientSessionPool.done]

/-- A descriptor that was sent is never sent again. -/
theorem descriptors_filter (hs : Inv s) {n : Int} (hmem : .descriptor sock data n ∈ s.log) :
    s.descriptors.filter (fun d => d.1 = sock) = [(sock, data)] := by
  have hin : (sock, data) ∈ s.descriptors := List.mem_filterMap.mpr ⟨_, hmem, rfl⟩
  have hnodup : s.descriptors.Nodup := .of_map Prod.fst hs.once
  refine List.perm_singleton.mp ((List.perm_ext_iff_of_nodup (hnodup.filter _)
    (List.nodup_singleton _)).mpr fun d => ?_)
  rw [List.mem_filter, List.mem_singleton, decide_eq_true_eq]
  constructor
  · rintro ⟨hd, heq⟩
    exact List.inj_on_of_nodup_map hs.once hd hin heq
  · rintro rfl
    exact ⟨hin, rfl⟩

end Delivery

/-- The protocol of the pool, for every backlog of at least 2 and every run after `Start`. Until the
pool is stopped, every slot has exactly one outstanding operation, and no other operation is
outstanding on the pool. An event adds at most one slot, with the next number, and only a first
response does. After a full second response with REP 00 on a slot, the slot keeps its socket and
nothing is sent or closed for it while its wait lasts; when the wait and `sendmsg` succeed, the
descriptor of that socket is sent with the address and the port of the response, before the socket is
closed, and never again. -/
theorem pool_protocol {env : StartEnv} {listenReq : SocketVendor.ListenRequest}
    (hlisten : env.listenRequest = some listenReq) (hbacklog : 2 ≤ listenReq.backlog)
    {s : ClientSessionPool} (hr : Reachable env s) :
    (s.stop = false → ∀ i, i < s.pool.length → s.ops.countP (fun op => op.index = i) = 1) ∧
    (∀ op ∈ s.ops, op.index < s.pool.length) ∧
    (∀ e r, step s e = some r → ∃ s', r = .ok s' ∧ (s'.pool.length = s.pool.length ∨
      e.IsFirstResp s ∧ s'.pool.length = s.pool.length + 1 ∧
        ∃ sock, ⟨s.pool.length, .connect sock⟩ ∈ s'.ops)) ∧
    ∀ k i sock whole bytes padding, s.stop = false →
      s.ops[k]? = some ⟨i, .read sock ⟨.second, whole, bytes, some false⟩⟩ →
      bytes.length = k2ndBindResponseSize → bytes.getD 1 0 = 0x00 →
      s.pool[i]? = some sock ∧ ∃ s₁, step s (.resp k padding) = some (.ok s₁) ∧ s₁.stop = false ∧
        ∀ s₂, Awaits i s₁ s₂ → s₂.stop = false →
          s₂.pool[i]? = some sock ∧ sock ∉ s₂.descriptors.map Prod.fst ∧ .close sock ∉ s₂.log ∧
          ∀ n, 0 < n → ∃ k₂ s₃, s₂.ops[k₂]? = some ⟨i, .wait⟩ ∧
            step s₂ (.sendFd k₂ false n) = some (.ok s₃) ∧
            s₃.log = s₂.log ++
              [.descriptor sock ((responseOf bytes).toBytes padding) n, .close sock] ∧
            ∀ s₄, Runs s₃ s₄ → s₄.descriptors.filter (fun d => d.1 = sock) =
              [(sock, (responseOf bytes).toBytes padding)] := by
  have hs := reachable_inv hlisten hbacklog hr
  refine ⟨fun hstop i hi => (hs.each hstop).countP_eq_one hi, fun op hop => (hs.ops op hop).slot,
    fun e r heq => ?_, fun k i sock whole bytes padding hstop hk hlen hrep => ?_⟩
  · obtain ⟨s', hs', hstep⟩ := step_spec hs heq
    exact ⟨s', hs', hstep.grown⟩
  · refine ⟨(hs.ops _ (List.mem_of_getElem? hk)).sock sock rfl, ?_⟩
    obtain ⟨s₁, heq, hs₁, hstop₁, hw₁⟩ := resp_waiting hs hstop hk hlen hrep padding
    refine ⟨s₁, heq, hstop₁, fun s₂ hawaits hstop₂ => ?_⟩
    obtain ⟨hs₂, hw₂⟩ := hawaits.waiting hs₁ hw₁
    obtain ⟨hunsent, hopen⟩ := hs₂.untouched hw₂.sock
    refine ⟨hw₂.sock, hunsent, hopen, fun n hn => ?_⟩
    obtain ⟨k₂, hk₂⟩ := List.getElem?_of_mem hw₂.op
    obtain ⟨s₃, heq₃, hlog, hs₃, -⟩ := hw₂.sendFd hs₂ hstop₂ hk₂ hn
    refine ⟨k₂, s₃, hk₂, heq₃, hlog, fun s₄ hruns => ?_⟩
    obtain ⟨hs₄, hfront⟩ := hruns.inv hs₃
    have hmem : .descriptor sock ((responseOf bytes).toBytes padding) n ∈ s₃.log := by
      rw [hlog]
      exact List.mem_append_right _ List.mem_cons_self
    exact descriptors_filter hs₄ (hfront.subset hmem)

/-- An application that listens on port 8080 with a backlog of 2. -/
def webServer : StartEnv where
  bindRequest := some { port := 8080 }
  connect := true
  write := true
  reply _ := some ⟨[0x05, 0x00, 0x05, 0x00, 0x00, 0x01, 0x00, 0x00, 0x00, 0x00, 0x1f, 0x90], rfl⟩
  sendBindResponse := true
  listenRequest := some { backlog := 2 }
  sendListenResponse := true

/-- An inbound connection from `[::1]:443`. -/
def inbound : List Byte := [0x05, 0x00, 0x00, 0x04] ++ List.replicate 15 0x00 ++ [0x01, 0x01, 0xbb]

theorem pool_protocol_inbound :
    ∃ s s₃, Reachable webServer s ∧ s.ops.countP (fun op => op.index = 0) = 1 ∧ Runs s s₃ ∧
      s₃.descriptors.filter (fun d => d.1 = 0) =
        [(0, (responseOf inbound).toBytes (arrayOf 2 []))] := by
  obtain ⟨s₀, hstart, s, hrecv, hstop, hlen, hk⟩ : ∃ s₀, start webServer {} = .ok (true, s₀) ∧
      ∃ s, step s₀ (.recv 0 inbound false) = some (.ok s) ∧ s.stop = false ∧ 0 < s.pool.length ∧
        s.ops[0]? = some ⟨0, .read 0 ⟨.second, false, inbound, some false⟩⟩ :=
    ⟨_, rfl, _, rfl, rfl, Nat.zero_lt_two, rfl⟩
  have hr : Reachable webServer s := ⟨s₀, hstart, .step (.refl s₀) hrecv⟩
  obtain ⟨heach, -, -, hsecond⟩ := pool_protocol rfl (by decide) hr
  obtain ⟨-, s₁, heq, hstop₁, hawaits⟩ :=
    hsecond 0 0 0 false inbound (arrayOf 2 []) hstop hk rfl rfl
  obtain ⟨-, -, -, hsend⟩ := hawaits s₁ (.refl s₁) hstop₁
  obtain ⟨k₂, s₃, -, heq₃, -, hdesc⟩ := hsend 24 (by decide)
  exact ⟨s, s₃, hr, heach hstop 0 hlen, .step (.step (.refl s) heq) heq₃, hdesc s₃ (.refl s₃)⟩

end SessionPool
end Proxy
end TrustedCa
