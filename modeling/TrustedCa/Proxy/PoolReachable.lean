import TrustedCa.Proxy.PoolBounds

/-!
# The socket vendor's pool for every backlog

With a backlog of 1 `Start` makes one buffer and two slots, so the pool does not have the invariant.
Until slot 1 uses the buffer that is not there, it runs as a pool that has it.

* `ClientSessionPool.widen`: the pool with the buffers that are missing. The handlers do the same to
  both (`Sound.step_eq`, `Sound.step_widen`).
* `Op.Rooted`: which operations are from `Start` and which from the handlers. The read of
  `async_read_some` is the one on the first socket.
* `Reachable.sound`: every state after `Start` has both, whatever the backlog.
-/

namespace TrustedCa
namespace Proxy
namespace SessionPool

open Spec (bind_eq_ok)

/-! ## A pool with the buffers that are missing -/

/-- The pool with further buffers and another final size. -/
def ClientSessionPool.widen (s : ClientSessionPool) (extra : List MicroBuffer) (n : Nat) :
    ClientSessionPool :=
  { s with buffers := s.buffers ++ extra, poolSize := n }

section Widen

variable {s s' : ClientSessionPool} {i : Nat} (extra : List MicroBuffer) (n : Nat)

theorem buffer_widen (hi : i < s.buffers.length) : (s.widen extra n).buffer i = s.buffer i := by
  rw [ClientSessionPool.buffer, ClientSessionPool.buffer, ClientSessionPool.widen,
    List.getElem?_append_left hi]

theorem initiateSocket_widen :
    initiateSocket (s.widen extra n) i = (initiateSocket s i).map (·.widen extra n) := by
  simp only [initiateSocket, ClientSessionPool.sock, ClientSessionPool.widen, ClientSessionPool.act]
  cases s.pool[i]? with
  | none => rfl
  | some sock =>
    simp only [bind, Except.bind]
    cases (s.pool.set i s.sockets)[i]? with
    | none => rfl
    | some sock' => rfl

/-- A connect needs the buffer only if it succeeds. -/
theorem handleConnect_widen {failed written : Bool}
    (heq : handleConnect s i failed written = .ok s') :
    handleConnect (s.widen extra n) i failed written = .ok (s'.widen extra n) := by
  have hfail : initiateSocket s.fail i = .ok s' →
      initiateSocket (s.widen extra n).fail i = .ok (s'.widen extra n) := by
    intro h
    have := initiateSocket_widen (s := s.fail) (i := i) extra n
    rw [h] at this
    exact this
  obtain ⟨sock, hsock, heq⟩ := bind_eq_ok.mp heq
  refine bind_eq_ok.mpr ⟨sock, hsock, ?_⟩
  simp only [show (s.widen extra n).stop = s.stop from rfl]
  split at heq
  · next hstop =>
    cases heq
    rw [if_pos hstop]
    rfl
  · next hstop =>
    rw [if_neg hstop]
    split at heq
    · next hfailed => rw [if_pos hfailed]; exact hfail heq
    · next hfailed =>
      rw [if_neg hfailed]
      split at heq
      · next hwritten => rw [if_pos hwritten]; exact hfail heq
      · next hwritten =>
        rw [if_neg hwritten]
        obtain ⟨buf, hbuf, heq⟩ := bind_eq_ok.mp heq
        refine bind_eq_ok.mpr ⟨buf, ?_, ?_⟩
        · exact (buffer_widen (s := s.act _) extra n (lt_of_buffer_eq_ok hbuf)).trans hbuf
        · cases heq
          rfl

/-- A first response adds a slot in the same cases if neither pool grows any more. -/
theorem handle1stResp_widen {failed : Bool} (hi : i < s.buffers.length)
    (hn : s.pool.length < n ↔ s.pool.length < s.poolSize) :
    handle1stResp (s.widen extra n) i failed =
      (handle1stResp s i failed).map (·.widen extra n) := by
  rw [handle1stResp, handle1stResp, buffer_widen extra n hi,
    show (s.widen extra n).sock i = s.sock i from rfl]
  cases hsock : s.sock i with
  | error e => rfl
  | ok sock =>
    cases hbuf : s.buffer i with
    | error e => rfl
    | ok buf =>
      simp only [bind, Except.bind, show (s.widen extra n).stop = s.stop from rfl]
      split
      · rfl
      · split
        · exact initiateSocket_widen (s := s.fail) extra n
        · split
          · exact initiateSocket_widen (s := s.fail) extra n
          · by_cases hgrow : i = s.pool.length - 1 ∧ s.pool.length < s.poolSize
            · rw [if_pos, if_pos]
              · simp only [ClientSessionPool.sock, ClientSessionPool.emplaceBack,
                  ClientSessionPool.pushBack, ClientSessionPool.begin, ClientSessionPool.widen]
                cases (s.pool ++ [s.sockets])[i + 1]? with
                | none => rfl
                | some next => rfl
              · exact hgrow
              · exact ⟨hgrow.1, hn.mpr hgrow.2⟩
            · rw [if_neg, if_neg]
              · rfl
              · exact hgrow
              · exact fun h => hgrow ⟨h.1, hn.mp h.2⟩

theorem handle2ndResp_widen {bytesRead : Nat} {failed : Bool} {padding : Bytes 2}
    (hi : i < s.buffers.length) :
    handle2ndResp (s.widen extra n) i bytesRead failed padding =
      (handle2ndResp s i bytesRead failed padding).map (·.widen extra n) := by
  rw [handle2ndResp, handle2ndResp, buffer_widen extra n hi]
  cases hbuf : s.buffer i with
  | error e => rfl
  | ok buf =>
    simp only [bind, Except.bind, show (s.widen extra n).stop = s.stop from rfl]
    split
    · rfl
    · split
      · exact initiateSocket_widen (s := s.fail) extra n
      · simp only [ClientSessionPool.widen, List.set_append_left _ _ hi]
        rfl

theorem handleSendFd_widen {failed : Bool} {bytesSent : Int} (hi : i < s.buffers.length) :
    handleSendFd (s.widen extra n) i failed bytesSent =
      (handleSendFd s i failed bytesSent).map (·.widen extra n) := by
  rw [handleSendFd, handleSendFd, buffer_widen extra n hi,
    show (s.widen extra n).sock i = s.sock i from rfl]
  cases hsock : s.sock i with
  | error e => rfl
  | ok sock =>
    cases hbuf : s.buffer i with
    | error e => rfl
    | ok buf =>
      simp only [bind, Except.bind, show (s.widen extra n).stop = s.stop from rfl]
      split
      · rfl
      · split
        · exact initiateSocket_widen (s := s.fail) extra n
        · split
          · rfl
          · exact initiateSocket_widen (s := s.act (.descriptor sock buf bytesSent)) extra n

theorem recv_widen {k : Nat} {bytes : List Byte} {failed : Bool}
    (hi : ∀ index sock r, s.ops[k]? = some ⟨index, .read sock r⟩ → index < s.buffers.length) :
    recv (s.widen extra n) k bytes failed = (recv s k bytes failed).map (·.widen extra n) := by
  unfold recv
  rw [show (s.widen extra n).ops = s.ops from rfl]
  split
  · next index sock r hk =>
    have hlt : index < s.buffers.length := hi index sock r hk
    simp only [ClientSessionPool.widen, List.getElem?_append_left hlt]
    split
    · next buf hended hbuf =>
      simp only [List.set_append_left _ _ hlt]
      split
      · rfl
      · rfl
    · rfl
  · rfl

end Widen

/-! ## Where the operations come from -/

/-- An operation of a started pool with `n` buffers. Only a connect may be on a slot without a
buffer. The read of `async_read_some` is the one of `Start`, on the socket that `Start` made. -/
def Op.Rooted (n : Nat) (op : Op) : Prop :=
  match op.pending with
  | .connect sock => sock ≠ 0
  | .read sock r =>
    op.index < n ∧ (r.whole = false ↔ sock = 0) ∧ (sock = 0 → op.index = 0 ∧ r.resp = .second)
  | .wait => op.index < n

/-- A read of `async_read`. -/
theorem Op.rooted_read {n i sock : Nat} {resp : Resp} (hi : i < n) (hsock : sock ≠ 0) :
    Op.Rooted n ⟨i, .read sock { resp := resp, whole := true }⟩ :=
  ⟨hi, ⟨fun hwhole => absurd (show true = false from hwhole) (by decide),
    fun h0 => absurd h0 hsock⟩, fun h0 => absurd h0 hsock⟩

/-! ## Every started pool -/

/-- The pool has its operations from `Start` and the handlers, and with the buffers `extra` and the
final size `n` it has the invariant. The two pools grow alike. -/
structure Sound (s : ClientSessionPool) (extra : List MicroBuffer) (n : Nat) : Prop where
  inv : Inv (s.widen extra n)
  size : n = s.poolSize ∨ n ≤ s.pool.length ∧ s.poolSize ≤ s.pool.length
  rooted : ∀ op ∈ s.ops, op.Rooted s.buffers.length

section Sound

variable {s s' : ClientSessionPool} {extra : List MicroBuffer} {n : Nat} {e : Event}

theorem Sound.grows (h : Sound s extra n) : s.pool.length < n ↔ s.pool.length < s.poolSize := by
  rcases h.size with rfl | ⟨hn, hsize⟩
  · exact Iff.rfl
  · omega

/-- The slot of a read has a buffer. -/
theorem Sound.read_lt (h : Sound s extra n) {k index sock : Nat} {r : Read}
    (hk : s.ops[k]? = some ⟨index, .read sock r⟩) : index < s.buffers.length :=
  (h.rooted _ (List.mem_of_getElem? hk)).1

theorem Sound.wait_lt (h : Sound s extra n) {k index : Nat}
    (hk : s.ops[k]? = some ⟨index, .wait⟩) : index < s.buffers.length :=
  h.rooted _ (List.mem_of_getElem? hk)

/-- An event that is not a connect does the same to the pool with the further buffers. -/
theorem Sound.step_eq (h : Sound s extra n) (he : ∀ k failed written, e ≠ .connect k failed written) :
    step (s.widen extra n) e = (step s e).map (Except.map (·.widen extra n)) := by
  cases e with
  | connect k failed written => exact absurd rfl (he k failed written)
  | recv k bytes failed =>
    have hwiden : recv (s.widen extra n) k bytes failed =
        (recv s k bytes failed).map (·.widen extra n) :=
      recv_widen extra n fun index sock r hk => h.read_lt hk
    simp only [step, hwiden, Option.map_map]
    rfl
  | resp k padding =>
    simp only [step]
    rw [show (s.widen extra n).ops = s.ops from rfl]
    split
    · next index sock whole bytes failed hk =>
      exact congrArg some (handle1stResp_widen (s := s.done k) extra n (h.read_lt hk) h.grows)
    · next index sock whole bytes failed hk =>
      exact congrArg some (handle2ndResp_widen (s := s.done k) extra n (h.read_lt hk))
    · rfl
  | sendFd k failed bytesSent =>
    simp only [step]
    rw [show (s.widen extra n).ops = s.ops from rfl]
    split
    · next index hk =>
      exact congrArg some (handleSendFd_widen (s := s.done k) extra n (h.wait_lt hk))
    · rfl
  | clientError =>
    simp only [step, handleClientError, show (s.widen extra n).stop = s.stop from rfl]
    split
    · rfl
    · rfl

/-- A connect does the same, too, unless it uses a buffer that is not there. -/
theorem Sound.step_widen (h : Sound s extra n) (heq : step s e = some (.ok s')) :
    step (s.widen extra n) e = some (.ok (s'.widen extra n)) := by
  by_cases hconnect : ∃ k failed written, e = .connect k failed written
  · obtain ⟨k, failed, written, rfl⟩ := hconnect
    simp only [step] at heq ⊢
    rw [show (s.widen extra n).ops = s.ops from rfl]
    split at heq
    · next index sock hk =>
      exact congrArg some (handleConnect_widen (s := s.done k) extra n (Option.some.inj heq))
    · cases heq
  · rw [h.step_eq (fun k failed written he => hconnect ⟨k, failed, written, he⟩), heq]
    rfl

theorem Sound.rooted_step (h : Sound s extra n) (heq : step s e = some (.ok s')) :
    ∀ op ∈ s'.ops, op.Rooted s.buffers.length := by
  have hdone : ∀ k, ∀ op ∈ (s.done k).ops, op.Rooted s.buffers.length := fun k op hop =>
    h.rooted op (List.mem_of_mem_eraseIdx hop)
  have hnew : s.sockets ≠ 0 := by
    have hslots : 0 < s.pool.length := Nat.lt_of_lt_of_le Nat.zero_lt_two h.inv.slots
    obtain ⟨x, hx⟩ := exists_sock hslots
    exact Nat.ne_of_gt (Nat.zero_lt_of_lt (h.inv.fresh x (List.mem_of_getElem? hx)))
  cases e with
  | connect k failed written =>
    simp only [step] at heq
    split at heq
    · next index sock hk =>
      have hop := List.mem_of_getElem? hk
      refine (handleConnect_left (s := s.done k) (Option.some.inj heq)).ops (hdone k)
        (fun _ => hnew) ?_
      rintro _ ⟨x, hx, rfl⟩ hlt
      have hsock : s.pool[index]? = some sock := (h.inv.ops _ hop).sock sock rfl
      obtain rfl : sock = x := Option.some.inj (hsock.symm.trans hx)
      have hne : sock ≠ 0 := h.rooted _ hop
      exact Op.rooted_read hlt hne
    · cases heq
  | recv k bytes failed =>
    obtain ⟨s₁, hrecv, hs₁⟩ := Option.map_eq_some_iff.mp heq
    cases hs₁
    obtain ⟨index, sock, r, buf, hk, -, -, -, rfl⟩ := recv_eq_some hrecv
    have hread : Op.Rooted s.buffers.length ⟨index, .read sock r⟩ :=
      h.rooted _ (List.mem_of_getElem? hk)
    intro op hop
    rcases List.mem_or_eq_of_mem_set hop with hop | rfl
    · exact h.rooted op hop
    · exact hread
  | resp k padding =>
    simp only [step] at heq
    split at heq
    · next index sock whole bytes failed hk =>
      have hop := List.mem_of_getElem? hk
      refine (handle1stResp_left (s := s.done k) (Option.some.inj heq)).ops (hdone k)
        (fun _ => hnew) ?_
      rintro _ ⟨x, hx, rfl⟩ hlt
      have hsock : s.pool[index]? = some sock := (h.inv.ops _ hop).sock sock rfl
      obtain rfl : sock = x := Option.some.inj (hsock.symm.trans hx)
      have hne : sock ≠ 0 := by
        intro h0
        obtain ⟨-, hresp⟩ := (h.rooted _ hop).2.2 h0
        cases hresp
      exact Op.rooted_read hlt hne
    · next index sock whole bytes failed hk =>
      refine (handle2ndResp_left (s := s.done k) (Option.some.inj heq)).ops (hdone k)
        (fun _ => hnew) ?_
      rintro _ rfl hlt
      exact hlt
    · cases heq
  | sendFd k failed bytesSent =>
    simp only [step] at heq
    split at heq
    · next index hk =>
      exact (handleSendFd_left (s := s.done k) (Option.some.inj heq)).ops (hdone k)
        (fun _ => hnew) fun _ hp _ => hp.elim
    · cases heq
  | clientError =>
    cases heq
    unfold handleClientError
    split
    · exact h.rooted
    · exact h.rooted

theorem Sound.step (h : Sound s extra n) (heq : SessionPool.step s e = some (.ok s')) :
    Sound s' extra n := by
  obtain ⟨t, ht, hstep⟩ := step_spec h.inv (h.step_widen heq)
  cases ht
  have hbuffers : s'.buffers.length = s.buffers.length := by
    have hlen : (s.buffers ++ extra).length = n := h.inv.buffers
    have hlen' : (s'.buffers ++ extra).length = n := hstep.inv.buffers
    rw [List.length_append] at hlen hlen'
    omega
  refine ⟨hstep.inv, ?_, ?_⟩
  · have hfixed : s'.poolSize = s.poolSize := congrArg (·.2.2.1) (step_fixed heq)
    have hgrown : s.pool.length ≤ s'.pool.length := by
      rcases hstep.grown with hlen | ⟨-, hlen, -⟩
      · exact Nat.le_of_eq (Eq.symm hlen)
      · exact Nat.le_of_succ_le (Nat.le_of_eq (Eq.symm hlen))
    rw [hfixed]
    rcases h.size with hn | ⟨hn, hsize⟩
    · exact .inl hn
    · exact .inr ⟨hn.trans hgrown, hsize.trans hgrown⟩
  · rw [hbuffers]
    exact h.rooted_step heq

theorem Runs.sound (hr : Runs s s') (h : Sound s extra n) : Sound s' extra n := by
  induction hr with
  | refl => exact h
  | step _ heq ih => exact ih.step heq

/-- A started pool with one buffer is a pool with two, but for a buffer and the final size. -/
theorem listening_widen {port : UInt16} {resp : Bytes 12} {backlog : Int32}
    (h : slotsOf backlog = 1) :
    (listening (bound port resp) 0 1 backlog).widen [arrayOf 24 []] 2 =
      listening (bound port resp) 0 1 2 := by
  unfold slotsOf at h
  simp only [listening, ClientSessionPool.widen, h]
  rfl

/-- Every run after `Start`, whatever the backlog. -/
theorem Reachable.sound {env : StartEnv} (hr : Reachable env s) : ∃ extra n, Sound s extra n := by
  obtain ⟨s₀, hstart, hruns⟩ := hr
  obtain ⟨port, resp, listenReq, -, rfl, hbuffers⟩ := start_eq_true hstart
  have hrooted : ∀ op ∈ (listening (bound port resp) 0 1 listenReq.backlog).ops,
      op.Rooted (listening (bound port resp) 0 1 listenReq.backlog).buffers.length := by
    intro op hop
    have hop' : op = ⟨0, .read 0 { resp := .second, whole := false }⟩ ∨ op = ⟨1, .connect 1⟩ := by
      simpa [listening, bound] using hop
    rcases hop' with rfl | rfl
    · exact ⟨hbuffers, ⟨fun _ => rfl, fun _ => rfl⟩, fun _ => ⟨rfl, rfl⟩⟩
    · exact Nat.one_ne_zero
  by_cases hbacklog : 2 ≤ listenReq.backlog
  · refine ⟨[], slotsOf listenReq.backlog, hruns.sound ⟨?_, .inl rfl, hrooted⟩⟩
    have hwiden : ∀ t : ClientSessionPool, t.widen [] t.poolSize = t := by
      intro t
      rw [ClientSessionPool.widen, List.append_nil]
    exact (hwiden (listening (bound port resp) 0 1 listenReq.backlog)).symm ▸ listening_inv hbacklog
  · have hone : slotsOf listenReq.backlog = 1 := by
      have hlt := slotsOf_lt_two hbacklog
      have hlen : (listening (bound port resp) 0 1 listenReq.backlog).buffers.length =
          slotsOf listenReq.backlog := by
        simp [listening, resize, slotsOf, bound]
      omega
    refine ⟨[arrayOf 24 []], 2, hruns.sound ⟨?_, .inr ⟨Nat.le_refl 2, ?_⟩, hrooted⟩⟩
    · rw [listening_widen hone]
      exact listening_inv (by decide)
    · show slotsOf listenReq.backlog ≤ 2
      omega

end Sound

end SessionPool
end Proxy
end TrustedCa
