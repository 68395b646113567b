import TrustedCa.Proxy.PoolReachable

/-!
# The second reply in fragments

The proxy's second reply to a BIND request may arrive in any number of reads. Slot 0 reads its first
one with `async_read_some`, which ends with the first bytes, and `Handle2ndResp` takes fewer than 22
bytes for an error.

* `Served`: a run in which the parts of a reply arrive one after the other at a slot, without an I/O
  error. The other slots do what they like.
* `Delivers`: in every such run the slot goes on and ends with one descriptor message, before its
  socket is closed.
* `Phase`: how far the slot is. Each of its events takes it to the next phase (`Phase.own`), and the
  other events leave it there (`Phase.other`).
-/

namespace TrustedCa
namespace Proxy
namespace SessionPool

/-! ## Replies in parts -/

/-- `chunk` is the part of `split` that comes after `bytes`. -/
def Next (split : List (List Byte)) (bytes chunk : List Byte) : Prop :=
  ∃ before after, split = before ++ chunk :: after ∧ before.flatten = bytes

/-- Parts that are not empty are told apart by the bytes before them. -/
theorem eq_of_flatten_eq {before before' after after' : List (List Byte)} {chunk : List Byte}
    (hne : ∀ c ∈ before ++ after, c ≠ []) (heq : before ++ after = before' ++ chunk :: after')
    (hflat : before'.flatten = before.flatten) : after = chunk :: after' := by
  induction before generalizing before' with
  | nil =>
    cases before' with
    | nil => exact heq
    | cons c rest =>
      have hc : c ≠ [] := hne c (by rw [heq]; exact List.mem_cons_self)
      exact absurd (List.append_eq_nil_iff.mp hflat).1 hc
  | cons b bs ih =>
    cases before' with
    | nil =>
      have hb : b ≠ [] := hne b List.mem_cons_self
      exact absurd (List.append_eq_nil_iff.mp hflat.symm).1 hb
    | cons c rest =>
      obtain ⟨rfl, htail⟩ := List.cons.inj heq
      refine ih (fun c hc => hne c (List.mem_cons_of_mem _ hc)) htail ?_
      exact List.append_cancel_left hflat

/-! ## Runs -/

/-- The event is about slot `i`. -/
def Event.Own (s : ClientSessionPool) (i : Nat) (e : Event) : Prop :=
  ∃ k ∈ e.position, ∃ op ∈ s.ops[k]?, op.index = i

/-- No I/O error for the reply that slot `i` waits for on `sock`: a read brings the next part of
`split`, the application's socket becomes writable, and the message is sent. -/
def Event.Serves (s : ClientSessionPool) (i sock : Nat) (split : List (List Byte)) : Event → Prop
  | .recv k bytes failed =>
    ∀ r, s.ops[k]? = some ⟨i, .read sock r⟩ → failed = false ∧ Next split r.bytes bytes
  | .sendFd k failed bytesSent =>
    s.ops[k]? = some ⟨i, .wait⟩ → s.pool[i]? = some sock → failed = false ∧ 0 < bytesSent
  | .connect .. | .resp .. | .clientError => True

/-- A run with `n` events of slot `i`, in which the pool is not stopped. -/
inductive Served (i sock : Nat) (split : List (List Byte)) :
    Nat → ClientSessionPool → ClientSessionPool → Prop
  | refl (s : ClientSessionPool) : Served i sock split 0 s s
  | other {n : Nat} {s s₁ s₂ : ClientSessionPool} {e : Event} : Served i sock split n s s₁ →
    step s₁ e = some (.ok s₂) → s₂.stop = false → ¬ e.Own s₁ i → Served i sock split n s s₂
  | own {n : Nat} {s s₁ s₂ : ClientSessionPool} {e : Event} : Served i sock split n s s₁ →
    step s₁ e = some (.ok s₂) → s₂.stop = false → e.Own s₁ i → e.Serves s₁ i sock split →
    Served i sock split (n + 1) s s₂

/-- The descriptor of `sock` has been sent, once, with the address and the port of `reply`, and
before `sock` was closed. -/
def Delivered (s : ClientSessionPool) (sock : Nat) (reply : List Byte) : Prop :=
  ∃ before after padding n, s.log =
      before ++ .descriptor sock ((responseOf reply).toBytes padding) n :: after ∧
    .close sock ∉ before ∧
    s.descriptors.filter (fun d => d.1 = sock) = [(sock, (responseOf reply).toBytes padding)]

/-- After `n` events slot `i` still has `sock`, nothing has been sent or closed for it, and the slot
can go on. -/
structure Ongoing (s : ClientSessionPool) (i sock : Nat) (split : List (List Byte)) (n : Nat) :
    Prop where
  held : s.pool[i]? = some sock
  unsent : sock ∉ s.descriptors.map Prod.fst
  opened : .close sock ∉ s.log
  bound : n < split.length + 2
  enabled : ∃ e s', e.Own s i ∧ e.Serves s i sock split ∧ step s e = some (.ok s') ∧
    s'.stop = false

/-- However the reply arrives, the slot delivers the connection: it can always go on until it has,
and it has after an event for each part, one for the reply and one for the message. -/
def Delivers (s : ClientSessionPool) (i sock : Nat) (split : List (List Byte)) : Prop :=
  ∀ n s', Served i sock split n s s' →
    Ongoing s' i sock split n ∨ Delivered s' sock split.flatten

/-! ## Phases -/

/-- How far slot `i` is with the reply after `n` events. -/
inductive Phase (s : ClientSessionPool) (i sock : Nat) (whole : Bool) (split : List (List Byte)) :
    Nat → Prop
  | reading {before after : List (List Byte)} : split = before ++ after → after ≠ [] →
    ⟨i, .read sock ⟨.second, whole, before.flatten, none⟩⟩ ∈ s.ops →
    Phase s i sock whole split before.length
  | read : ⟨i, .read sock ⟨.second, whole, split.flatten, some false⟩⟩ ∈ s.ops →
    Phase s i sock whole split split.length
  | waiting {padding : Bytes 2} :
    Waiting s i sock ((responseOf split.flatten).toBytes padding) →
    Phase s i sock whole split (split.length + 1)
  | delivered {n : Nat} : Delivered s sock split.flatten → Phase s i sock whole split n

section Events

variable {s s' : ClientSessionPool} {i k sock n : Nat} {whole : Bool} {split : List (List Byte)}
  {e : Event} {op : Op}

/-- What was delivered stays so. -/
theorem Delivered.step {reply : List Byte} (hd : Delivered s sock reply) (hs : Inv s)
    (heq : SessionPool.step s e = some (.ok s')) : Delivered s' sock reply := by
  obtain ⟨before, after, padding, n, hlog, hbefore, -⟩ := hd
  obtain ⟨t, ht, hstep⟩ := step_spec hs heq
  cases ht
  obtain ⟨more, hmore⟩ := hstep.log
  have hlog' : s'.log =
      before ++ .descriptor sock ((responseOf reply).toBytes padding) n :: (after ++ more) := by
    rw [← hmore, hlog, List.append_assoc, List.cons_append]
  have hmem : .descriptor sock ((responseOf reply).toBytes padding) n ∈ s'.log := by
    rw [hlog']
    exact List.mem_append_right _ List.mem_cons_self
  exact ⟨before, after ++ more, padding, n, hlog', hbefore, descriptors_filter hstep.inv hmem⟩

/-- The events of the other slots. -/
theorem Phase.other (hp : Phase s i sock whole split n) (hs : Inv s)
    (heq : SessionPool.step s e = some (.ok s')) (hno : ¬ e.Own s i) :
    Phase s' i sock whole split n := by
  obtain ⟨t, ht, hstep⟩ := step_spec hs heq
  cases ht
  have hframe : Frame i s s' :=
    hstep.frame i fun k hk op hop hindex => hno ⟨k, hk, op, hop, hindex⟩
  cases hp with
  | reading hsplit hafter hop => exact .reading hsplit hafter (hframe.ops _ hop rfl)
  | read hop => exact .read (hframe.ops _ hop rfl)
  | waiting hw =>
    have hi : i < s.pool.length := (List.getElem?_eq_some_iff.mp hw.sock).1
    exact .waiting ⟨hframe.ops _ hw.op rfl, (hframe.pool hi).trans hw.sock,
      hframe.buffer.trans hw.buffer⟩
  | delivered hd => exact .delivered (hd.step hs heq)

/-- An event of a slot is about its one operation. -/
theorem Event.Own.position (hown : e.Own s op.index) (hs : Inv s) (hop : op ∈ s.ops) :
    ∃ k, e.position = some k ∧ s.ops[k]? = some op := by
  obtain ⟨k, hk, op', hop', hindex⟩ := hown
  obtain rfl : op' = op :=
    List.inj_on_of_nodup_map hs.single (List.mem_of_getElem? hop') hop hindex
  exact ⟨k, hk, hop'⟩

/-- Bytes that fit into the buffer of a read. -/
theorem step_recv {r : Read} {buf : MicroBuffer} {bytes : List Byte} (failed : Bool)
    (hk : s.ops[k]? = some ⟨i, .read sock r⟩) (hended : r.ended = none)
    (hbuf : s.buffers[i]? = some buf) (hfits : (r.bytes ++ bytes).length ≤ r.resp.size) :
    step s (.recv k bytes failed) = some (.ok { s with
      buffers := s.buffers.set i (copyTo buf r.bytes.length bytes)
      ops := s.ops.set k ⟨i, .read sock (r.recv bytes failed)⟩ }) := by
  simp only [step, recv, hk, hended, hbuf, if_pos hfits, Option.map_some]

/-- A read that has not ended gets the next part. -/
theorem step_reading {r : Read} (hpos : e.position = some k)
    (hk : s.ops[k]? = some ⟨i, .read sock r⟩) (hended : r.ended = none)
    (heq : step s e = some (.ok s')) (hserves : e.Serves s i sock split) :
    ∃ chunk, Next split r.bytes chunk ∧ ⟨i, .read sock (r.recv chunk false)⟩ ∈ s'.ops := by
  rcases awaits_of_step hpos hk heq with ⟨-, chunk, failed, rfl⟩ | ⟨hne, -⟩
  · obtain ⟨rfl, hnext⟩ := hserves _ hk
    obtain ⟨s₁, hrecv, hs₁⟩ := Option.map_eq_some_iff.mp heq
    cases hs₁
    obtain ⟨index, sock', r', buf, hk', -, -, -, rfl⟩ := recv_eq_some hrecv
    rw [hk] at hk'
    cases hk'
    exact ⟨chunk, hnext, List.mem_set (List.getElem?_eq_some_iff.mp hk).1 _⟩
  · exact absurd hended hne

/-- A reply of 22 bytes with REP 00, in parts that are not empty. -/
structure Reply (split : List (List Byte)) : Prop where
  nonempty : ∀ chunk ∈ split, chunk ≠ []
  length : split.flatten.length = k2ndBindResponseSize
  rep : split.flatten.getD 1 0 = 0x00

/-- With the last part the read ends. -/
theorem Phase.of_last {before : List (List Byte)} {chunk : List Byte} (hreply : Reply split)
    (hsplit : split = before ++ [chunk])
    (hop : ⟨i, .read sock (Read.recv ⟨.second, whole, before.flatten, none⟩ chunk false)⟩ ∈ s.ops) :
    Phase s i sock whole split (before.length + 1) := by
  have hall : before.flatten ++ chunk = split.flatten := by
    rw [hsplit, List.flatten_append, List.flatten_singleton]
  have hread : Read.recv ⟨.second, whole, before.flatten, none⟩ chunk false =
      ⟨.second, whole, split.flatten, some false⟩ := by
    simp [Read.recv, hall, hreply.length, Resp.size]
  rw [hread] at hop
  have hlength : split.length = before.length + 1 := by
    rw [hsplit, List.length_append]
    rfl
  rw [← hlength]
  exact .read hop

/-- With another part an `async_read` goes on. -/
theorem Phase.of_part {before rest : List (List Byte)} {chunk next : List Byte}
    (hreply : Reply split) (hsplit : split = before ++ chunk :: next :: rest)
    (hop : ⟨i, .read sock (Read.recv ⟨.second, true, before.flatten, none⟩ chunk false)⟩ ∈ s.ops) :
    Phase s i sock true split (before.length + 1) := by
  have hnext : 0 < next.length :=
    List.length_pos_iff.mpr (hreply.nonempty next (by rw [hsplit]; simp))
  have hshort : (before.flatten ++ chunk).length ≠ Resp.second.size := by
    have hall := hreply.length
    simp only [hsplit, List.flatten_append, List.flatten_cons, List.length_append] at hall ⊢
    show _ ≠ k2ndBindResponseSize
    omega
  have hread : Read.recv ⟨.second, true, before.flatten, none⟩ chunk false =
      ⟨.second, true, (before ++ [chunk]).flatten, none⟩ := by
    simp only [Read.recv, beq_eq_false_iff_ne.mpr hshort, List.flatten_append,
      List.flatten_singleton]
    rfl
  rw [hread] at hop
  have hphase : Phase s i sock true split (before ++ [chunk]).length :=
    .reading (by rw [hsplit]; simp) (List.cons_ne_nil next rest) hop
  rwa [List.length_append] at hphase

/-- With `async_read`, or where all of the reply arrives at once, an event of the slot takes it to
the next phase. -/
theorem Phase.own (hp : Phase s i sock whole split n) (hs : Inv s) (hstop : s.stop = false)
    (hreply : Reply split) (hwhole : whole = true ∨ split.length = 1)
    (heq : SessionPool.step s e = some (.ok s')) (hown : e.Own s i)
    (hserves : e.Serves s i sock split) : Phase s' i sock whole split (n + 1) := by
  cases hp with
  | @reading before after hsplit hafter hop =>
    obtain ⟨k, hpos, hk⟩ := Event.Own.position hown hs hop
    obtain ⟨chunk, ⟨before', after', hsplit', hflat⟩, hop'⟩ := step_reading hpos hk rfl heq hserves
    obtain rfl : after = chunk :: after' := by
      subst hsplit
      exact eq_of_flatten_eq hreply.nonempty hsplit' hflat
    cases after' with
    | nil => exact .of_last hreply hsplit hop'
    | cons next rest =>
      have hmany : split.length ≠ 1 := by
        rw [hsplit, List.length_append, List.length_cons, List.length_cons]
        omega
      obtain rfl : whole = true := hwhole.resolve_right hmany
      exact .of_part hreply hsplit hop'
  | read hop =>
    obtain ⟨k, hpos, hk⟩ := Event.Own.position hown hs hop
    rcases awaits_of_step hpos hk heq with ⟨hnone, -⟩ | ⟨-, padding, rfl⟩
    · cases hnone
    · obtain ⟨t, ht, -, -, hw⟩ := resp_waiting hs hstop hk hreply.length hreply.rep padding
      rw [heq] at ht
      cases ht
      exact .waiting hw
  | waiting hw =>
    obtain ⟨k, hpos, hk⟩ := Event.Own.position hown hs hw.op
    obtain ⟨failed, bytesSent, rfl⟩ := awaits_of_step hpos hk heq
    obtain ⟨rfl, hsent⟩ := hserves hk hw.sock
    obtain ⟨t, ht, hlog, hinv, -⟩ := hw.sendFd hs hstop hk hsent
    rw [heq] at ht
    cases ht
    refine .delivered ⟨s.log, [.close sock], _, bytesSent, hlog, (hs.untouched hw.sock).2, ?_⟩
    refine descriptors_filter (n := bytesSent) hinv ?_
    rw [hlog]
    exact List.mem_append_right _ List.mem_cons_self
  | delivered hd => exact .delivered (hd.step hs heq)

/-- Until the connection is delivered the slot has an event, and not a connect, that takes it on. -/
theorem Phase.goes_on (hp : Phase s i sock whole split n) (hs : Inv s) (hstop : s.stop = false)
    (hreply : Reply split) : Delivered s sock split.flatten ∨
      s.pool[i]? = some sock ∧ n < split.length + 2 ∧
      ∃ e s', (∀ k failed written, e ≠ .connect k failed written) ∧ e.Own s i ∧
        e.Serves s i sock split ∧ SessionPool.step s e = some (.ok s') ∧ s'.stop = false := by
  cases hp with
  | @reading before after hsplit hafter hop =>
    refine .inr ⟨(hs.ops _ hop).sock sock rfl, ?_, ?_⟩
    · rw [hsplit, List.length_append]
      omega
    · obtain ⟨chunk, rest, rfl⟩ := List.exists_cons_of_ne_nil hafter
      obtain ⟨k, hk⟩ := List.getElem?_of_mem hop
      obtain ⟨buf, hbuf⟩ := hs.exists_buffer (hs.ops _ hop).slot
      have hfits : (before.flatten ++ chunk).length ≤ Resp.second.size := by
        have hall := hreply.length
        rw [hsplit, List.flatten_append, List.flatten_cons, ← List.append_assoc,
          List.length_append] at hall
        exact Nat.le_of_add_right_le (Nat.le_of_eq hall)
      refine ⟨.recv k chunk false, _, nofun, ⟨k, rfl, _, hk, rfl⟩, ?_,
        step_recv false hk rfl hbuf hfits, hstop⟩
      intro r hr
      rw [hk] at hr
      cases hr
      exact ⟨rfl, before, rest, hsplit, rfl⟩
  | read hop =>
    refine .inr ⟨(hs.ops _ hop).sock sock rfl, by omega, ?_⟩
    obtain ⟨k, hk⟩ := List.getElem?_of_mem hop
    obtain ⟨s', heq, -, hstop', -⟩ :=
      resp_waiting hs hstop hk hreply.length hreply.rep (arrayOf 2 [])
    exact ⟨.resp k (arrayOf 2 []), s', nofun, ⟨k, rfl, _, hk, rfl⟩, trivial, heq, hstop'⟩
  | waiting hw =>
    refine .inr ⟨hw.sock, by omega, ?_⟩
    obtain ⟨k, hk⟩ := List.getElem?_of_mem hw.op
    obtain ⟨s', heq, -, -, hstop'⟩ := hw.sendFd hs hstop hk Int.one_pos
    exact ⟨.sendFd k false 1, s', nofun, ⟨k, rfl, _, hk, rfl⟩, fun _ _ => ⟨rfl, Int.one_pos⟩, heq,
      hstop'⟩
  | delivered hd => exact .inl hd

end Events

/-! ## Every run -/

section Runs

variable {s s' : ClientSessionPool} {extra : List MicroBuffer} {i sock m n : Nat} {whole : Bool}
  {split : List (List Byte)}

theorem Served.phase (hserved : Served i sock split n s s') (h : Sound s extra m)
    (hstop : s.stop = false) (hreply : Reply split) (hwhole : whole = true ∨ split.length = 1)
    (hp : Phase (s.widen extra m) i sock whole split 0) :
    Sound s' extra m ∧ s'.stop = false ∧ Phase (s'.widen extra m) i sock whole split n := by
  induction hserved with
  | refl => exact ⟨h, hstop, hp⟩
  | other _ heq hstop₂ hno ih =>
    obtain ⟨h₁, -, hp₁⟩ := ih h hstop hp
    exact ⟨h₁.step heq, hstop₂, hp₁.other h₁.inv (h₁.step_widen heq) hno⟩
  | own _ heq hstop₂ hown hserves ih =>
    obtain ⟨h₁, hstop₁, hp₁⟩ := ih h hstop hp
    exact ⟨h₁.step heq, hstop₂,
      hp₁.own h₁.inv hstop₁ hreply hwhole (h₁.step_widen heq) hown hserves⟩

/-- With `async_read`, or where all of the reply arrives at once, the connection is delivered. -/
theorem Sound.delivers (h : Sound s extra m) (hstop : s.stop = false)
    (hop : ⟨i, .read sock { resp := .second, whole := whole }⟩ ∈ s.ops) (hreply : Reply split)
    (hwhole : whole = true ∨ split.length = 1) : Delivers s i sock split := by
  intro n s' hserved
  have hne : split ≠ [] := by
    rintro rfl
    exact absurd hreply.length (by decide)
  have hstart : Phase (s.widen extra m) i sock whole split 0 :=
    .reading (List.nil_append split).symm hne hop
  obtain ⟨h', hstop', hp⟩ := hserved.phase h hstop hreply hwhole hstart
  rcases hp.goes_on h'.inv hstop' hreply with hd | ⟨hsock, hn, e, t, hconnect, hown, hserves, heq, ht⟩
  · exact .inr hd
  · obtain ⟨hunsent, hopen⟩ := h'.inv.untouched hsock
    refine .inl ⟨hsock, hunsent, hopen, hn, ?_⟩
    rw [h'.step_eq hconnect] at heq
    obtain ⟨r, hr, hrt⟩ := Option.map_eq_some_iff.mp heq
    cases r with
    | error fault => cases hrt
    | ok s₂ =>
      cases hrt
      exact ⟨e, s₂, hown, hserves, hr, ht⟩

/-- `Handle2ndResp` on a part of the reply. -/
theorem handle2ndResp_short {bytesRead : Nat} {buf : MicroBuffer} {padding : Bytes 2}
    (hsock : s.pool[i]? = some sock) (hbuf : s.buffers[i]? = some buf) (hstop : s.stop = false)
    (hshort : bytesRead < k2ndBindResponseSize) :
    handle2ndResp s i bytesRead false padding = .ok (s.fail.restarted i sock) := by
  rw [handle2ndResp, buffer_eq_ok hbuf]
  simp only [bind, Except.bind, hstop, hshort, Bool.false_eq_true, if_false, false_or, true_or,
    if_true]
  exact initiateSocket_eq (s := s.fail) hsock

/-- With `async_read_some` the first of several parts closes the socket. -/
theorem Sound.not_delivers (h : Sound s extra m) (hstop : s.stop = false)
    (hop : ⟨i, .read sock { resp := .second, whole := false }⟩ ∈ s.ops) (hreply : Reply split)
    (hsplit : split.length ≠ 1) : ¬ Delivers s i sock split := by
  intro hdelivers
  obtain ⟨k, hk⟩ := List.getElem?_of_mem hop
  obtain ⟨buf, hbuf⟩ : ∃ buf, s.buffers[i]? = some buf :=
    ⟨_, List.getElem?_eq_getElem (h.read_lt hk)⟩
  have hsock : s.pool[i]? = some sock := (h.inv.ops _ hop).sock sock rfl
  have hi : i < s.pool.length := (List.getElem?_eq_some_iff.mp hsock).1
  obtain ⟨chunk, next, rest, rfl⟩ : ∃ chunk next rest, split = chunk :: next :: rest := by
    match split with
    | [] => exact absurd hreply.length (by decide)
    | [_] => exact absurd rfl hsplit
    | chunk :: next :: rest => exact ⟨chunk, next, rest, rfl⟩
  have hshort : chunk.length < k2ndBindResponseSize := by
    have hnext : 0 < next.length :=
      List.length_pos_iff.mpr (hreply.nonempty next (List.mem_cons_of_mem _ List.mem_cons_self))
    have hall := hreply.length
    simp only [List.flatten_cons, List.length_append] at hall
    omega
  -- the first part ends the read
  obtain ⟨s₁, hrecv, hk₁, hsock₁, ⟨buf₁, hbuf₁⟩, hstop₁, hlog₁, hsockets₁⟩ : ∃ s₁,
      SessionPool.step s (.recv k chunk false) = some (.ok s₁) ∧
      s₁.ops[k]? = some ⟨i, .read sock ⟨.second, false, chunk, some false⟩⟩ ∧
      s₁.pool[i]? = some sock ∧ (∃ buf, s₁.buffers[i]? = some buf) ∧ s₁.stop = false ∧
      s₁.log = s.log ∧ s₁.sockets = s.sockets :=
    ⟨_, step_recv false hk rfl hbuf (Nat.le_of_lt hshort),
      List.getElem?_set_self (List.getElem?_eq_some_iff.mp hk).1, hsock,
      ⟨_, List.getElem?_set_self (h.read_lt hk)⟩, hstop, rfl, rfl⟩
  -- and its handler closes the socket
  have hresp : SessionPool.step s₁ (.resp k (arrayOf 2 [])) =
      some (.ok ((s₁.done k).fail.restarted i sock)) := by
    simp only [SessionPool.step, hk₁]
    exact congrArg some (handle2ndResp_short (s := s₁.done k) hsock₁ hbuf₁ hstop₁ hshort)
  have hserves : (Event.recv k chunk false).Serves s i sock (chunk :: next :: rest) := by
    intro r hr
    rw [hk] at hr
    cases hr
    exact ⟨rfl, [], next :: rest, rfl, rfl⟩
  have hserved := Served.own (.own (.refl s) hrecv hstop₁ ⟨k, rfl, _, hk, rfl⟩ hserves) hresp hstop₁
    ⟨k, rfl, _, hk₁, rfl⟩ trivial
  obtain ⟨hunsent, -⟩ := h.inv.untouched hsock
  rcases hdelivers 2 _ hserved with hongoing | ⟨_, _, padding, _, -, -, hfilter⟩
  · have hi₁ : i < s₁.pool.length := (List.getElem?_eq_some_iff.mp hsock₁).1
    have hnew : some s₁.sockets = some sock :=
      (List.getElem?_set_self hi₁).symm.trans hongoing.held
    have hold : sock < s.sockets := h.inv.fresh sock (List.mem_of_getElem? hsock)
    rw [← hsockets₁, Option.some.inj hnew] at hold
    exact Nat.lt_irrefl _ hold
  · have hmem : (sock, (responseOf (chunk :: next :: rest).flatten).toBytes padding) ∈
        ((s₁.done k).fail.restarted i sock).descriptors :=
      (List.mem_filter.mp (hfilter ▸ List.mem_singleton_self _)).1
    have hsame : ((s₁.done k).fail.restarted i sock).descriptors = s.descriptors := by
      simp [ClientSessionPool.descriptors, ClientSessionPool.restarted, ClientSessionPool.done,
        ClientSessionPool.fail, hlog₁, Action.sent]
    rw [hsame] at hmem
    exact hunsent (List.mem_map_of_mem hmem)

end Runs

/-! ## The slots that deliver -/

/-- Slot `i` is slot 0 and still has the socket that `Start` made. -/
def ClientSessionPool.FirstCycle (s : ClientSessionPool) (i : Nat) : Prop :=
  i = 0 ∧ s.pool[i]? = some 0

/-- In its first cycle, and only then, a slot reads the second reply with `async_read_some`. -/
theorem Sound.firstCycle_iff {s : ClientSessionPool} {extra : List MicroBuffer} {m i sock : Nat}
    {r : Read} (h : Sound s extra m) (hop : ⟨i, .read sock r⟩ ∈ s.ops) :
    s.FirstCycle i ↔ r.whole = false := by
  obtain ⟨-, hwhole, hfirst⟩ := h.rooted _ hop
  have hsock : s.pool[i]? = some sock := (h.inv.ops _ hop).sock sock rfl
  rw [hwhole]
  constructor
  · rintro ⟨-, h0⟩
    exact Option.some.inj (hsock.symm.trans h0)
  · rintro rfl
    exact ⟨(hfirst rfl).1, hsock⟩

/-- The second reply, for every pool that was started and every slot that waits for one, in every run
without an I/O error on the reply. The slot delivers the connection, once and before it closes the
socket, if and only if it is not slot 0 in its first cycle or all 22 bytes arrive in one read. -/
theorem delivers_iff {env : StartEnv} {s : ClientSessionPool} (hr : Reachable env s)
    (hstop : s.stop = false) {i sock : Nat} {whole : Bool}
    (hop : ⟨i, .read sock { resp := .second, whole := whole }⟩ ∈ s.ops)
    {split : List (List Byte)} (hreply : Reply split) :
    Delivers s i sock split ↔ ¬ s.FirstCycle i ∨ split.length = 1 := by
  obtain ⟨extra, m, h⟩ := hr.sound
  rw [h.firstCycle_iff hop]
  cases whole with
  | true => exact ⟨fun _ => .inl nofun, fun _ => h.delivers hstop hop hreply (.inl rfl)⟩
  | false =>
    constructor
    · intro hdelivers
      by_contra hno
      have hsplit : split.length ≠ 1 := fun hone => hno (.inr hone)
      exact h.not_delivers hstop hop hreply hsplit hdelivers
    · intro hone
      exact h.delivers hstop hop hreply (.inr (hone.resolve_left fun hne => hne rfl))

/-- `inbound` in two parts. -/
def inboundParts : List (List Byte) := [inbound.take 10, inbound.drop 10]

theorem inboundParts_reply : Reply inboundParts := ⟨by decide, rfl, rfl⟩

/-- The web server's first connection, in one read and in two. -/
theorem delivers_iff_webServer : ∃ s, Reachable webServer s ∧ Delivers s 0 0 [inbound] ∧
    ¬ Delivers s 0 0 inboundParts := by
  obtain ⟨s, hstart, hstop, hop, hfirst⟩ : ∃ s, start webServer {} = .ok (true, s) ∧
      s.stop = false ∧ ⟨0, .read 0 { resp := .second, whole := false }⟩ ∈ s.ops ∧ s.FirstCycle 0 :=
    ⟨_, rfl, rfl, List.mem_cons_self, rfl, rfl⟩
  have hr : Reachable webServer s := ⟨s, hstart, .refl s⟩
  refine ⟨s, hr, (delivers_iff hr hstop hop ⟨by decide, rfl, rfl⟩).mpr (.inr rfl), fun hd => ?_⟩
  rcases (delivers_iff hr hstop hop inboundParts_reply).mp hd with hno | hone
  · exact hno hfirst
  · exact absurd hone (by decide)

/-- The web server closes the connection that arrives on slot 0 in two reads. -/
theorem inboundParts_lost :
    ¬ ∀ (env : StartEnv) (s : ClientSessionPool) (i sock : Nat) (whole : Bool)
      (split : List (List Byte)), Reachable env s → s.stop = false →
      ⟨i, .read sock { resp := .second, whole := whole }⟩ ∈ s.ops → Reply split →
      Delivers s i sock split := by
  intro hclaim
  obtain ⟨s, hstart, hstop, hop⟩ : ∃ s, start webServer {} = .ok (true, s) ∧
      s.stop = false ∧ ⟨0, .read 0 { resp := .second, whole := false }⟩ ∈ s.ops :=
    ⟨_, rfl, rfl, List.mem_cons_self⟩
  have hr : Reachable webServer s := ⟨s, hstart, .refl s⟩
  obtain ⟨extra, m, h⟩ := hr.sound
  exact h.not_delivers hstop hop inboundParts_reply (by decide)
    (hclaim webServer s 0 0 false inboundParts hr hstop hop inboundParts_reply)

end SessionPool
end Proxy
end TrustedCa
